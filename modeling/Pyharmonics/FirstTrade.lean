import Pyharmonics.BacktestEngine
import Pyharmonics.Library.Firsts

/-! The first trade of the backtest engine, told by the bar that fills it and the bar that ends it. -/
namespace Pyharmonics.Backtest

open Firsts

variable {s : Setup} {r : Row} {rows : List Row} {t T : Trade} {rest : List Trade} {df : Frame}
  {side : TradeResult} {j e : ℕ}

/-- The level of a setup a result stands for. -/
def Setup.level (s : Setup) (side : TradeResult) : ℚ :=
  if side = .loss then s.stopLoss else s.targetPrice

/-- A bar at which a price is filled. -/
def fillAt (price : ℚ) (r : Row) : Option Unit := if Covers r price then some () else none

/-- The side on which the engine leaves a trade at a bar. -/
def engineSide (s : Setup) (r : Row) : Option TradeResult :=
  (resolveExit s r.low r.high).map Prod.snd

theorem resolveExit_eq (s : Setup) (r : Row) :
    resolveExit s r.low r.high = (engineSide s r).map fun side => (s.level side, side) := by
  unfold engineSide resolveExit Setup.level
  simp only
  split_ifs <;> simp

theorem engineSide_ne_scratch (h : engineSide s r = some side) : side ≠ .scratch := by
  unfold engineSide resolveExit at h
  simp only at h
  split_ifs at h <;> simp at h <;> simp [← h]

theorem Setup.Ordered.risk_pos (h : s.Ordered) : 0 < |s.entryPrice - s.stopLoss| := by
  unfold Setup.Ordered at h
  split_ifs at h
  · exact abs_pos.mpr (by linarith [h.1])
  · exact abs_pos.mpr (by linarith [h.1])

theorem Setup.Ordered.reward_pos (h : s.Ordered) :
    0 < |s.targetPrice - s.entryPrice| / |s.entryPrice - s.stopLoss| := by
  refine div_pos ?_ h.risk_pos
  unfold Setup.Ordered at h
  split_ifs at h
  · exact abs_pos.mpr (by linarith [h.2])
  · exact abs_pos.mpr (by linarith [h.2])

/-- A trade left on a side. -/
def Setup.leave (s : Setup) (t : Trade) (r : Row) (side : TradeResult) : Trade :=
  s.close t (s.level side) side r.index

theorem Setup.Ordered.leave_loss (h : s.Ordered) (t : Trade) :
    (s.leave t r .loss).rMultiple = -1 := by
  have hrisk := h.risk_pos
  simp only [Setup.leave, Setup.close, Setup.level, if_true, if_pos hrisk]
  rw [abs_sub_comm s.stopLoss, div_self hrisk.ne', abs_one]

theorem Setup.Ordered.leave_win (h : s.Ordered) (t : Trade) : (s.leave t r .win).rMultiple =
    |s.targetPrice - s.entryPrice| / |s.entryPrice - s.stopLoss| := by
  simp [Setup.leave, Setup.close, Setup.level, h.risk_pos]

theorem walk_none_last (last : Option Row) : walk s rows none last = walk s rows none none := by
  cases rows with
  | nil => cases last <;> rfl
  | cons r rows => rw [walk, walk]

/-- An open trade leaves at the first bar that reaches a level, and the walk goes on behind it. -/
theorem walk_leave {q : Row} (last : Row) (h : FirstAt (engineSide s) rows 0 e side)
    (hq : rows[e]? = some q) : walk s rows (some t) (some last) =
      s.leave t q side :: walk s (rows.drop (e + 1)) none none := by
  induction rows generalizing e last with
  | nil => exact absurd h.lt_length (by simp)
  | cons r rows ih =>
    rw [walk, resolveExit_eq]
    cases e with
    | zero =>
      obtain rfl : r = q := by simpa using hq
      have hside : engineSide s r = some side := h.hit
      rw [hside]
      exact congrArg _ (walk_none_last _)
    | succ e =>
      have hnone : engineSide s r = none := h.before 0 le_rfl (by omega)
      rw [hnone]
      refine ih r ⟨Nat.zero_le _, h.hit, fun k _ hk => ?_⟩ hq
      exact h.before (k + 1) (Nat.zero_le _) (by omega)

/-- It is held to the end of the data when no bar does. -/
theorem walk_hold (last : Row) (h : ∀ r ∈ rows, engineSide s r = none) :
    walk s rows (some t) (some last) = [scratchAt t (rows.getLastD last)] := by
  induction rows generalizing last with
  | nil => rfl
  | cons r rows ih =>
    rw [walk, resolveExit_eq, h r (by simp)]
    exact (ih r fun q hq => h q (by simp [hq])).trans (by rw [List.getLastD_cons])

/-- An open trade leaves at the first bar that reaches a level, or at the end of the data. -/
theorem walk_open (last : Row) : ∃ T rest, walk s rows (some t) (some last) = T :: rest ∧
    ((∃ e r side, FirstAt (engineSide s) rows 0 e side ∧ rows[e]? = some r ∧
        T = s.leave t r side) ∨
      (∀ e side, ¬ FirstAt (engineSide s) rows 0 e side) ∧
        T = scratchAt t (rows.getLastD last)) := by
  by_cases hhit : ∃ e side, FirstAt (engineSide s) rows 0 e side
  · obtain ⟨e, side, he⟩ := hhit
    obtain ⟨q, hq, -⟩ := Option.bind_eq_some_iff.mp he.hit
    exact ⟨_, _, walk_leave last he hq, .inl ⟨e, q, side, he, hq, rfl⟩⟩
  · have hnone : ∀ r ∈ rows, engineSide s r = none := by
      intro r hr
      by_contra hne
      obtain ⟨side, hside⟩ := Option.ne_none_iff_exists'.mp hne
      obtain ⟨k, hk⟩ := List.getElem?_of_mem hr
      have hbind : rows[k]?.bind (engineSide s) = some side := by rw [hk, Option.bind_some, hside]
      obtain ⟨e, side', he, -⟩ := FirstAt.exists_le hbind (Nat.zero_le k)
      exact hhit ⟨e, side', he⟩
    exact ⟨_, [], walk_hold last hnone, .inr ⟨fun e side h => hhit ⟨e, side, h⟩, rfl⟩⟩

/-- On bars that begin with a fill the first trade leaves at the first bar that reaches a level. -/
theorem walk_filled (hr : Covers r s.entryPrice) :
    ∃ T rest, walk s (r :: rows) none none = T :: rest ∧
      ((∃ e q side, FirstAt (engineSide s) (r :: rows) 0 e side ∧ (r :: rows)[e]? = some q ∧
          T = s.leave (s.enter r) q side) ∨
        (∀ e side, ¬ FirstAt (engineSide s) (r :: rows) 0 e side) ∧
          T = scratchAt (s.enter r) ((r :: rows).getLastD r)) := by
  rw [walk, if_pos hr]
  -- the fill bar is treated like a bar of a trade that is open already
  have hopen : ∃ T rest, walk s (r :: rows) (some (s.enter r)) (some r) = T :: rest ∧ _ := walk_open r
  rw [walk] at hopen
  exact hopen

theorem firstAt_drop : FirstAt (engineSide s) (rows.drop j) 0 e side ↔
    FirstAt (engineSide s) rows j (j + e) side := by
  constructor
  · rintro ⟨-, hhit, hbefore⟩
    rw [List.getElem?_drop] at hhit
    refine ⟨by omega, hhit, ?_⟩
    intro k hjk hk
    have := hbefore (k - j) (Nat.zero_le _) (by omega)
    rwa [List.getElem?_drop, Nat.add_sub_cancel' hjk] at this
  · rintro ⟨-, hhit, hbefore⟩
    refine ⟨Nat.zero_le _, by rwa [List.getElem?_drop], ?_⟩
    intro k _ hk
    rw [List.getElem?_drop]
    exact hbefore (j + k) (by omega) (by omega)

/-- How a trade filled at bar `j` ends: at the first bar from there on that reaches a level, or
at the last bar. -/
def Ends (s : Setup) (rows : List Row) (j : ℕ) (r : Row) (T : Trade) : Prop :=
  (∃ e q side, FirstAt (engineSide s) rows j e side ∧ rows[e]? = some q ∧
      T = s.leave (s.enter r) q side) ∨
    (∀ e side, ¬ FirstAt (engineSide s) rows j e side) ∧
      ∃ last, rows.getLast? = some last ∧ T = scratchAt (s.enter r) last

/-- The engine on the bars from a fill on. -/
theorem simulateTrades_filled (ho : s.Ordered) (hr : df.rows[j]? = some r)
    (hc : Covers r s.entryPrice) :
    ∃ T rest, simulateTrades (df.drop j) s = .ok (T :: rest) ∧ Ends s df.rows j r T := by
  obtain ⟨hj, hget⟩ := List.getElem?_eq_some_iff.mp hr
  have hdrop : df.rows.drop j = r :: df.rows.drop (j + 1) := by
    rw [List.drop_eq_getElem_cons hj, hget]
  obtain ⟨T, rest, hw, hT⟩ :
      ∃ T rest, walk s (r :: df.rows.drop (j + 1)) none none = T :: rest ∧ _ := walk_filled hc
  rw [← hdrop] at hw hT
  refine ⟨T, rest, ?_, ?_⟩
  · rw [simulateTrades_ordered ho]
    exact congrArg Except.ok hw
  · rcases hT with ⟨e, q, side, he, hq, hT⟩ | ⟨hnone, hT⟩
    · rw [List.getElem?_drop] at hq
      exact Or.inl ⟨j + e, q, side, firstAt_drop.mp he, hq, hT⟩
    · have hlast : df.rows.getLast? = some ((df.rows.drop (j + 1)).getLastD r) := by
        have hdropped := congrArg List.getLast? hdrop
        rwa [List.getLast?_drop, if_neg (not_le.mpr hj), List.getLast?_cons,
          ← List.getLastD_eq_getLast?] at hdropped
      rw [hdrop, List.getLastD_cons] at hT
      refine Or.inr ⟨?_, _, hlast, hT⟩
      intro e side h
      have hje := h.le
      refine hnone (e - j) side (firstAt_drop.mpr ?_)
      rwa [Nat.add_sub_cancel' hje]

/-- A trade is won, lost at the risk or scratched. -/
theorem Ends.cases (ho : s.Ordered) (h : Ends s rows j r T) :
    (T.result = .win ∧ 0 < T.rMultiple) ∨ (T.result = .loss ∧ T.rMultiple = -1) ∨
      (T.result = .scratch ∧ T.rMultiple = 0) := by
  rcases h with ⟨e, q, side, he, -, rfl⟩ | ⟨-, last, -, rfl⟩
  · obtain ⟨p, -, hp⟩ := Option.bind_eq_some_iff.mp he.hit
    cases side with
    | win => exact Or.inl ⟨rfl, by rw [ho.leave_win]; exact ho.reward_pos⟩
    | loss => exact Or.inr (Or.inl ⟨rfl, ho.leave_loss _⟩)
    | scratch => exact absurd rfl (engineSide_ne_scratch hp)
  · exact Or.inr (Or.inr ⟨rfl, rfl⟩)

/-- The bar at which a trade filled at bar `j` ends. -/
def ExitBar (s : Setup) (rows : List Row) (j e : ℕ) : Prop :=
  (∃ side, FirstAt (engineSide s) rows j e side) ∨
    (∀ e side, ¬ FirstAt (engineSide s) rows j e side) ∧ e + 1 = rows.length

/-- A trade carries the labels of its first and its last bar. -/
theorem Ends.times (h : Ends s rows j r T) : ∃ e q, ExitBar s rows j e ∧ rows[e]? = some q ∧
    T.entryTime = some r.index ∧ T.exitTime = some q.index := by
  rcases h with ⟨e, q, side, he, hq, rfl⟩ | ⟨hnone, last, hlast, rfl⟩
  · exact ⟨e, q, Or.inl ⟨side, he⟩, hq, rfl, rfl⟩
  · rw [List.getLast?_eq_getElem?] at hlast
    have hlen := (List.getElem?_eq_some_iff.mp hlast).1
    exact ⟨rows.length - 1, last, Or.inr ⟨hnone, by omega⟩, hlast, rfl, rfl⟩

theorem ExitBar.unique (h : ExitBar s rows j e) {e' : ℕ} (h' : ExitBar s rows j e') : e = e' := by
  rcases h with ⟨side, h⟩ | ⟨hnone, hlast⟩
  · rcases h' with ⟨side', h'⟩ | ⟨hnone, -⟩
    · exact (h.unique h').1
    · exact absurd h (hnone e side)
  · rcases h' with ⟨side', h'⟩ | ⟨-, hlast'⟩
    · exact absurd h' (hnone e' side')
    · omega

/-- A setup whose first trade ends on a side; a scratch is one that reaches no level. -/
def EndsOn (s : Setup) (df : Frame) (side : TradeResult) : Prop :=
  s.Ordered ∧ ∃ j, FirstAt (fillAt s.entryPrice) df.rows 0 j () ∧
    if side = .scratch then ∀ e d, ¬ FirstAt (engineSide s) df.rows j e d
    else ∃ e, FirstAt (engineSide s) df.rows j e side

/-- Bars that do not reach the entry are passed over. -/
theorem walk_skip (last : Option Row) (h : ∀ r ∈ rows.take j, ¬ Covers r s.entryPrice)
    (hj : j < rows.length) : walk s rows none last = walk s (rows.drop j) none none := by
  induction rows generalizing j last with
  | nil => simp at hj
  | cons r rows ih =>
    cases j with
    | zero => rw [List.drop_zero, walk, walk]
    | succ j =>
      have hr : ¬ Covers r s.entryPrice := h r (by simp)
      rw [walk, if_neg hr, List.drop_succ_cons]
      refine ih _ ?_ (by simpa using hj)
      intro q hq
      exact h q (by simp [hq])

theorem covers_of_fillAt (h : rows[j]?.bind (fillAt s.entryPrice) = some ()) :
    ∃ r, rows[j]? = some r ∧ Covers r s.entryPrice := by
  obtain ⟨r, hr, hf⟩ := Option.bind_eq_some_iff.mp h
  refine ⟨r, hr, ?_⟩
  by_contra hne
  rw [fillAt, if_neg hne] at hf
  cases hf

/-- The first trade of the engine is filled at the first bar that reaches the entry. -/
theorem simulateTrades_first (ho : s.Ordered)
    (hj : FirstAt (fillAt s.entryPrice) df.rows 0 j ()) :
    ∃ r T rest, df.rows[j]? = some r ∧ simulateTrades df s = .ok (T :: rest) ∧
      Ends s df.rows j r T := by
  obtain ⟨r, hr, hc⟩ := covers_of_fillAt hj.hit
  obtain ⟨T, rest, hsim, hT⟩ := simulateTrades_filled ho hr hc
  refine ⟨r, T, rest, hr, ?_, hT⟩
  have hskip : ∀ q ∈ df.rows.take j, ¬ Covers q s.entryPrice := by
    intro q hq hcov
    obtain ⟨k, hk⟩ := List.getElem?_of_mem hq
    rw [List.getElem?_take] at hk
    split_ifs at hk with hkj
    have := hj.before k (Nat.zero_le _) hkj
    rw [hk, Option.bind_some, fillAt, if_pos hcov] at this
    cases this
  rw [simulateTrades_ordered ho] at hsim ⊢
  rw [walk_skip none hskip hj.lt_length]
  exact hsim

/-- Without levels on their sides the engine trades nothing. -/
theorem simulateTrades_unordered (ho : ¬ s.Ordered) : simulateTrades df s ≠ .ok (T :: rest) := by
  intro h
  unfold simulateTrades at h
  unfold Setup.Ordered at ho
  by_cases hl : s.direction = .long
  · rw [if_pos hl, not_and_or, not_lt, not_lt] at ho
    simp only [if_pos hl, if_pos ho] at h
    split_ifs at h
    cases h
  · rw [if_neg hl, not_and_or, not_lt, not_lt] at ho
    simp only [if_neg hl, if_pos ho] at h
    split_ifs at h
    cases h

/-- A first trade was filled. -/
theorem filled_of_simulateTrades (h : simulateTrades df s = .ok (T :: rest)) :
    s.Ordered ∧ ∃ j, FirstAt (fillAt s.entryPrice) df.rows 0 j () := by
  have ho : s.Ordered := by
    by_contra hne
    exact simulateTrades_unordered hne h
  refine ⟨ho, ?_⟩
  have hcov : ∃ r ∈ df.rows, Covers r s.entryPrice := by
    by_contra hnone
    push Not at hnone
    rw [simulateTrades_ordered ho, (walk_eq_nil_iff none).mpr hnone] at h
    cases h
  obtain ⟨r, hr, hcov⟩ := hcov
  obtain ⟨i, hi⟩ := List.getElem?_of_mem hr
  have hhit : df.rows[i]?.bind (fillAt s.entryPrice) = some () := by
    rw [hi, Option.bind_some, fillAt, if_pos hcov]
  obtain ⟨j, u, hj, -⟩ := FirstAt.exists_le hhit (Nat.zero_le i)
  exact ⟨j, hj⟩

/-- The side of the first trade. -/
theorem endsOn_iff : EndsOn s df side ↔
    ∃ T rest, simulateTrades df s = .ok (T :: rest) ∧ T.result = side := by
  constructor
  · rintro ⟨ho, j, hj, hside⟩
    obtain ⟨r, T, rest, -, hsim, hends⟩ := simulateTrades_first ho hj
    refine ⟨T, rest, hsim, ?_⟩
    rcases hends with ⟨e, q, d, he, -, rfl⟩ | ⟨hnone, last, -, rfl⟩
    · split_ifs at hside with hs
      · exact absurd he (hside e d)
      · obtain ⟨e', he'⟩ := hside
        exact (he.unique he').2
    · split_ifs at hside with hs
      · exact hs.symm
      · obtain ⟨e', he'⟩ := hside
        exact absurd he' (hnone e' side)
  · rintro ⟨T, rest, hsim, rfl⟩
    obtain ⟨ho, j, hj⟩ := filled_of_simulateTrades hsim
    obtain ⟨r, T', rest', -, hsim', hends⟩ := simulateTrades_first ho hj
    obtain ⟨rfl, -⟩ := List.cons.inj (Except.ok.inj (hsim'.symm.trans hsim))
    refine ⟨ho, j, hj, ?_⟩
    rcases hends with ⟨e, q, d, he, -, rfl⟩ | ⟨hnone, last, -, rfl⟩
    · obtain ⟨p, -, hp⟩ := Option.bind_eq_some_iff.mp he.hit
      have hne : (s.leave (s.enter r) q d).result ≠ .scratch := engineSide_ne_scratch hp
      rw [if_neg hne]
      exact ⟨e, he⟩
    · exact (if_pos rfl).mpr hnone

end Pyharmonics.Backtest
