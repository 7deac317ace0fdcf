import Pyharmonics.FirstTrade

/-! The trades of the backtest engine as a greedy scan of the bars. -/
namespace Pyharmonics.Backtest

open Firsts

variable {s : Setup} {r q : Row} {rows : List Row} {t T : Trade} {trades : List Trade} {df : Frame}
  {side : TradeResult} {p i j e : ℕ}

/-- The bars of a trade, by their positions, and how it ends. -/
structure Span where
  entry : ℕ
  exit : ℕ
  result : TradeResult
  deriving DecidableEq

variable {x y : Span} {xs ys : List Span}

def TouchesStop (s : Setup) (r : Row) : Prop :=
  if s.direction = .long then r.low ≤ s.stopLoss else s.stopLoss ≤ r.high

def TouchesTarget (s : Setup) (r : Row) : Prop :=
  if s.direction = .long then s.targetPrice ≤ r.high else r.low ≤ s.targetPrice

def Setup.risk (s : Setup) : ℚ := |s.entryPrice - s.stopLoss|

def Setup.reward (s : Setup) : ℚ := |s.targetPrice - s.entryPrice|

/-- The side a bar is left on: of two levels the nearer one, the stop when both are as near. -/
def LeavesOn (s : Setup) (r : Row) : TradeResult → Prop
  | .loss => TouchesStop s r ∧ (TouchesTarget s r → s.risk ≤ s.reward)
  | .win => TouchesTarget s r ∧ (TouchesStop s r → s.reward < s.risk)
  | .scratch => False

def Untouched (s : Setup) (r : Row) : Prop := ¬ TouchesStop s r ∧ ¬ TouchesTarget s r

/-- A trade ends on the first bar from its entry on that touches a level, or on the last bar. -/
structure EndsSpan (s : Setup) (rows : List Row) (x : Span) : Prop where
  le : x.entry ≤ x.exit
  before : ∀ k q, x.entry ≤ k → k < x.exit → rows[k]? = some q → Untouched s q
  last : ∃ q, rows[x.exit]? = some q ∧ (LeavesOn s q x.result ∨
    x.result = .scratch ∧ Untouched s q ∧ x.exit + 1 = rows.length)

/-- From bar `p` on, a trade starts on every bar that covers the entry while none is open. -/
structure GreedyFrom (s : Setup) (rows : List Row) (p : ℕ) (xs : List Span) : Prop where
  starts : ∀ x ∈ xs, p ≤ x.entry ∧ ∃ r, rows[x.entry]? = some r ∧ Covers r s.entryPrice
  ends : ∀ x ∈ xs, EndsSpan s rows x
  apart : xs.Pairwise fun x y => x.exit < y.entry
  covered : ∀ k r, p ≤ k → rows[k]? = some r → Covers r s.entryPrice →
    ∃ x ∈ xs, x.entry ≤ k ∧ k ≤ x.exit

/-- The trade of a span. -/
def Setup.tradeOf (s : Setup) (r q : Row) (result : TradeResult) : Trade :=
  { direction := s.direction, entryPrice := s.entryPrice, stopLoss := s.stopLoss
    targetPrice := s.targetPrice
    exitPrice := match result with
      | .win => s.targetPrice
      | .loss => s.stopLoss
      | .scratch => q.close
    result := result
    rMultiple := match result with
      | .win => s.reward / s.risk
      | .loss => -1
      | .scratch => 0
    entryTime := some r.index
    exitTime := some q.index }

def Realizes (s : Setup) (rows : List Row) (x : Span) (t : Trade) : Prop :=
  ∃ r q, rows[x.entry]? = some r ∧ rows[x.exit]? = some q ∧ t = s.tradeOf r q x.result

theorem Setup.Ordered.risk_eq (ho : s.Ordered) : s.risk =
    if s.direction = .long then s.entryPrice - s.stopLoss else s.stopLoss - s.entryPrice := by
  unfold Setup.Ordered at ho
  unfold Setup.risk
  split_ifs at ho ⊢
  · exact abs_of_pos (by linarith [ho.1])
  · rw [abs_sub_comm]
    exact abs_of_pos (by linarith [ho.1])

theorem Setup.Ordered.reward_eq (ho : s.Ordered) : s.reward =
    if s.direction = .long then s.targetPrice - s.entryPrice
    else s.entryPrice - s.targetPrice := by
  unfold Setup.Ordered at ho
  unfold Setup.reward
  split_ifs at ho ⊢
  · exact abs_of_pos (by linarith [ho.2])
  · rw [abs_sub_comm]
    exact abs_of_pos (by linarith [ho.2])

/-- The side of `_resolve_exit` is the one asked for. -/
theorem leavesOn_iff (ho : s.Ordered) : engineSide s r = some side ↔ LeavesOn s r side := by
  have hrisk := ho.risk_eq
  have hreward := ho.reward_eq
  unfold engineSide resolveExit
  by_cases hl : s.direction = .long
  · rw [if_pos hl] at hrisk hreward
    simp only [if_pos hl, ← hrisk, ← hreward]
    clear hrisk hreward
    cases side <;> simp only [LeavesOn, TouchesStop, TouchesTarget, if_pos hl] <;>
      split_ifs <;> simp_all
  · rw [if_neg hl] at hrisk hreward
    simp only [if_neg hl, ← hrisk, ← hreward]
    clear hrisk hreward
    cases side <;> simp only [LeavesOn, TouchesStop, TouchesTarget, if_neg hl] <;>
      split_ifs <;> simp_all

theorem untouched_iff : engineSide s r = none ↔ Untouched s r := by
  unfold engineSide resolveExit Untouched TouchesStop TouchesTarget
  by_cases hl : s.direction = .long
  · simp only [if_pos hl]
    split_ifs <;> simp_all
  · simp only [if_neg hl]
    split_ifs <;> simp_all

theorem leave_eq (ho : s.Ordered) (hside : side ≠ .scratch) :
    s.leave (s.enter r) q side = s.tradeOf r q side := by
  cases side with
  | win =>
    have hmultiple : (s.leave (s.enter r) q .win).rMultiple = s.reward / s.risk := ho.leave_win _
    unfold Setup.tradeOf
    rw [← hmultiple]
    rfl
  | loss =>
    have hmultiple : (s.leave (s.enter r) q .loss).rMultiple = -1 := ho.leave_loss _
    unfold Setup.tradeOf
    rw [← hmultiple]
    rfl
  | scratch => exact absurd rfl hside

/-- A trade from bar `i` on, the rest of the walk after its last bar. -/
theorem walk_span (ho : s.Ordered) (hr : rows[i]? = some r) (hc : Covers r s.entryPrice) :
    ∃ x t, x.entry = i ∧ EndsSpan s rows x ∧ Realizes s rows x t ∧
      walk s (rows.drop i) none none = t :: walk s (rows.drop (x.exit + 1)) none none := by
  obtain ⟨hi, hget⟩ := List.getElem?_eq_some_iff.mp hr
  have hdrop : rows.drop i = r :: rows.drop (i + 1) := by
    rw [List.drop_eq_getElem_cons hi, hget]
  -- the fill bar is treated like a bar of a trade that is open already
  have hopen : walk s (rows.drop i) none none =
      walk s (rows.drop i) (some (s.enter r)) (some r) := by
    rw [hdrop, walk, if_pos hc, walk]
  by_cases hhit : ∃ k side, rows[k]?.bind (engineSide s) = some side ∧ i ≤ k
  · obtain ⟨k, side, hk, hik⟩ := hhit
    obtain ⟨e, side, he, -⟩ := FirstAt.exists_le hk hik
    obtain ⟨q, hq, hside⟩ := Option.bind_eq_some_iff.mp he.hit
    have hie := he.le
    have hfirst : FirstAt (engineSide s) (rows.drop i) 0 (e - i) side := by
      rw [firstAt_drop, Nat.add_sub_cancel' hie]
      exact he
    refine ⟨⟨i, e, side⟩, s.tradeOf r q side, rfl, ⟨hie, ?_, q, hq, .inl ?_⟩,
      ⟨r, q, hr, hq, rfl⟩, ?_⟩
    · intro k q hik hke hq
      have hbefore := he.before k hik hke
      rw [hq, Option.bind_some] at hbefore
      exact untouched_iff.mp hbefore
    · exact (leavesOn_iff ho).mp hside
    · rw [hopen, walk_leave r hfirst (by rw [List.getElem?_drop, Nat.add_sub_cancel' hie, hq]),
        leave_eq ho (engineSide_ne_scratch hside), List.drop_drop,
        show i + (e - i + 1) = e + 1 by omega]
  · have hnone : ∀ k q, i ≤ k → rows[k]? = some q → engineSide s q = none := by
      intro k q hik hq
      by_contra hne
      obtain ⟨side, hside⟩ := Option.ne_none_iff_exists'.mp hne
      exact hhit ⟨k, side, by rw [hq, Option.bind_some, hside], hik⟩
    have hlen : rows.length - 1 < rows.length := by omega
    refine ⟨⟨i, rows.length - 1, .scratch⟩, s.tradeOf r rows[rows.length - 1] .scratch, rfl,
      ⟨by simp only; omega, ?_, _, List.getElem?_eq_getElem hlen, .inr ⟨rfl, ?_, ?_⟩⟩,
      ⟨r, _, hr, List.getElem?_eq_getElem hlen, rfl⟩, ?_⟩
    · intro k q hik _ hq
      exact untouched_iff.mp (hnone k q hik hq)
    · exact untouched_iff.mp (hnone _ _ (by omega) (List.getElem?_eq_getElem hlen))
    · simp only
      omega
    · have hlast : (rows.drop i).getLastD r = rows[rows.length - 1] := by
        rw [List.getLastD_eq_getLast?, List.getLast?_drop, if_neg (not_le.mpr hi),
          List.getLast?_eq_getElem?, List.getElem?_eq_getElem hlen, Option.getD_some]
      have hend : rows.drop (rows.length - 1 + 1) = [] := List.drop_eq_nil_of_le (by omega)
      rw [hopen, walk_hold, hlast, hend]
      · rfl
      · intro q hq
        obtain ⟨k, hk⟩ := List.getElem?_of_mem hq
        rw [List.getElem?_drop] at hk
        exact hnone _ q (by omega) hk

theorem fillAt_eq_none : fillAt s.entryPrice r = none ↔ ¬ Covers r s.entryPrice := by
  unfold fillAt
  split_ifs with h <;> simp [h]

/-- A scan goes on behind its first span. -/
theorem GreedyFrom.cons (hp : p ≤ x.entry) (hr : rows[x.entry]? = some r)
    (hc : Covers r s.entryPrice) (hends : EndsSpan s rows x)
    (hbefore : ∀ k q, p ≤ k → k < x.entry → rows[k]? = some q → ¬ Covers q s.entryPrice)
    (h : GreedyFrom s rows (x.exit + 1) xs) : GreedyFrom s rows p (x :: xs) where
  starts := by
    have hle := hends.le
    rintro y (_ | ⟨_, hy⟩)
    · exact ⟨hp, r, hr, hc⟩
    · obtain ⟨hfrom, hcover⟩ := h.starts y hy
      exact ⟨by omega, hcover⟩
  ends := List.forall_mem_cons.mpr ⟨hends, h.ends⟩
  apart := List.pairwise_cons.mpr ⟨fun y hy => (h.starts y hy).1, h.apart⟩
  covered := by
    intro k q hk hq hcov
    rcases lt_or_ge k x.entry with hlt | hge
    · exact absurd hcov (hbefore k q hk hlt hq)
    · rcases Nat.lt_or_ge x.exit k with hlt | hle
      · obtain ⟨y, hy, hin⟩ := h.covered k q hlt hq hcov
        exact ⟨y, List.mem_cons_of_mem _ hy, hin⟩
      · exact ⟨x, List.mem_cons_self, hge, hle⟩

/-- The walk from a bar on is a greedy scan. -/
theorem walk_greedy (ho : s.Ordered) (p : ℕ) : ∃ xs, GreedyFrom s rows p xs ∧
    List.Forall₂ (Realizes s rows) xs (walk s (rows.drop p) none none) := by
  induction hn : rows.length - p using Nat.strong_induction_on generalizing p with
  | _ n ih =>
    by_cases hfill : ∃ k, rows[k]?.bind (fillAt s.entryPrice) = some () ∧ p ≤ k
    · obtain ⟨k, hk, hpk⟩ := hfill
      obtain ⟨i, u, hi, -⟩ := FirstAt.exists_le hk hpk
      have hpi := hi.le
      have hlt := hi.lt_length
      obtain ⟨r, hr, hc⟩ := covers_of_fillAt hi.hit
      obtain ⟨x, t, rfl, hends, ht, hwalk⟩ := walk_span ho hr hc
      have hle := hends.le
      obtain ⟨xs, hxs, htrades⟩ := ih _ (by omega) (x.exit + 1) rfl
      have hbefore : ∀ k q, p ≤ k → k < x.entry → rows[k]? = some q → ¬ Covers q s.entryPrice := by
        intro k q hpk hkx hq
        have := hi.before k hpk hkx
        rw [hq, Option.bind_some] at this
        exact fillAt_eq_none.mp this
      refine ⟨x :: xs, .cons hpi hr hc hends hbefore hxs, ?_⟩
      have hskip : walk s (rows.drop p) none none = walk s (rows.drop x.entry) none none := by
        have hshift : x.entry = p + (x.entry - p) := by omega
        conv_rhs => rw [hshift, ← List.drop_drop]
        refine walk_skip none ?_ (by rw [List.length_drop]; omega)
        intro q hq
        obtain ⟨k, hk⟩ := List.getElem?_of_mem hq
        rw [List.getElem?_take, List.getElem?_drop] at hk
        split_ifs at hk with hkx
        exact hbefore (p + k) q (by omega) (by omega) hk
      rw [hskip, hwalk]
      exact .cons ht htrades
    · have hnone : ∀ k r, p ≤ k → rows[k]? = some r → ¬ Covers r s.entryPrice := by
        intro k r hpk hr hc
        exact hfill ⟨k, by rw [hr, Option.bind_some, fillAt, if_pos hc], hpk⟩
      refine ⟨[], ⟨fun x hx => absurd hx List.not_mem_nil, fun x hx => absurd hx List.not_mem_nil,
        List.Pairwise.nil, ?_⟩, ?_⟩
      · intro k r hpk hr hc
        exact absurd hc (hnone k r hpk hr)
      · rw [(walk_eq_nil_iff none).mpr]
        · exact .nil
        · intro r hr
          obtain ⟨k, hk⟩ := List.getElem?_of_mem hr
          rw [List.getElem?_drop] at hk
          exact hnone _ r (by omega) hk

theorem LeavesOn.touched (ho : s.Ordered) (h : LeavesOn s r side) : ¬ Untouched s r := by
  rw [← untouched_iff, (leavesOn_iff ho).mpr h]
  nofun

theorem EndsSpan.exit_le (h : EndsSpan s rows x) (h' : EndsSpan s rows y) (ho : s.Ordered)
    (hentry : x.entry = y.entry) : y.exit ≤ x.exit := by
  by_contra hlt
  have hle := h.le
  obtain ⟨q, hq, hlast⟩ := h.last
  have huntouched := h'.before x.exit q (by omega) (by omega) hq
  rcases hlast with hleaves | ⟨-, -, hend⟩
  · exact hleaves.touched ho huntouched
  · obtain ⟨q', hq', -⟩ := h'.last
    have := (List.getElem?_eq_some_iff.mp hq').1
    omega

/-- The bar and the side on which a span ends follow from its entry. -/
theorem EndsSpan.unique (h : EndsSpan s rows x) (h' : EndsSpan s rows y) (ho : s.Ordered)
    (hentry : x.entry = y.entry) : x = y := by
  obtain ⟨entry, exit, result⟩ := x
  obtain ⟨entry', exit', result'⟩ := y
  obtain rfl : entry = entry' := hentry
  obtain rfl : exit = exit' := le_antisymm (h'.exit_le h ho rfl) (h.exit_le h' ho rfl)
  obtain ⟨q, hq, hlast⟩ := h.last
  obtain ⟨q', hq', hlast'⟩ := h'.last
  obtain rfl : q = q' := Option.some.inj (hq.symm.trans hq')
  rcases hlast with hl | ⟨hs, hu, -⟩ <;> rcases hlast' with hl' | ⟨hs', hu', -⟩
  · have hside := ((leavesOn_iff ho).mpr hl).symm.trans ((leavesOn_iff ho).mpr hl')
    rw [Option.some.injEq] at hside
    subst hside
    rfl
  · exact absurd hu' (hl.touched ho)
  · exact absurd hu (hl'.touched ho)
  · dsimp only at hs hs'
    rw [hs, hs']

/-- The first span starts at the first bar that covers the entry. -/
theorem GreedyFrom.head_le (h : GreedyFrom s rows p (x :: xs)) {k : ℕ} (hpk : p ≤ k)
    (hr : rows[k]? = some r) (hc : Covers r s.entryPrice) : x.entry ≤ k := by
  obtain ⟨y, hy, hle, -⟩ := h.covered k r hpk hr hc
  have hx := (h.ends x (by simp)).le
  rcases List.mem_cons.mp hy with rfl | hy
  · exact hle
  · have := (List.pairwise_cons.mp h.apart).1 y hy
    omega

theorem GreedyFrom.tail (h : GreedyFrom s rows p (x :: xs)) :
    GreedyFrom s rows (x.exit + 1) xs where
  starts := fun y hy =>
    ⟨(List.pairwise_cons.mp h.apart).1 y hy, (h.starts y (List.mem_cons_of_mem _ hy)).2⟩
  ends := fun y hy => h.ends y (List.mem_cons_of_mem _ hy)
  apart := (List.pairwise_cons.mp h.apart).2
  covered := by
    intro k r hk hr hc
    have hx := (h.ends x (by simp)).le
    have hp := (h.starts x (by simp)).1
    obtain ⟨y, hy, hle, hge⟩ := h.covered k r (by omega) hr hc
    rcases List.mem_cons.mp hy with rfl | hy
    · omega
    · exact ⟨y, hy, hle, hge⟩

/-- Two greedy scans from one bar on have the same spans. -/
theorem GreedyFrom.unique (ho : s.Ordered) (h : GreedyFrom s rows p xs)
    (h' : GreedyFrom s rows p ys) : xs = ys := by
  induction xs generalizing p ys with
  | nil =>
    cases ys with
    | nil => rfl
    | cons y ys =>
      obtain ⟨hp, r, hr, hc⟩ := h'.starts y (by simp)
      obtain ⟨x, hx, -⟩ := h.covered _ r hp hr hc
      cases hx
  | cons x xs ih =>
    obtain ⟨hp, r, hr, hc⟩ := h.starts x (by simp)
    cases ys with
    | nil =>
      obtain ⟨y, hy, -⟩ := h'.covered _ r hp hr hc
      cases hy
    | cons y ys =>
      obtain ⟨hp', r', hr', hc'⟩ := h'.starts y (by simp)
      have hentry : x.entry = y.entry := le_antisymm (h.head_le hp' hr' hc') (h'.head_le hp hr hc)
      obtain rfl := (h.ends x (by simp)).unique (h'.ends y (by simp)) ho hentry
      rw [ih h.tail h'.tail]

theorem Realizes.unique {t' : Trade} (h : Realizes s rows x t) (h' : Realizes s rows x t') :
    t = t' := by
  obtain ⟨r, q, hr, hq, rfl⟩ := h
  obtain ⟨r', q', hr', hq', rfl⟩ := h'
  obtain rfl := Option.some.inj (hr.symm.trans hr')
  obtain rfl := Option.some.inj (hq.symm.trans hq')
  rfl

theorem realizes_unique {ts : List Trade} (h : List.Forall₂ (Realizes s rows) xs trades)
    (h' : List.Forall₂ (Realizes s rows) xs ts) : trades = ts := by
  induction h generalizing ts with
  | nil =>
    cases h'
    rfl
  | cons ht _ ih =>
    cases h' with
    | cons ht' h' => rw [ht.unique ht', ih h']

/-- Behind a trade that runs to the end of the data there is no bar for another. -/
theorem GreedyFrom.last_scratch (h : GreedyFrom s rows p xs) :
    ∀ x ∈ xs.dropLast, x.result ≠ .scratch := by
  induction xs generalizing p with
  | nil => nofun
  | cons x xs ih =>
    cases xs with
    | nil => nofun
    | cons y ys =>
      rw [List.dropLast_cons_cons]
      rintro z (_ | ⟨_, hz⟩)
      · intro hscratch
        obtain ⟨q, -, hleaves | ⟨-, -, hend⟩⟩ := (h.ends x (by simp)).last
        · rw [hscratch] at hleaves
          exact hleaves
        · obtain ⟨-, r, hr, -⟩ := h.starts y (by simp)
          have hlt := (List.getElem?_eq_some_iff.mp hr).1
          have hxy := (List.pairwise_cons.mp h.apart).1 y (by simp)
          omega
      · exact ih h.tail z hz

theorem map_result (h : List.Forall₂ (Realizes s rows) xs trades) :
    trades.map Trade.result = xs.map Span.result := by
  induction h with
  | nil => rfl
  | cons ht _ ih =>
    obtain ⟨r, q, -, -, rfl⟩ := ht
    rw [List.map_cons, List.map_cons, ih]
    rfl

/-- The trades are those of the greedy scan of the bars, and only the last one can be a scratch. -/
theorem simulateTrades_greedy_iff (ho : s.Ordered) :
    (∀ trades, simulateTrades df s = .ok trades ↔
      ∃ xs, GreedyFrom s df.rows 0 xs ∧ List.Forall₂ (Realizes s df.rows) xs trades) ∧
    ∀ trades, simulateTrades df s = .ok trades → ∀ t ∈ trades.dropLast, t.result ≠ .scratch := by
  obtain ⟨xs, hxs, hwalk⟩ := @walk_greedy s df.rows ho 0
  rw [List.drop_zero] at hwalk
  refine ⟨fun trades => ?_, fun trades htrades t ht => ?_⟩
  · rw [simulateTrades_ordered ho, Except.ok.injEq]
    constructor
    · rintro rfl
      exact ⟨xs, hxs, hwalk⟩
    · rintro ⟨ys, hys, htrades⟩
      obtain rfl := hxs.unique ho hys
      exact realizes_unique hwalk htrades
  · rw [simulateTrades_ordered ho, Except.ok.injEq] at htrades
    subst htrades
    have hmem := List.mem_map_of_mem (f := Trade.result) ht
    rw [List.map_dropLast, map_result hwalk, ← List.map_dropLast] at hmem
    obtain ⟨x, hx, hresult⟩ := List.mem_map.mp hmem
    rw [← hresult]
    exact hxs.last_scratch x hx

/-! Four bars: one of a win, two of a loss, and a fill that no level ends. -/

def priceBar (low high : ℚ) (label : ℤ) : Row :=
  { openPrice := low, high := high, low := low, close := high, volume := 1, closeTime := label
    dts := label, index := label }

def priceBars : List Row :=
  [priceBar 99 104 0, priceBar 99 101 60, priceBar 97 100 120, priceBar 100 101 180]

def longSetup : Setup :=
  { direction := .long, entryPrice := 100, stopLoss := 98, targetPrice := 104 }

theorem simulateTrades_greedy_iff_long : longSetup.Ordered ∧
    ∃ xs, GreedyFrom longSetup priceBars 0 xs ∧ xs.map Span.result = [.win, .loss, .scratch] := by
  have ho : longSetup.Ordered := by decide +kernel
  have hsim := (@simulateTrades_greedy_iff longSetup (frameOf priceBars) ho).1
  refine ⟨ho, ?_⟩
  obtain ⟨xs, hxs, htrades⟩ := (hsim _).mp (simulateTrades_ordered ho)
  refine ⟨xs, hxs, ?_⟩
  rw [← map_result htrades]
  decide +kernel

end Pyharmonics.Backtest
