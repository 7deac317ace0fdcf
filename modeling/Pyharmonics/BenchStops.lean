import Pyharmonics.BenchPaths

/-! The stop flag of the trade metrics beside the trade it is about. -/
namespace Pyharmonics.Bench

open Backtest Firsts

variable {forward : Frame} {rec rec' : SignalRecord} {s : Setup} {T : Trade} {rest : List Trade}
  {zone : ℚ × ℚ} {held : HeldBars} {bars : List (Row × ℕ)} {rows : List Row} {r : Row} {tp : ℚ}
  {tp1 : Option ℚ} {i j e p₁ p₂ : ℕ}

/-- The bar reaches the stop. -/
def ReachesStop (s : Setup) (r : Row) : Prop :=
  if s.direction = .long then r.low ≤ s.stopLoss else s.stopLoss ≤ r.high

/-- The bar reaches the target. -/
def ReachesTarget (s : Setup) (r : Row) : Prop :=
  if s.direction = .long then s.targetPrice ≤ r.high else r.low ≤ s.targetPrice

/-- Some bar reaches the stop and none the target. -/
def StopOnly (s : Setup) (rows : List Row) : Prop :=
  (∃ r ∈ rows, ReachesStop s r) ∧ ∀ r ∈ rows, ¬ ReachesTarget s r

/-! The walk over the held bars. -/

theorem next_free {b : Row × ℕ} : (held.next s zone b).hitTarget = false ↔
    held.hitTarget = false ∧ ¬ ReachesTarget s b.1 := by
  unfold HeldBars.next ReachesTarget
  by_cases hl : s.direction = .long <;> simp [hl]

theorem next_hitStop {b : Row × ℕ} (hfree : held.hitTarget = false) :
    (held.next s zone b).hitStop = true ↔ held.hitStop = true ∨ ReachesStop s b.1 := by
  unfold HeldBars.next ReachesStop
  by_cases hl : s.direction = .long <;> simp [hl, hfree]

theorem foldl_free : (bars.foldl (HeldBars.next s zone) held).hitTarget = false ↔
    held.hitTarget = false ∧ ∀ b ∈ bars, ¬ ReachesTarget s b.1 := by
  induction bars generalizing held with
  | nil => simp
  | cons b bars ih => rw [List.foldl_cons, ih, next_free, List.forall_mem_cons, and_assoc]

/-- As long as no bar reaches the target, the stop flag is raised by any bar that reaches the
stop. -/
theorem foldl_hitStop (hfree : (bars.foldl (HeldBars.next s zone) held).hitTarget = false) :
    (bars.foldl (HeldBars.next s zone) held).hitStop = true ↔
      held.hitStop = true ∨ ∃ b ∈ bars, ReachesStop s b.1 := by
  induction bars generalizing held with
  | nil => simp
  | cons b bars ih =>
    rw [List.foldl_cons] at hfree ⊢
    have hheld : held.hitTarget = false := (next_free.mp (foldl_free.mp hfree).1).1
    rw [ih hfree, next_hitStop hheld, List.exists_mem_cons_iff, or_assoc]

/-- The stop flag of the metrics: some held bar reached the stop, and none the target. -/
theorem computeTradeMetrics_hitStop {df : Frame} {atr : ℚ} {m : TradeMetrics}
    (h : computeTradeMetrics df s atr = .ok m) :
    m.hitStopBeforeTp = true ↔ StopOnly s df.rows := by
  obtain ⟨_, -, h⟩ := bind_ok.mp h
  obtain ⟨_, -, h⟩ := bind_ok.mp h
  obtain ⟨_, -, h⟩ := bind_ok.mp h
  obtain ⟨_, -, h⟩ := bind_ok.mp h
  obtain ⟨_, -, h⟩ := bind_ok.mp h
  obtain rfl := Except.ok.inj h
  generalize hzone : (s.stopLoss - atr * (1 / 10), s.stopLoss + atr * (1 / 10)) = zone
  have hrows : ∀ r, r ∈ df.rows ↔ ∃ b ∈ df.rows.zipIdx, b.1 = r := by
    intro r
    conv_lhs => rw [← List.zipIdx_map_fst 0 df.rows]
    exact List.mem_map
  have hfree : (df.rows.zipIdx.foldl (HeldBars.next s zone) {}).hitTarget = false ↔
      ∀ r ∈ df.rows, ¬ ReachesTarget s r := by
    rw [foldl_free, and_iff_right rfl]
    simp only [hrows, forall_exists_index, and_imp, forall_apply_eq_imp_iff₂]
  have hstop : (∃ b ∈ df.rows.zipIdx, ReachesStop s b.1) ↔ ∃ r ∈ df.rows, ReachesStop s r := by
    simp only [hrows, exists_exists_and_eq_and]
  simp only [Bool.and_eq_true, Bool.not_eq_true']
  unfold StopOnly
  rw [← hfree]
  refine and_congr_left fun hf => ?_
  rw [foldl_hitStop hf, or_iff_right (by decide), hstop]

/-! The backtest stage. -/

theorem applyTradeMetrics_hitStop {df : Frame} (htp : rec.tp1 = some tp)
    (h : applyTradeMetrics rec df = .ok rec') : rec'.tp1 = some tp ∧
      (rec'.hitStopBeforeTp = some true ↔ StopOnly (rec.setup tp) df.rows) := by
  unfold applyTradeMetrics at h
  simp only [htp] at h
  obtain ⟨m, hm, h⟩ := bind_ok.mp h
  obtain rfl := Except.ok.inj h
  exact ⟨rfl, Option.some_inj.trans (computeTradeMetrics_hitStop hm)⟩

/-- The record keeps its own target, and takes the one asked for where it has none. -/
theorem exists_own {mine : Option ℚ} (h : tp1.or mine = some tp) :
    ∃ own, mine.or (some tp) = some own ∧ mine.or tp1 = some own := by
  cases mine with
  | none => exact ⟨tp, rfl, (Option.or_none.symm.trans h : tp1 = some tp)⟩
  | some own => exact ⟨own, rfl, rfl⟩

/-- Where both are given and agree, the trade is on the record's target. -/
theorem own_eq {mine : Option ℚ} {own : ℚ} (htarget : tp1.or mine = some tp)
    (hown : mine.or tp1 = some own) (hsame : ∀ given ∈ tp1, ∀ target ∈ mine, given = target) :
    tp = own := by
  cases tp1 with
  | none =>
    rw [Option.or_none] at hown
    exact Option.some.inj (htarget.symm.trans hown)
  | some given =>
    obtain rfl := Option.some.inj htarget
    cases mine with
    | none => exact Option.some.inj hown
    | some target => exact (hsame given rfl target rfl).trans (Option.some.inj hown)

/-- What the stage did on its way to a trade: the trade is on the target asked for, the metrics are
on the record's own. -/
theorem stage2Backtest_inv (h : stage2Backtest rec forward tp1 = .ok (rec', some T)) :
    ∃ target own rest p₁ p₂, tp1.or rec.tp1 = some target ∧ rec.tp1.or tp1 = some own ∧
      simulateTrades forward (rec.setup target) = .ok (T :: rest) ∧
      rowPosition forward T.entryTime = .ok (some p₁) ∧
      rowPosition forward T.exitTime = .ok (some p₂) ∧
      rec'.tp1 = some own ∧ rec'.outcome = some (outcomeOf T.rMultiple) ∧
      (rec'.hitStopBeforeTp = some true ↔
        StopOnly (rec.setup own) (forward.slice p₁ (p₂ + 1)).rows) := by
  have hstage := h
  unfold stage2Backtest at h
  cases htarget : tp1.or rec.tp1 with
  | none =>
    simp only [htarget] at h
    cases h
  | some target =>
    obtain ⟨own, hown, hown'⟩ := exists_own htarget
    simp only [htarget] at h
    obtain ⟨trades, hsim, h⟩ := bind_ok.mp h
    cases trades with
    | nil => cases h
    | cons trade rest =>
      obtain ⟨p₁, p₂, scored, hentry, hexit, -, hscored, hout⟩ :=
        (stage2Backtest_target htarget hsim _).mp hstage
      obtain ⟨rfl, htrade⟩ := Prod.mk.inj hout
      obtain rfl := Option.some.inj htrade
      obtain ⟨htp, hhit⟩ := applyTradeMetrics_hitStop hown hscored
      exact ⟨target, own, rest, p₁, p₂, rfl, hown', hsim, hentry, hexit, htp,
        (applyTradeMetrics_keeps hscored).1, hhit⟩

theorem mem_slice {df : Frame} : r ∈ (df.slice i (j + 1)).rows ↔
    ∃ k, i ≤ k ∧ k ≤ j ∧ df.rows[k]? = some r := by
  unfold Frame.slice
  rw [List.mem_iff_getElem?]
  constructor
  · rintro ⟨k, hk⟩
    rw [List.getElem?_take] at hk
    split_ifs at hk with hlt
    rw [List.getElem?_drop] at hk
    exact ⟨i + k, by omega, by omega, hk⟩
  · rintro ⟨k, hik, hkj, hk⟩
    refine ⟨k - i, ?_⟩
    rw [List.getElem?_take_of_lt (by omega), List.getElem?_drop, Nat.add_sub_cancel' hik, hk]

/-- In a window without repeated labels a label is located at its own row. -/
theorem position_eq (hnodup : (forward.rows.map Row.index).Nodup) (hr : forward.rows[i]? = some r)
    (hp : rowPosition forward (some r.index) = .ok (some j)) : j = i := by
  obtain ⟨q, hq, hlabel⟩ := rowPosition_row hp
  obtain ⟨hj, -⟩ := List.getElem?_eq_some_iff.mp hq
  refine (List.getElem?_inj (by rwa [List.length_map]) hnodup).mp ?_
  rw [List.getElem?_map, List.getElem?_map, hq, hr]
  exact congrArg some hlabel

/-- What a bar does to a trade: nothing off both levels, a loss at the stop, a win at the target. -/
theorem engineSide_cases (s : Setup) (r : Row) :
    (engineSide s r = none ∧ ¬ ReachesStop s r ∧ ¬ ReachesTarget s r) ∨
    (engineSide s r = some .loss ∧ ReachesStop s r) ∨
    (engineSide s r = some .win ∧ ReachesTarget s r) := by
  unfold engineSide resolveExit ReachesStop ReachesTarget
  by_cases hl : s.direction = .long
  · simp only [if_pos hl]
    split_ifs <;> simp_all
  · simp only [if_neg hl]
    split_ifs <;> simp_all

theorem engineSide_none : engineSide s r = none ↔ ¬ ReachesStop s r ∧ ¬ ReachesTarget s r := by
  rcases engineSide_cases s r with ⟨h, hfree⟩ | ⟨h, hstop⟩ | ⟨h, htarget⟩
  · exact iff_of_true h hfree
  · rw [h]
    exact iff_of_false (fun h => by cases h) fun hfree => hfree.1 hstop
  · rw [h]
    exact iff_of_false (fun h => by cases h) fun hfree => hfree.2 htarget

theorem reachesStop_of_loss (h : engineSide s r = some .loss) : ReachesStop s r := by
  rcases engineSide_cases s r with ⟨h', -⟩ | ⟨-, hstop⟩ | ⟨h', -⟩
  · cases h.symm.trans h'
  · exact hstop
  · cases h.symm.trans h'

theorem reachesTarget_of_win (h : engineSide s r = some .win) : ReachesTarget s r := by
  rcases engineSide_cases s r with ⟨h', -⟩ | ⟨h', -⟩ | ⟨-, htarget⟩
  · cases h.symm.trans h'
  · cases h.symm.trans h'
  · exact htarget

/-- A trade that reached a level left before every bar but its last reached one. -/
theorem quiet_before {side : TradeResult} (h : FirstAt (engineSide s) rows j e side) {k : ℕ}
    (hjk : j ≤ k) (hke : k < e) (hr : rows[k]? = some r) :
    ¬ ReachesStop s r ∧ ¬ ReachesTarget s r := by
  have hnone := h.before k hjk hke
  rw [hr, Option.bind_some] at hnone
  exact engineSide_none.mp hnone

/-- On the bars of the trade itself the stop alone is reached exactly by a loss whose last bar does
not reach the target as well. -/
theorem stopOnly_iff (hnodup : (forward.rows.map Row.index).Nodup)
    (hr : forward.rows[j]? = some r) (hends : Ends s forward.rows j r T)
    (hentry : rowPosition forward T.entryTime = .ok (some p₁))
    (hexit : rowPosition forward T.exitTime = .ok (some p₂)) :
    StopOnly s (forward.slice p₁ (p₂ + 1)).rows ↔
      T.result = .loss ∧ ∀ q, forward.rows[p₂]? = some q → ¬ ReachesTarget s q := by
  unfold StopOnly
  simp only [mem_slice]
  rcases hends with ⟨e, q, side, he, hq, rfl⟩ | ⟨hnone, last, hlast, rfl⟩
  · obtain rfl := position_eq hnodup hr hentry
    obtain rfl := position_eq hnodup hq hexit
    have hside : engineSide s q = some side := by
      have hhit := he.hit
      rwa [hq, Option.bind_some] at hhit
    have hresult : (s.leave (s.enter r) q side).result = side := rfl
    rw [hresult]
    constructor
    · rintro ⟨-, htarget⟩
      have hclear : ¬ ReachesTarget s q := htarget q ⟨p₂, he.le, le_rfl, hq⟩
      refine ⟨?_, ?_⟩
      · cases side with
        | loss => rfl
        | win => exact absurd (reachesTarget_of_win hside) hclear
        | scratch => exact absurd rfl (engineSide_ne_scratch hside)
      · intro q' hq'
        obtain rfl := Option.some.inj (hq.symm.trans hq')
        exact hclear
    · rintro ⟨rfl, hclear⟩
      refine ⟨⟨q, ⟨p₂, he.le, le_rfl, hq⟩, reachesStop_of_loss hside⟩, ?_⟩
      rintro q' ⟨k, hjk, hke, hq'⟩
      rcases hke.eq_or_lt with rfl | hlt
      · exact hclear q' hq'
      · exact (quiet_before he hjk hlt hq').2
  · -- no bar of the trade reached a level
    obtain rfl := position_eq hnodup hr hentry
    refine iff_of_false ?_ (fun h => by cases h.1)
    rintro ⟨⟨q, ⟨k, hjk, -, hq⟩, hstop⟩, -⟩
    cases hside : engineSide s q with
    | none => exact (engineSide_none.mp hside).1 hstop
    | some side =>
      have hhit : forward.rows[k]?.bind (engineSide s) = some side := by
        rw [hq, Option.bind_some, hside]
      obtain ⟨e, d, he, -⟩ := FirstAt.exists_le hhit hjk
      exact hnone e d he

theorem outcomeOf_stoploss (h : simulateTrades forward s = .ok (T :: rest)) :
    some (outcomeOf T.rMultiple) = some Outcome.stoploss ↔ T.result = .loss := by
  rcases firstTrade_cases h with ⟨hw, hr⟩ | ⟨hl, hr⟩ | ⟨hs, hr⟩
  · rw [hw, outcomeOf, if_pos hr]
    exact iff_of_false (by decide) (by decide)
  · rw [hl, hr]
    exact iff_of_true (by decide +kernel) rfl
  · rw [hs, hr]
    exact iff_of_false (by decide +kernel) (by decide)

theorem stopHitPenalty_iff : stopHitPenalty rec = -5 ↔ rec.hitStopBeforeTp = some true := by
  unfold stopHitPenalty
  split_ifs with h
  · exact iff_of_true rfl h
  · exact iff_of_false (by norm_num) h

/-- The stop flag of a traded record, and with it the penalty, is that of the bars held: the stop
was reached and the record's target was not. For a trade on this target, in a window that does not
repeat a label, it is the flag of a loss whose last bar stays off the target. -/
theorem stage2Backtest_hitStop (h : stage2Backtest rec forward tp1 = .ok (rec', some T)) :
    ∃ own p₁ p₂, rec'.tp1 = some own ∧
      rowPosition forward T.entryTime = .ok (some p₁) ∧
      rowPosition forward T.exitTime = .ok (some p₂) ∧
      (rec'.hitStopBeforeTp = some true ↔
        StopOnly (rec.setup own) (forward.slice p₁ (p₂ + 1)).rows) ∧
      (stopHitPenalty rec' = -5 ↔ rec'.hitStopBeforeTp = some true) ∧
      (rec'.outcome = some .stoploss ↔ T.result = .loss) ∧
      ((∀ given ∈ tp1, ∀ target ∈ rec.tp1, given = target) →
        (forward.rows.map Row.index).Nodup →
          (rec'.hitStopBeforeTp = some true ↔ T.result = .loss ∧
            ∀ q, forward.rows[p₂]? = some q → ¬ ReachesTarget (rec.setup own) q)) := by
  obtain ⟨target, own, rest, p₁, p₂, htarget, hown, hsim, hentry, hexit, htp, houtcome, hhit⟩ :=
    stage2Backtest_inv h
  refine ⟨own, p₁, p₂, htp, hentry, hexit, hhit, stopHitPenalty_iff, ?_, ?_⟩
  · rw [houtcome]
    exact outcomeOf_stoploss hsim
  · intro hsame hnodup
    obtain rfl := own_eq htarget hown hsame
    obtain ⟨-, j, r, -, hr, hends⟩ := firstTrade_ends hsim
    rw [hhit]
    exact stopOnly_iff hnodup hr hends hentry hexit

/-- The stop flag, the label and the trade of a long at 100 with its stop at 95 and its target
at 110. -/
def stopFlag (forward : Frame) (tp1 : Option ℚ := none) :
    Option (Option Bool × Option Outcome × Option TradeResult) :=
  (stage2Backtest emptyRecord forward tp1).toOption.map fun out =>
    (out.1.hitStopBeforeTp, out.1.outcome, out.2.map Trade.result)

/-- Bars that fill the entry and fall to the stop. -/
def stoppedFrame : Frame := frameOf [dayBar 0 99 101 100, dayBar 1 94 100 95]

theorem stopped_flagged : ∃ rec' T, stage2Backtest emptyRecord stoppedFrame = .ok (rec', some T) ∧
    ∃ own p₁ p₂, rec'.tp1 = some own ∧
      rowPosition stoppedFrame T.entryTime = .ok (some p₁) ∧
      rowPosition stoppedFrame T.exitTime = .ok (some p₂) ∧
      (rec'.hitStopBeforeTp = some true ↔
        StopOnly (emptyRecord.setup own) (stoppedFrame.slice p₁ (p₂ + 1)).rows) ∧
      (stopHitPenalty rec' = -5 ↔ rec'.hitStopBeforeTp = some true) ∧
      (rec'.outcome = some .stoploss ↔ T.result = .loss) ∧
      ((∀ given ∈ (none : Option ℚ), ∀ target ∈ emptyRecord.tp1, given = target) →
        (stoppedFrame.rows.map Row.index).Nodup →
          (rec'.hitStopBeforeTp = some true ↔ T.result = .loss ∧
            ∀ q, stoppedFrame.rows[p₂]? = some q → ¬ ReachesTarget (emptyRecord.setup own) q)) := by
  have hflag : stopFlag stoppedFrame = some (some true, some .stoploss, some .loss) := by
    decide +kernel
  obtain ⟨⟨rec', trade⟩, h, hview⟩ := Option.map_eq_some_iff.mp hflag
  cases trade with
  | none => simp at hview
  | some T =>
    have hstage := toOption_eq_some.mp h
    exact ⟨rec', T, hstage, stage2Backtest_hitStop hstage⟩

/-- A bar that reaches both levels is a loss without the flag. In a window that repeats a label the
flag can be that of a bar before the entry, and with another target asked for it looks at the
record's. -/
theorem wide_bar_unflagged :
    stopFlag (frameOf [dayBar 0 95 110 100]) = some (some false, some .stoploss, some .loss) ∧
    stopFlag (frameOf [dayBar 0 94 96 95, dayBar 0 99 101 100, dayBar 1 99 101 100]) =
      some (some true, some .breakeven, some .scratch) ∧
    stopFlag (frameOf [dayBar 0 99 111 100, dayBar 1 94 100 95]) (some 120) =
      some (some false, some .stoploss, some .loss) := by
  decide +kernel

end Pyharmonics.Bench
