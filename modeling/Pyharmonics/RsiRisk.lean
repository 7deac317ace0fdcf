import Pyharmonics.RsiAccounting

/-! The risk of a position of the RSI backtest: no trade loses more than the initial risk. -/
namespace Pyharmonics.RsiTrend

open Backtest

variable {data bars : List Enriched} {s : StrategySignal} {m : ExitMode} {barTime : Row → String}
  {h h' q : Holding} {e : Exit} {bar : Enriched} {i : ℕ} {time : String} {t : StrategyTrade}
  {price stop : ℚ} {row : Row}

/-- The close lies in the range of the bar, and the ATR is not negative. -/
structure SoundBar (b : Enriched) : Prop where
  low_le : b.row.low ≤ b.row.close
  le_high : b.row.close ≤ b.row.high
  atr_nonneg : ∀ atr ∈ b.atr, 0 ≤ atr

/-- The signal enters at the close of its bar, with the stop beyond the bar and the target on the
other side. -/
structure SoundSignal (s : StrategySignal) (b : Enriched) : Prop where
  entry : s.entryPrice = b.row.close
  levels : if s.direction = .long then s.stopLoss < b.row.low ∧ s.entryPrice < s.targetPrice
    else b.row.high < s.stopLoss ∧ s.targetPrice < s.entryPrice

/-- The reward of the target in units of the risk. -/
def rewardRisk (s : StrategySignal) : ℚ :=
  |s.targetPrice - s.entryPrice| / |s.entryPrice - s.stopLoss|

/-- What a move to a price gains in the direction of a signal. -/
def StrategySignal.gain (s : StrategySignal) (price : ℚ) : ℚ :=
  if s.direction = .long then price - s.entryPrice else s.entryPrice - price

/-- The stop and the target lie on their sides of the entry. -/
structure Sided (s : StrategySignal) : Prop where
  stop : s.gain s.stopLoss < 0
  target : 0 < s.gain s.targetPrice

theorem SoundSignal.sided (hs : SoundSignal s bar) (hb : SoundBar bar) : Sided s := by
  have hlevels := hs.levels
  have hentry := hs.entry
  have hlow := hb.low_le
  have hhigh := hb.le_high
  split_ifs at hlevels with hl
  · refine ⟨?_, ?_⟩ <;> rw [StrategySignal.gain, if_pos hl] <;> linarith [hlevels.1, hlevels.2]
  · refine ⟨?_, ?_⟩ <;> rw [StrategySignal.gain, if_neg hl] <;> linarith [hlevels.1, hlevels.2]

theorem abs_eq_gain (price : ℚ) : |s.entryPrice - price| = |s.gain price| := by
  unfold StrategySignal.gain
  split_ifs
  · exact abs_sub_comm _ _
  · rfl

theorem Sided.risk_pos (hs : Sided s) : 0 < |s.entryPrice - s.stopLoss| := by
  rw [abs_eq_gain]
  exact abs_pos.mpr hs.stop.ne

/-- The multiple of a price is its gain in units of the risk. -/
theorem Sided.r_eq (hs : Sided s) (price : ℚ) :
    s.r price = s.gain price / |s.entryPrice - s.stopLoss| := by
  unfold StrategySignal.r rMultiple StrategySignal.gain
  rw [if_neg (not_le.mpr hs.risk_pos)]
  split_ifs <;> rfl

theorem Sided.r_le (hs : Sided s) {p p' : ℚ} (hle : s.gain p ≤ s.gain p') : s.r p ≤ s.r p' := by
  rw [hs.r_eq, hs.r_eq]
  exact div_le_div_of_nonneg_right hle hs.risk_pos.le

theorem Sided.r_stop (hs : Sided s) : s.r s.stopLoss = -1 := by
  rw [hs.r_eq, abs_eq_gain, abs_of_neg hs.stop, div_neg, div_self hs.stop.ne]

theorem Sided.r_entry (hs : Sided s) : s.r s.entryPrice = 0 := by
  have hgain : s.gain s.entryPrice = 0 := by simp [StrategySignal.gain]
  rw [hs.r_eq, hgain, zero_div]

theorem Sided.r_target (hs : Sided s) : s.r s.targetPrice = rewardRisk s := by
  rw [hs.r_eq, rewardRisk, abs_sub_comm s.targetPrice, abs_eq_gain s.targetPrice,
    abs_of_pos hs.target]

/-- A bar that is not at the stop closes on its side of it. -/
theorem gain_close (hb : SoundBar bar) (hstop : stopHit s stop bar.row = false) :
    s.gain stop ≤ s.gain bar.row.close := by
  have hlow := hb.low_le
  have hhigh := hb.le_high
  unfold stopHit at hstop
  unfold StrategySignal.gain
  split_ifs at hstop ⊢
  · linarith [not_le.mp (of_decide_eq_false hstop)]
  · linarith [not_le.mp (of_decide_eq_false hstop)]

/-- Trailing moves the stop with the trade only. -/
theorem gain_trail (s : StrategySignal) (bar : Enriched) (h : Holding) :
    s.gain h.stop ≤ s.gain (h.trail s bar).stop := by
  unfold Holding.trail
  cases bar.atr with
  | none => exact le_refl (s.gain h.stop)
  | some atr =>
    dsimp only
    by_cases hactive : ¬ h.trailingActive
    · rw [if_pos hactive]
    · rw [if_neg hactive]
      by_cases hl : s.direction = .long
      · rw [if_pos hl]
        split_ifs with hlt
        · simp only [StrategySignal.gain, if_pos hl]
          linarith
        · exact le_refl (s.gain h.stop)
      · rw [if_neg hl]
        split_ifs with hlt
        · simp only [StrategySignal.gain, if_neg hl]
          linarith
        · exact le_refl (s.gain h.stop)

/-- Closing the rest at the initial stop would still keep the bound. -/
structure Safe (s : StrategySignal) (h : Holding) : Prop where
  stop : -1 ≤ s.r h.stop
  opened : 0 ≤ h.remaining
  fresh : h.t1Done = false → h.realizedR = 0 ∧ h.remaining = 1
  banked : h.t1Done = true → 1 / 2 * rewardRisk s - 1 / 2 ≤ h.realizedR - h.remaining

/-- What is said of a position that was closed. -/
structure Bounded (s : StrategySignal) (h : Holding) : Prop where
  risk : -1 ≤ h.realizedR
  banked : h.t1Done = true → 1 / 2 * rewardRisk s - 1 / 2 ≤ h.realizedR

theorem Sided.rewardRisk_pos (hs : Sided s) : 0 < rewardRisk s := by
  rw [← hs.r_target, hs.r_eq]
  exact div_pos hs.target hs.risk_pos

theorem safe_start (hs : Sided s) : Safe s (.start s) where
  stop := hs.r_stop.ge
  opened := zero_le_one
  fresh := fun _ => ⟨rfl, rfl⟩
  banked := by simp [Holding.start]

/-- A safe position closed no lower than the initial stop is within the bounds. -/
theorem Safe.close (hs : Sided s) (hh : Safe s h) (hr : -1 ≤ s.r price) :
    Bounded s (h.close s price) := by
  have hworst : h.realizedR - h.remaining ≤ (h.close s price).realizedR := by
    rw [close_realizedR]
    linarith [mul_le_mul_of_nonneg_left hr hh.opened]
  refine ⟨?_, fun ht1 => (hh.banked ht1).trans hworst⟩
  cases ht1 : h.t1Done with
  | false =>
    obtain ⟨hrealized, hremaining⟩ := hh.fresh ht1
    rw [hrealized, hremaining] at hworst
    linarith
  | true => linarith [hh.banked ht1, hs.rewardRisk_pos]

/-- The reductions of a bar that closes no lower than the initial stop are safe. -/
theorem Safe.advance (hs : Sided s) (hh : Safe s h) (hclose : -1 ≤ s.r bar.row.close) :
    Safe s (h.advance s m bar time) := by
  refine advance_rule ?_ ?_ ?_ hh
  · intro _ ht1
    obtain ⟨hrealized, hremaining⟩ := hh.fresh ht1
    refine ⟨?_, ?_, fun hf => (by cases hf), fun _ => ?_⟩
    · exact hs.r_entry.symm ▸ (by norm_num : (-1 : ℚ) ≤ 0)
    · change 0 ≤ h.remaining - h.remaining * (1 / 2)
      rw [hremaining]
      norm_num
    · change _ ≤ h.realizedR + h.remaining * (1 / 2) * s.r s.targetPrice -
        (h.remaining - h.remaining * (1 / 2))
      rw [hrealized, hremaining, hs.r_target]
      linarith
  · intro q hq ht1 _
    refine ⟨hq.stop, ?_, fun hf => ?_, fun _ => ?_⟩
    · change 0 ≤ q.remaining - q.remaining * (1 / 2)
      linarith [hq.opened]
    · rw [show q.t1Done = false from hf] at ht1
      cases ht1
    · change _ ≤ q.realizedR + q.remaining * (1 / 2) * s.r bar.row.close -
        (q.remaining - q.remaining * (1 / 2))
      linarith [hq.banked ht1, mul_le_mul_of_nonneg_left hclose hq.opened]
  · intro q hq
    have hstop := hq.stop.trans (hs.r_le (gain_trail s bar q))
    rw [trail_eq]
    exact ⟨hstop, hq.opened, hq.fresh, hq.banked⟩

/-- The bars passed so far closed no lower than the initial stop. -/
structure SafeRun (s : StrategySignal) (done : List Enriched) (h : Holding) : Prop where
  safe : Safe s h
  closes : ∀ b ∈ done, -1 ≤ s.r b.row.close

theorem holdBars_bounded (hs : Sided s) (hbars : ∀ b ∈ bars, SoundBar b) {done : List Enriched}
    (hrun : SafeRun s done h) :
    (holdBars barTime s m bars i h = (h', none) → SafeRun s (done ++ bars) h') ∧
      ∀ e, holdBars barTime s m bars i h = (h', some e) → Bounded s h' := by
  have hclose : ∀ bar ∈ bars, ∀ q, Safe s q → stopHit s q.stop bar.row = false →
      -1 ≤ s.r bar.row.close :=
    fun bar hb q hq hstop => hq.stop.trans (hs.r_le (gain_close (hbars bar hb) hstop))
  refine holdBars_rule (P := SafeRun s) (Q := fun q _ => Bounded s q) done ?_ ?_ hrun
  · intro done bar q q' i hb hq hn
    obtain ⟨hstop, rfl⟩ := next_none hn
    have hr := hclose bar hb q hq.safe hstop
    refine ⟨hq.safe.advance hs hr, ?_⟩
    intro b hmem
    rcases List.mem_append.mp hmem with hmem | hmem
    · exact hq.closes b hmem
    · obtain rfl := List.mem_singleton.mp hmem
      exact hr
  · intro done bar q q' i e hb hq hn
    obtain ⟨-, ⟨hprice, rfl⟩ | ⟨-, -, hprice, rfl⟩ | ⟨hstop, hprice, rfl⟩⟩ := next_some hn
    · exact hq.safe.close hs (hprice ▸ hq.safe.stop)
    · refine hq.safe.close hs ?_
      rw [hprice, hs.r_target]
      linarith [hs.rewardRisk_pos]
    · have hr := hclose bar hb q hq.safe hstop
      exact (hq.safe.advance hs hr).close hs (hprice ▸ hr)

/-- Signals in order on sound bars lose no more than the initial risk, and half of the reward less
half of the risk is sure once the first target was taken. -/
theorem simulateOne_bounded (m : ExitMode) (barTime : Row → String) {first : Enriched}
    (hbars : ∀ b ∈ data, SoundBar b) (hfirst : data[s.index]? = some first)
    (hs : SoundSignal s first) :
    ∃ t, simulateOne data s m barTime = .ok t ∧ -1 ≤ t.rMultiple ∧
      ((∃ x ∈ t.partials, x.reason = .partialTarget) →
        1 / 2 * rewardRisk s - 1 / 2 ≤ t.rMultiple) := by
  obtain ⟨hlt, hget⟩ := List.getElem?_eq_some_iff.mp hfirst
  have hmem : first ∈ data := List.mem_of_getElem? hfirst
  have hsided := hs.sided (hbars first hmem)
  have hdrop : data.drop s.index = first :: data.drop (s.index + 1) := by
    rw [List.drop_eq_getElem_cons hlt, hget]
  -- the stop lies beyond the signal bar
  have hmissed : stopHit s s.stopLoss first.row = false := by
    have hlevels := hs.levels
    unfold stopHit
    split_ifs at hlevels ⊢
    · exact decide_eq_false (not_le.mpr hlevels.1)
    · exact decide_eq_false (not_le.mpr hlevels.1)
  have hstart : SafeRun s [first] (.start s) := by
    refine ⟨safe_start hsided, ?_⟩
    intro b hb
    obtain rfl := List.mem_singleton.mp hb
    rw [← hs.entry, hsided.r_entry]
    norm_num
  have hrest : ∀ b ∈ data.drop (s.index + 1), SoundBar b :=
    fun b hb => hbars b (List.mem_of_mem_drop hb)
  have hfrom : ∀ x, holdFrom barTime s m (data.drop s.index) = x ↔
      holdBars barTime s m (data.drop (s.index + 1)) (s.index + 1) (.start s) = x := by
    intro x
    rw [hdrop, holdFrom, hmissed]
    rfl
  have hreturns : Returns (simulateOne data s m barTime) :=
    simulateOne_returns.mpr (List.ne_nil_of_mem hmem)
  obtain ⟨t, ht⟩ := hreturns
  have hb : ∃ h, Bounded s h ∧ t.rMultiple = h.realizedR ∧
      ((∃ x ∈ t.partials, x.reason = .partialTarget) → h.t1Done = true) := by
    rcases simulateOne_cases ht with ⟨h, e, hrun, rfl⟩ | ⟨h, last, hrun, hlast, rfl⟩
    · obtain ⟨q, hq, rfl⟩ := holdFrom_booked.2 e hrun
      refine ⟨_, (holdBars_bounded hsided hrest hstart).2 e ((hfrom _).mp hrun), rfl, ?_⟩
      rintro ⟨x, hx, hreason⟩
      exact hq.target (List.mem_map.mpr ⟨x, hx, hreason⟩)
    · have hq := holdFrom_booked.1 hrun
      have hrun' := (holdBars_bounded hsided hrest hstart).1 ((hfrom _).mp hrun)
      refine ⟨_, hrun'.safe.close hsided (hrun'.closes last ?_), rfl, ?_⟩
      · rw [List.singleton_append, ← hdrop]
        refine List.mem_of_getLast? ?_
        rw [List.getLast?_drop, if_neg (not_le.mpr hlt), hlast]
      · rintro ⟨x, hx, hreason⟩
        exact hq.target (List.mem_map.mpr ⟨x, hx, hreason⟩)
  obtain ⟨h, hbounded, hr, htaken⟩ := hb
  refine ⟨t, ht, hr ▸ hbounded.risk, ?_⟩
  intro hpartial
  exact hr ▸ hbounded.banked (htaken hpartial)

theorem ladder_bounded : ∃ t, simulateOne ladderBars ladderSignal ⟨true, true⟩ (fun _ => "") =
    .ok t ∧ -1 ≤ t.rMultiple ∧ ((∃ x ∈ t.partials, x.reason = .partialTarget) →
      1 / 2 * rewardRisk ladderSignal - 1 / 2 ≤ t.rMultiple) := by
  refine simulateOne_bounded ⟨true, true⟩ (fun _ => "") ?_ rfl ⟨rfl, ?_⟩
  · intro b hb
    simp only [ladderBars, List.mem_cons, List.not_mem_nil, or_false] at hb
    rcases hb with rfl | rfl | rfl <;> constructor <;> simp [ladderBar] <;> norm_num
  · simp [ladderSignal, ladderBar]
    norm_num

end Pyharmonics.RsiTrend
