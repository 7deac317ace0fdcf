import Pyharmonics.Grading

/-! The evidence of a trap against the multiplier it puts on a stop. -/
namespace Pyharmonics

variable {df df' : Frame} {przLow przHigh : ℚ} {bullish : Bool} {lookback : ℤ} {e : TrapPenalty}

/-- The penalties of `quant_trap_risk`. -/
inductive TrapPenalty
  | falseBreak | stopHunt | volumeClimax
  deriving DecidableEq

/-- How often a window shows what a penalty is for. -/
def TrapPenalty.rate (d : List Row) : TrapPenalty → ℚ
  | .falseBreak => falseBreaks d / (d.length - 5)
  | .stopHunt => stopHunts d / (d.length - 4)
  | .volumeClimax => climaxes d / (d.length - 1)

/-- The lowest rate that is held against a candidate. -/
def TrapPenalty.limit : TrapPenalty → ℚ
  | .falseBreak => 8 / 100
  | .stopHunt => 10 / 100
  | .volumeClimax => 12 / 100

/-- A penalty fires on the last bars of a frame, of which there have to be fifteen. -/
def Fires (df : Frame) (lookback : ℤ) (e : TrapPenalty) : Prop :=
  15 ≤ (df.tail lookback).length ∧ e.limit < e.rate (df.tail lookback)

instance : Decidable (Fires df lookback e) := inferInstanceAs (Decidable (_ ∧ _))

/-- Every penalty fires on a frame and none on the one before it. -/
def FullEvidence (df df' : Frame) (lookback : ℤ) : Prop :=
  (∀ e, Fires df' lookback e) ∧ ∀ e, ¬ Fires df lookback e

/-- The second frame's stop is no narrower than the first one's, and wider on full evidence. -/
def WidensWith (df df' : Frame) (przLow przHigh : ℚ) (bullish : Bool) (lookback : ℤ) : Prop :=
  ∃ m m', trapStopMultiplier (quantTrapRisk df przLow przHigh bullish lookback).score = .ok m ∧
    trapStopMultiplier (quantTrapRisk df' przLow przHigh bullish lookback).score = .ok m' ∧
    m ≤ m' ∧ (FullEvidence df df' lookback → m < m')

/-- Evidence takes points off: a score without veto is at its top when no penalty fires. -/
theorem score_eq_top_iff (hveto : (quantTrapRisk df przLow przHigh bullish lookback).veto = false) :
    (quantTrapRisk df przLow przHigh bullish lookback).score = 50 ↔ ∀ e, ¬ Fires df lookback e := by
  have hall : (∀ e, ¬ Fires df lookback e) ↔ ¬ Fires df lookback .falseBreak ∧
      ¬ Fires df lookback .stopHunt ∧ ¬ Fires df lookback .volumeClimax := by
    constructor
    · intro h
      exact ⟨h _, h _, h _⟩
    · rintro ⟨hfb, hsh, hvc⟩ e
      cases e <;> assumption
  rw [hall]
  unfold quantTrapRisk at hveto ⊢
  simp only [Fires, TrapPenalty.limit, TrapPenalty.rate] at hveto ⊢
  by_cases hn : (df.tail lookback).length < 15
  · simp only [if_pos hn]
    simp only [true_iff]
    refine ⟨?_, ?_, ?_⟩ <;> rintro ⟨h, -⟩ <;> omega
  · simp only [if_neg hn, not_lt.mp hn, true_and, not_lt] at hveto ⊢
    -- a tier above the lowest one fires as well
    split_ifs at hveto ⊢ with hbig hmid hlow
    all_goals simp_all
    linarith

theorem score_le (df : Frame) (przLow przHigh : ℚ) (bullish : Bool) (lookback : ℤ) :
    0 ≤ (quantTrapRisk df przLow przHigh bullish lookback).score ∧
      (quantTrapRisk df przLow przHigh bullish lookback).score ≤ 100 := by
  unfold quantTrapRisk
  simp only
  split_ifs <;> simp

/-- No window has a multiplier other than one. -/
theorem trapStopMultiplier_risk (df : Frame) (przLow przHigh : ℚ) (bullish : Bool) (lookback : ℤ) :
    trapStopMultiplier (quantTrapRisk df przLow przHigh bullish lookback).score = .ok 1 := by
  unfold trapStopMultiplier
  rw [require_bind_ok]
  refine ⟨score_le df przLow przHigh bullish lookback, ?_⟩
  rw [trapCurve_eq_one]
  rfl

/-- A window with more evidence has the wider stop exactly as long as it does not have all the
evidence and the other window none. -/
theorem widens_iff :
    WidensWith df df' przLow przHigh bullish lookback ↔ ¬ FullEvidence df df' lookback := by
  constructor
  · rintro ⟨m, m', hm, hm', -, hfull⟩ hevidence
    rw [trapStopMultiplier_risk] at hm hm'
    obtain rfl := Except.ok.inj hm
    obtain rfl := Except.ok.inj hm'
    exact lt_irrefl _ (hfull hevidence)
  · intro hnot
    exact ⟨1, 1, trapStopMultiplier_risk .., trapStopMultiplier_risk .., le_rfl,
      fun hfull => absurd hfull hnot⟩

/-- A bar at 100 of a market in which nothing happens. -/
def quietBar (k : ℕ) : Row :=
  { openPrice := 100, high := 101, low := 99, close := 100, volume := 1, closeTime := k, dts := k
    index := k }

/-- A bar that is bought back after a new low. -/
def huntBar (k : ℕ) : Row :=
  { quietBar k with openPrice := 992 / 10, high := 995 / 10, low := 983 / 10, close := 992 / 10 }

/-- The same bars with a pierced high, two hunts and two bursts of volume. -/
def trapBar (k : ℕ) : Row :=
  if k = 2 ∨ k = 4 then { quietBar k with volume := 3 }
  else if k = 6 then { quietBar k with high := 103 }
  else if k = 9 ∨ k = 13 then huntBar k
  else quietBar k

def quietFrame : Frame := frameOf ((List.range 15).map quietBar)

def trapFrame : Frame := frameOf ((List.range 15).map trapBar)

/-- Full evidence of a trap, without veto, does not widen the stop of a zone from 50 to 60. -/
theorem full_evidence_ignored : 15 ≤ quietFrame.length ∧ 15 ≤ trapFrame.length ∧
    (quantTrapRisk quietFrame 50 60 true 60).veto = false ∧
    (quantTrapRisk trapFrame 50 60 true 60).veto = false ∧
    (∀ e, Fires quietFrame 60 e → Fires trapFrame 60 e) ∧
    ¬ WidensWith quietFrame trapFrame 50 60 true 60 := by
  have hnone : ∀ e, ¬ Fires quietFrame 60 e := by
    intro e
    cases e <;> decide +kernel
  have hall : ∀ e, Fires trapFrame 60 e := by
    intro e
    cases e <;> decide +kernel
  refine ⟨by decide, by decide, by decide +kernel, by decide +kernel, fun e _ => hall e, ?_⟩
  rintro ⟨m, m', hm, hm', -, hfull⟩
  rw [trapStopMultiplier_risk] at hm hm'
  obtain rfl := Except.ok.inj hm
  obtain rfl := Except.ok.inj hm'
  exact lt_irrefl _ (hfull ⟨hall, hnone⟩)

end Pyharmonics
