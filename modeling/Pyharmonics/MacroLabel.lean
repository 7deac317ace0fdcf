import Pyharmonics.Grading
import Pyharmonics.MacroBias

/-! What the macro layer calls a signal with the trend. -/
namespace Pyharmonics.Macro

open Series

variable {N : Numerics} {w : Process} {t : TuningFields} {closes : List ℚ} {d : ℤ}

/-- The last close is on the side of EMA200 a signal of direction `d` asks for. -/
def SideAgrees (closes : List ℚ) (d : ℤ) : Prop :=
  if d = 1 then (ewmSpan 200 closes).getLastD 0 < closes.getLastD 0
  else closes.getLastD 0 ≤ (ewmSpan 200 closes).getLastD 0

/-- The slope of EMA200 is in the band of the direction. -/
def SlopeAgrees (t : TuningFields) (closes : List ℚ) (d : ℤ) : Prop :=
  if d = 1 then t.slopeTrendUp ≤ slopePct (ewmSpan 200 closes)
  else slopePct (ewmSpan 200 closes) ≤ t.slopeTrendDown

/-- A signal of direction `d` is called with-trend only where the side and the slope agree. -/
def TrendGated (N : Numerics) (w : Process) (closes : List ℚ) (d : ℤ) : Prop :=
  ∃ o, compute N w (some closes) d = .ok o ∧ (o.signalVsMacro = "顺势" →
    SideAgrees closes d ∧ SlopeAgrees w.getTuning.toTuningFields closes d)

/-- No branch but the extreme one looks at more than the side for its label. -/
theorem sizing_label (long aligned extreme up down : Bool) :
    (sizing t long aligned extreme up down).2.2 =
      if aligned then "顺势" else if extreme then "逆势+极端" else "逆势" := by
  unfold sizing
  cases aligned with
  | true =>
    cases up
    · cases down <;> simp
    · simp
  | false =>
    cases extreme with
    | true => simp
    | false =>
      simp only [Bool.not_false, Bool.and_true, Bool.false_and, Bool.true_and, if_false,
        Bool.false_eq_true]
      split_ifs <;> rfl

theorem withTrend_iff {long aligned extreme up down : Bool} :
    (sizing t long aligned extreme up down).2.2 = "顺势" ↔ aligned = true := by
  rw [sizing_label]
  cases aligned with
  | true => simp
  | false =>
    cases extreme with
    | true => simp
    | false => simp

theorem side_eq (hd : d = 1 ∨ d = -1) : (decide (d = 1) ==
    decide ((ewmSpan 200 closes).getLastD 0 < closes.getLastD 0)) = true ↔
      SideAgrees closes d := by
  unfold SideAgrees
  rcases hd with rfl | rfl
  · simp
  · simp

/-- The label goes by the side of the price alone. -/
theorem compute_withTrend (hd : d = 1 ∨ d = -1) (hlen : w.getTuning.minDailyBars ≤ closes.length) :
    ∃ o, compute N w (some closes) d = .ok o ∧
      (o.signalVsMacro = "顺势" ↔ SideAgrees closes d) := by
  unfold compute
  simp only [require_bind_ok]
  rw [if_neg (by omega), if_neg (by omega)]
  refine ⟨_, ⟨by omega, rfl⟩, ?_⟩
  exact withTrend_iff.trans (side_eq hd)

/-- With-trend signals are gated exactly where the side asks for nothing the slope denies. -/
theorem trendGated_iff (hd : d = 1 ∨ d = -1) (hlen : w.getTuning.minDailyBars ≤ closes.length) :
    TrendGated N w closes d ↔
      (SideAgrees closes d → SlopeAgrees w.getTuning.toTuningFields closes d) := by
  obtain ⟨o, ho, hlabel⟩ := compute_withTrend (N := N) hd hlen
  constructor
  · rintro ⟨o', ho', h⟩ hside
    obtain rfl := Except.ok.inj (ho.symm.trans ho')
    exact (h (hlabel.mpr hside)).2
  · intro h
    refine ⟨o, ho, fun hl => ?_⟩
    have hside := hlabel.mp hl
    exact ⟨hside, h hside⟩

/-- Two hundred days at 100 and ten at 110. -/
def riseCloses : List ℚ := List.replicate 200 100 ++ List.replicate 10 110

theorem rise_gated : TrendGated plainNumerics defaultProcess riseCloses 1 :=
  (trendGated_iff (Or.inl rfl) (by decide +kernel)).mpr fun _ => by
    unfold SlopeAgrees
    decide +kernel

/-- A flat market with a last close above it, and one that fell by half before it. -/
def flatCloses : List ℚ := List.replicate 209 100 ++ [101]

def fallenCloses : List ℚ := List.replicate 190 100 ++ List.replicate 19 50 ++ [200]

/-- A long is called with-trend in a ranging market and against a falling average. -/
theorem label_ungated :
    (∀ x ∈ flatCloses ++ fallenCloses, 0 < x) ∧
    ((compute plainNumerics defaultProcess (some flatCloses) 1).toOption.map
      MacroOverlay.signalVsMacro = some "顺势" ∧ ¬ TrendGated plainNumerics defaultProcess flatCloses 1) ∧
    ((compute plainNumerics defaultProcess (some fallenCloses) 1).toOption.map
      MacroOverlay.signalVsMacro = some "顺势" ∧
        slopePct (ewmSpan 200 fallenCloses) ≤ defaultProcess.getTuning.slopeTrendDown ∧
        ¬ TrendGated plainNumerics defaultProcess fallenCloses 1) := by
  have hungated : ∀ closes d, (compute plainNumerics defaultProcess (some closes) d).toOption.map
      MacroOverlay.signalVsMacro = some "顺势" →
      ¬ SlopeAgrees defaultProcess.getTuning.toTuningFields closes d →
      ¬ TrendGated plainNumerics defaultProcess closes d := by
    rintro closes d hlabel hslope ⟨o, ho, h⟩
    rw [ho] at hlabel
    exact hslope (h (Option.some.inj hlabel)).2
  have hflat : (compute plainNumerics defaultProcess (some flatCloses) 1).toOption.map
      MacroOverlay.signalVsMacro = some "顺势" := by decide +kernel
  have hfallen : (compute plainNumerics defaultProcess (some fallenCloses) 1).toOption.map
      MacroOverlay.signalVsMacro = some "顺势" := by decide +kernel
  refine ⟨by decide +kernel, ⟨hflat, hungated _ _ hflat ?_⟩, hfallen, by decide +kernel,
    hungated _ _ hfallen ?_⟩
  · unfold SlopeAgrees
    decide +kernel
  · unfold SlopeAgrees
    decide +kernel

end Pyharmonics.Macro
