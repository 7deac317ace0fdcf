import Pyharmonics.MacroLabel

/-! The product of the position multipliers: volatility, regime and macro layer. -/
namespace Pyharmonics.Macro

open Series Rounding

variable {N : Numerics} {w : Process} {t : TuningFields} {closes : List ℚ} {d : ℤ}
  {dailyClose : Option (List ℚ)} {atr price : ℚ} {regime : Regime} {o : MacroOverlay}
  {sqrt : ℚ → ℚ} {resample : String → List (ℤ × ℚ) → List ℚ} {unknown : String → Bool}

/-- The regime multiplier of `prepare_score_context`. -/
def regimeMult (t : TuningFields) (regime : Regime) : ℚ :=
  if regime = .highQuant then t.highQuantPositionMult else 1

/-- The slope of EMA200 is in the band of either direction. -/
def Trending (t : TuningFields) (closes : List ℚ) : Prop :=
  t.slopeTrendUp ≤ slopePct (ewmSpan 200 closes) ∨ slopePct (ewmSpan 200 closes) ≤ t.slopeTrendDown

/-- The last close is far from EMA200. -/
def Extreme (t : TuningFields) (closes : List ℚ) : Prop :=
  let v200 := (ewmSpan 200 closes).getLastD 0
  t.extremeDeviationPct < |if 0 < v200 then (closes.getLastD 0 / v200 - 1) * 100 else 0|

instance : Decidable (SideAgrees closes d) := by unfold SideAgrees; infer_instance

instance : Decidable (SlopeAgrees t closes d) := by unfold SlopeAgrees; infer_instance

instance : Decidable (Trending t closes) := inferInstanceAs (Decidable (_ ∨ _))

instance : Decidable (Extreme t closes) := by unfold Extreme; infer_instance

/-- The multiplier of the band in which a daily series is for a direction. -/
def bandMult (t : TuningFields) (dailyClose : Option (List ℚ)) (d : ℤ) : ℚ :=
  match dailyClose with
  | none => t.multDataShort
  | some closes =>
    if (closes.length : ℤ) < t.minDailyBars then t.multDataShort
    else if d = 0 then 1
    else if SideAgrees closes d then
      if Trending t closes then t.multTrendingAligned else t.multRangingAligned
    else if Extreme t closes then t.multExtremeInverse
    else if SlopeAgrees t closes d then t.multTrendingInverse
    else t.multRangingInverse

theorem sizing_mult (long aligned extreme up down : Bool) :
    (sizing t long aligned extreme up down).1 =
      if aligned then if up || down then t.multTrendingAligned else t.multRangingAligned
      else if extreme then t.multExtremeInverse
      else if if long then up else down then t.multTrendingInverse
      else t.multRangingInverse := by
  unfold sizing
  cases aligned with
  | true => cases up <;> cases down <;> simp
  | false =>
    cases extreme with
    | true => simp
    | false => cases long <;> cases up <;> cases down <;> simp

/-- The macro layer sizes by the band. -/
theorem compute_bandMult (hd : d = -1 ∨ d = 0 ∨ d = 1) :
    ∃ o, compute N w dailyClose d = .ok o ∧
      o.sizeMult = bandMult w.getTuning.toTuningFields dailyClose d := by
  unfold compute bandMult
  simp only [require_bind_ok]
  cases dailyClose with
  | none => exact ⟨_, ⟨hd, rfl⟩, rfl⟩
  | some closes =>
    by_cases hlen : (closes.length : ℤ) < w.getTuning.minDailyBars
    · simp only [if_pos hlen]
      exact ⟨_, ⟨hd, rfl⟩, rfl⟩
    · by_cases hzero : d = 0
      · simp only [if_neg hlen, if_pos hzero, if_pos (show d ≠ 1 ∧ d ≠ -1 by omega)]
        exact ⟨_, ⟨hd, rfl⟩, rfl⟩
      · have hside : d = 1 ∨ d = -1 := by omega
        simp only [if_neg hlen, if_neg hzero, if_neg (show ¬ (d ≠ 1 ∧ d ≠ -1) by omega)]
        refine ⟨_, ⟨hd, rfl⟩, (sizing_mult _ _ _ _ _).trans ?_⟩
        refine if_congr (side_eq hside) (if_congr ?_ rfl rfl)
          (if_congr ?_ rfl (if_congr ?_ rfl rfl))
        · simp [Trending]
        · simp [Extreme]
        · by_cases hlong : d = 1
          · simp [SlopeAgrees, hlong]
          · simp [SlopeAgrees, hlong]

/-- The volatility multiplier of a market that hardly moves, which is the largest one. -/
def topVolatility (t : TuningFields) : ℚ :=
  roundTo 4 (min (3 / 2) (max (1 / 2) (2 * t.targetAtrPct)))

theorem half_le_clamp (x : ℚ) : 1 / 2 ≤ min (3 / 2) (max (1 / 2) x) :=
  le_min (by norm_num) (le_max_left _ _)

theorem volatilityMultiplier_pos (hprice : 0 < price) :
    0 < volatilityMultiplier (.decimal sqrt resample unknown) w atr price := by
  unfold volatilityMultiplier
  rw [if_neg (not_le.mpr hprice)]
  refine (show (0 : ℚ) < roundTo 4 (1 / 2) by decide +kernel).trans_le ?_
  exact roundTo_mono (half_le_clamp _)

theorem volatilityMultiplier_le (hprice : 0 < price) :
    volatilityMultiplier (.decimal sqrt resample unknown) w atr price ≤
      topVolatility w.getTuning.toTuningFields := by
  unfold volatilityMultiplier topVolatility
  rw [if_neg (not_le.mpr hprice)]
  refine roundTo_mono (min_le_min_left _ ?_)
  have hpos : (0 : ℚ) < max (atr / price * 100) (1 / 2) := lt_max_of_lt_right (by norm_num)
  rcases le_total 0 w.getTuning.targetAtrPct with htarget | htarget
  · refine max_le_max_left _ ?_
    rw [div_le_iff₀ hpos]
    calc w.getTuning.targetAtrPct = 2 * w.getTuning.targetAtrPct * (1 / 2) := by ring
      _ ≤ _ := mul_le_mul_of_nonneg_left (le_max_right _ _) (by linarith)
  · rw [max_eq_left ((div_nonpos_of_nonpos_of_nonneg htarget hpos.le).trans (by norm_num))]
    exact le_max_left _ _

/-- It is reached from an ATR of half a percent of the price down. -/
theorem volatilityMultiplier_top :
    volatilityMultiplier (.decimal sqrt resample unknown) w (1 / 200) 1 =
      topVolatility w.getTuning.toTuningFields := by
  unfold volatilityMultiplier topVolatility
  rw [if_neg (by norm_num)]
  simp only
  rw [show max ((1 : ℚ) / 200 / 1 * 100) (1 / 2) = 1 / 2 by norm_num, div_div_eq_mul_div, div_one,
    mul_comm]
  rfl

/-- In every market and regime the product stays within the ceiling exactly where the largest
volatility multiplier of the tuning does with the multiplier of the band and that of each regime. -/
theorem ceiling_iff (hd : d = -1 ∨ d = 0 ∨ d = 1) :
    (∀ (atr price : ℚ) (regime : Regime) (o : MacroOverlay), 0 < atr → 0 < price →
      compute (.decimal sqrt resample unknown) w dailyClose d = .ok o →
      volatilityMultiplier (.decimal sqrt resample unknown) w atr price *
        regimeMult w.getTuning.toTuningFields regime * o.sizeMult ≤ 3 / 2) ↔
    ∀ r ∈ [1, w.getTuning.highQuantPositionMult], topVolatility w.getTuning.toTuningFields *
      (r * bandMult w.getTuning.toTuningFields dailyClose d) ≤ 3 / 2 := by
  obtain ⟨o, ho, hmult⟩ : ∃ o, compute (.decimal sqrt resample unknown) w dailyClose d = .ok o ∧
      o.sizeMult = bandMult w.getTuning.toTuningFields dailyClose d := compute_bandMult hd
  rw [← hmult]
  constructor
  · intro h r hr
    have hregime : ∃ regime, regimeMult w.getTuning.toTuningFields regime = r := by
      rcases List.mem_pair.mp hr with rfl | rfl
      · exact ⟨.normal, rfl⟩
      · exact ⟨.highQuant, rfl⟩
    obtain ⟨regime, rfl⟩ := hregime
    have htop := h (1 / 200) 1 regime o (by norm_num) one_pos ho
    rwa [volatilityMultiplier_top, mul_assoc] at htop
  · intro h atr price regime o' hatr hprice ho'
    obtain rfl := Except.ok.inj (ho.symm.trans ho')
    have hr : regimeMult w.getTuning.toTuningFields regime ∈
        [1, w.getTuning.highQuantPositionMult] := by
      unfold regimeMult
      split_ifs <;> simp
    have htop := h _ hr
    rw [mul_assoc]
    rcases le_total 0 (regimeMult w.getTuning.toTuningFields regime * o.sizeMult) with hx | hx
    · exact (mul_le_mul_of_nonneg_right (volatilityMultiplier_le hprice) hx).trans htop
    · have hpos : 0 < volatilityMultiplier (.decimal sqrt resample unknown) w atr price :=
        volatilityMultiplier_pos hprice
      have hneg := mul_nonpos_of_nonneg_of_nonpos hpos.le hx
      linarith

theorem ceiling_dataShort : ∃ o, compute plainNumerics defaultProcess none 1 = .ok o ∧
    volatilityMultiplier plainNumerics defaultProcess 1 200 *
      regimeMult defaultProcess.getTuning.toTuningFields .normal * o.sizeMult ≤ 3 / 2 := by
  have hshort : compute plainNumerics defaultProcess none 1 =
      .ok (dataShort defaultProcess.getTuning.toTuningFields) := rfl
  exact ⟨_, hshort, (ceiling_iff (.inr (.inr rfl))).mpr (by decide +kernel) 1 200 .normal _ one_pos
    (by norm_num) hshort⟩

/-- Two hundred and nine days at 100 and one at 200. -/
def spikeCloses : List ℚ := List.replicate 209 100 ++ [200]

/-- A short after a spike, in a quiet market and under the default tuning. -/
theorem ceiling_spike : (compute plainNumerics defaultProcess (some spikeCloses) (-1)).toOption.map
      MacroOverlay.sizeMult = some (6 / 5) ∧
    volatilityMultiplier plainNumerics defaultProcess 1 200 = 3 / 2 ∧
    regimeMult defaultProcess.getTuning.toTuningFields .normal = 1 ∧
    ¬ (3 / 2 : ℚ) * 1 * (6 / 5) ≤ 3 / 2 := by
  decide +kernel

end Pyharmonics.Macro
