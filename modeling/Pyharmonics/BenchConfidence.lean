import Mathlib.Analysis.Real.Sqrt
import Pyharmonics.BenchRecord
import Pyharmonics.Library.Rounding
import Pyharmonics.Library.ScoreInterval
import Pyharmonics.Tuning

/-! The confidence of the bench: the Wilson interval of a win rate and the gates over it. -/
namespace Pyharmonics.Bench

open ScoreInterval

/-- The two-tailed quantiles by significance level. -/
def quantiles : List (ℚ × ℚ) :=
  [(10 / 100, 16449 / 10000), (5 / 100, 196 / 100), (1 / 100, 25758 / 10000),
    (1 / 1000, 32905 / 10000)]

/-- `_z_for_alpha` -/
def zForAlpha (alpha : ℚ) : Except PyError ℚ :=
  match quantiles.lookup (Rounding.roundTo 4 alpha) with
  | some z => .ok z
  | none => .error (.valueError ("alpha=% not in lookup table [0.001, 0.01, 0.05, 0.1]; " ++
      "use 0.10 / 0.05 / 0.01 / 0.001") [alpha])

section

variable {ν : Type} [Field ν] [LinearOrder ν]

/-- `wilson_ci`, with the square root of `math`. -/
def wilsonCi (sqrt : ν → ν) (successes n : ℤ) (alpha : ℚ := 5 / 100) : Except PyError (ν × ν) := do
  if n ≤ 0 then return (0, 1)
  refuse (successes < 0 ∨ n < successes) "successes=% must satisfy 0 ≤ successes ≤ n=%"
    [successes, n]
  refuse (¬ (0 < alpha ∧ alpha < 1)) "alpha=% must be in (0, 1)" [alpha]
  let quantile ← zForAlpha alpha
  let z : ν := quantile
  let pHat : ν := successes / n
  let denom := 1 + z * z / n
  let center := (pHat + z * z / (2 * n : ℤ)) / denom
  let spread := z * sqrt (pHat * (1 - pHat) / n + z * z / (4 * n * n : ℤ)) / denom
  return (max 0 (center - spread), min 1 (center + spread))

/-- The wins among the records. -/
def winCount (records : List SignalRecord) : ℕ :=
  records.countP fun r => r.outcome.any Outcome.isWin

/-- `low_confidence` -/
def lowConfidence (sqrt : ν → ν) (records : List SignalRecord) (minN : ℤ := 30)
    (minLower : ν := 4 / 10) (maxUpper : ν := 6 / 10) : Except PyError Bool := do
  let n : ℤ := records.length
  if n < minN then return true
  let (lower, upper) ← wilsonCi sqrt (winCount records) n
  if lower < minLower then return true
  if upper < maxUpper then return true
  return false

end

variable {alpha z : ℚ} {successes n s s' : ℤ} {l u l' u' : ℝ} {records records' : List SignalRecord}

theorem zForAlpha_ok (h : zForAlpha alpha = .ok z) : (0 < alpha ∧ alpha < 1) ∧ 0 < z := by
  unfold zForAlpha at h
  cases hlook : quantiles.lookup (Rounding.roundTo 4 alpha) with
  | none => rw [hlook] at h; cases h
  | some w =>
    rw [hlook] at h
    obtain rfl := Except.ok.inj h
    have hmem : ∀ q ∈ quantiles, 1 / 1000 ≤ q.1 ∧ q.1 ≤ 10 / 100 ∧ 0 < q.2 := by decide +kernel
    obtain ⟨before, after, hsplit, -⟩ := List.lookup_eq_some_iff.mp hlook
    obtain ⟨hlow, hhigh, hpos⟩ := hmem (Rounding.roundTo 4 alpha, w) (by simp [hsplit])
    refine ⟨?_, hpos⟩
    obtain ⟨hnear, hnear'⟩ := abs_le.mp (Rounding.halfEven_near (alpha * 10 ^ 4))
    dsimp only [Rounding.roundTo] at hlow hhigh
    rw [le_div_iff₀ (by norm_num)] at hlow
    rw [div_le_iff₀ (by norm_num)] at hhigh
    constructor <;> linarith

/-- What is under the root, scaled by the quantile, is what completes the square. -/
theorem spread_sq {n p z : ℝ} (hn : 0 < n) (h0 : 0 ≤ p) (h1 : p ≤ 1) :
    z * Real.sqrt (p * (1 - p) / n + z * z / (4 * n * n)) *
        (z * Real.sqrt (p * (1 - p) / n + z * z / (4 * n * n))) =
      z * z / n * (p * (1 - p)) + z * z / n * (z * z / n) / 4 := by
  have hunder : 0 ≤ p * (1 - p) / n + z * z / (4 * n * n) :=
    add_nonneg (div_nonneg (mul_nonneg h0 (sub_nonneg.mpr h1)) hn.le)
      (div_nonneg (mul_self_nonneg z) (by positivity))
  rw [mul_mul_mul_comm, Real.mul_self_sqrt hunder]
  field_simp

theorem rate_unit (hn : 1 ≤ n) (h0 : 0 ≤ successes) (h1 : successes ≤ n) :
    (0 : ℝ) ≤ successes / n ∧ (successes / n : ℝ) ≤ 1 := by
  have hn' : (0 : ℝ) < n := by exact_mod_cast hn
  refine ⟨div_nonneg (by exact_mod_cast h0) hn'.le, ?_⟩
  rw [div_le_one hn']
  exact_mod_cast h1

/-- The bounds are those of the score test, and the clamps do nothing. -/
theorem wilsonCi_bounds (hn : 1 ≤ n) (ha : zForAlpha alpha = .ok z) (h0 : 0 ≤ successes)
    (h1 : successes ≤ n) : ∃ l u : ℝ, wilsonCi Real.sqrt successes n alpha = .ok (l, u) ∧
      Bounds ((z : ℝ) * z / n) (successes / n) l u ∧ l ≤ u ∧ 0 ≤ l ∧ u ≤ 1 := by
  obtain ⟨halpha, hz⟩ := zForAlpha_ok ha
  have hn' : (0 : ℝ) < n := by exact_mod_cast hn
  have hz' : (0 : ℝ) < z := by exact_mod_cast hz
  obtain ⟨hp0, hp1⟩ := rate_unit hn h0 h1
  have hk : (0 : ℝ) < z * z / n := div_pos (mul_pos hz' hz') hn'
  have hbounds := bounds_of_root hk.le (mul_nonneg hz'.le (Real.sqrt_nonneg _))
    (spread_sq (z := (z : ℝ)) hn' hp0 hp1)
  have hhalf : (z : ℝ) * z / (2 * n) = z * z / n / 2 := by rw [mul_comm 2 (n : ℝ), div_div]
  obtain ⟨hlp, hpu⟩ := hbounds.contains hk.le hp0 hp1
  have hlu := hlp.trans hpu
  have hl0 := ((hbounds.within_lower hlu).unit hk).1
  have hu1 := ((hbounds.within_upper hlu).unit hk).2
  refine ⟨_, _, ?_, hbounds, hlu, hl0, hu1⟩
  have hpos : ¬ n ≤ 0 := by omega
  have hrange : ¬ (successes < 0 ∨ n < successes) := by omega
  unfold wilsonCi
  simp only [if_neg hpos, refuse_ok.mpr hrange, refuse_ok.mpr (not_not.mpr halpha), ha, ok_bind,
    Int.cast_mul, Int.cast_ofNat, ← sub_div, ← add_div, hhalf, max_eq_right hl0, min_eq_right hu1]
  rfl

theorem winCount_le (records : List SignalRecord) : winCount records ≤ records.length :=
  List.countP_le_length

/-- The default level is one of the table. -/
theorem zForAlpha_default : zForAlpha (5 / 100) = .ok (196 / 100) := by decide +kernel

/-- Among as many records the interval does not fall with the wins. -/
theorem wilsonCi_mono (hn : 1 ≤ n) (ha : zForAlpha alpha = .ok z) (h0 : 0 ≤ s) (hss : s ≤ s')
    (h1 : s' ≤ n) (h : wilsonCi Real.sqrt s n alpha = .ok (l, u))
    (h' : wilsonCi Real.sqrt s' n alpha = .ok (l', u')) : l ≤ l' ∧ u ≤ u' := by
  have hn' : (0 : ℝ) < n := by exact_mod_cast hn
  have hk : (0 : ℝ) ≤ z * z / n := div_nonneg (mul_self_nonneg _) hn'.le
  obtain ⟨a, b, hab, hbounds, hle, -⟩ := wilsonCi_bounds hn ha h0 (hss.trans h1)
  obtain ⟨a', b', hab', hbounds', hle', -⟩ := wilsonCi_bounds hn ha (h0.trans hss) h1
  obtain ⟨rfl, rfl⟩ := Prod.ext_iff.mp (Except.ok.inj (hab.symm.trans h))
  obtain ⟨rfl, rfl⟩ := Prod.ext_iff.mp (Except.ok.inj (hab'.symm.trans h'))
  have hrate : (s / n : ℝ) ≤ s' / n := div_le_div_of_nonneg_right (by exact_mod_cast hss) hn'.le
  obtain ⟨hp0, hp1⟩ := rate_unit hn h0 (hss.trans h1)
  obtain ⟨hp0', hp1'⟩ := rate_unit hn (h0.trans hss) h1
  exact ⟨hbounds.lower_mono hbounds' hle' (hbounds.contains hk hp0 hp1).1 hrate,
    hbounds.upper_mono hbounds' hle (hbounds'.contains hk hp0' hp1').2 hrate⟩

/-- The gates over an interval that was computed. -/
theorem lowConfidence_eq {minN : ℤ} (minLower maxUpper : ℝ) (hmin : minN ≤ records.length)
    (h : wilsonCi Real.sqrt (winCount records) records.length = .ok (l, u)) :
    lowConfidence Real.sqrt records minN minLower maxUpper =
      .ok (decide (l < minLower ∨ u < maxUpper)) := by
  unfold lowConfidence
  simp only [if_neg (not_lt.mpr hmin), h, ok_bind]
  by_cases hl : l < minLower
  · rw [if_pos hl, decide_eq_true (Or.inl hl)]
    rfl
  · rw [if_neg hl]
    by_cases hu : u < maxUpper
    · rw [if_pos hu, decide_eq_true (Or.inr hu)]
      rfl
    · rw [if_neg hu, decide_eq_false (not_or.mpr ⟨hl, hu⟩)]
      rfl

/-- Of no record the interval says nothing. -/
theorem exists_wilsonCi (records : List SignalRecord) :
    ∃ l u : ℝ, wilsonCi Real.sqrt (winCount records) records.length = .ok (l, u) := by
  by_cases hnil : records.length = 0
  · exact ⟨0, 1, by simp [wilsonCi, hnil]; rfl⟩
  · have hle := winCount_le records
    obtain ⟨l, u, h, -⟩ := wilsonCi_bounds (n := (records.length : ℤ)) (by omega) zForAlpha_default
      (Int.natCast_nonneg (winCount records)) (by exact_mod_cast hle)
    exact ⟨l, u, h⟩

/-- More wins among as many records never make a config uncertain. -/
theorem lowConfidence_antitone {minN : ℤ} {minLower maxUpper : ℝ}
    (hlen : records.length = records'.length) (hwins : winCount records ≤ winCount records') :
    ∃ low low', lowConfidence Real.sqrt records minN minLower maxUpper = .ok low ∧
      lowConfidence Real.sqrt records' minN minLower maxUpper = .ok low' ∧
      (low' = true → low = true) := by
  by_cases hmin : (records.length : ℤ) < minN
  · refine ⟨true, true, ?_, ?_, id⟩
    · simp only [lowConfidence, if_pos hmin]
      rfl
    · rw [hlen] at hmin
      simp only [lowConfidence, if_pos hmin]
      rfl
  · obtain ⟨l, u, h⟩ := exists_wilsonCi records
    obtain ⟨l', u', h'⟩ := exists_wilsonCi records'
    have heq := lowConfidence_eq minLower maxUpper (not_lt.mp hmin) h
    rw [hlen] at hmin h
    have heq' := lowConfidence_eq minLower maxUpper (not_lt.mp hmin) h'
    refine ⟨_, _, heq, heq', ?_⟩
    simp only [decide_eq_true_eq]
    have hle := winCount_le records'
    have hmono : l ≤ l' ∧ u ≤ u' := by
      by_cases hnil : records'.length = 0
      · have hboth : winCount records = winCount records' := by omega
        rw [hboth] at h
        obtain ⟨rfl, rfl⟩ := Prod.ext_iff.mp (Except.ok.inj (h.symm.trans h'))
        exact ⟨le_rfl, le_rfl⟩
      · exact wilsonCi_mono (by omega) zForAlpha_default (Int.natCast_nonneg _)
          (by exact_mod_cast hwins) (by exact_mod_cast hle) h h'
    rintro (hl | hu)
    · exact Or.inl (lt_of_le_of_lt hmono.1 hl)
    · exact Or.inr (lt_of_le_of_lt hmono.2 hu)

/-- The interval of a win rate contains it within the unit interval, mirrors with it and rises with
the wins, and so the gates over it open with the wins. -/
theorem wilsonCi_contains (hn : 1 ≤ n) (ha : zForAlpha alpha = .ok z) :
    (∀ s, 0 ≤ s → s ≤ n → ∃ l u : ℝ, wilsonCi Real.sqrt s n alpha = .ok (l, u) ∧
      0 ≤ l ∧ l ≤ s / n ∧ s / n ≤ u ∧ u ≤ 1 ∧
      wilsonCi Real.sqrt (n - s) n alpha = .ok (1 - u, 1 - l)) ∧
    (∀ (s s' : ℤ) (l u l' u' : ℝ), 0 ≤ s → s ≤ s' → s' ≤ n →
      wilsonCi Real.sqrt s n alpha = .ok (l, u) → wilsonCi Real.sqrt s' n alpha = .ok (l', u') →
      l ≤ l' ∧ u ≤ u') ∧
    ∀ (records records' : List SignalRecord) (minN : ℤ) (minLower maxUpper : ℝ),
      records.length = records'.length → winCount records ≤ winCount records' →
      ∃ low low', lowConfidence Real.sqrt records minN minLower maxUpper = .ok low ∧
        lowConfidence Real.sqrt records' minN minLower maxUpper = .ok low' ∧
        (low' = true → low = true) := by
  refine ⟨?_, fun s s' l u l' u' => wilsonCi_mono hn ha, fun _ _ _ _ _ => lowConfidence_antitone⟩
  intro s h0 h1
  have hn' : (0 : ℝ) < n := by exact_mod_cast hn
  have hk : (0 : ℝ) ≤ z * z / n := div_nonneg (mul_self_nonneg _) hn'.le
  obtain ⟨hp0, hp1⟩ := rate_unit hn h0 h1
  obtain ⟨l, u, h, hbounds, hlu, hl0, hu1⟩ := wilsonCi_bounds hn ha h0 h1
  obtain ⟨hlp, hpu⟩ := hbounds.contains hk hp0 hp1
  refine ⟨l, u, h, hl0, hlp, hpu, hu1, ?_⟩
  obtain ⟨l', u', h', hbounds', hlu', -⟩ :=
    wilsonCi_bounds hn ha (sub_nonneg.mpr h1) (sub_le_self n h0)
  have hrate : ((n - s : ℤ) / n : ℝ) = 1 - s / n := by
    rw [Int.cast_sub, sub_div, div_self hn'.ne']
  rw [hrate] at hbounds'
  obtain ⟨rfl, rfl⟩ := hbounds'.unique hbounds.mirror hlu'
  exact h'

theorem ten_contains :
    (∀ s, 0 ≤ s → s ≤ 10 → ∃ l u : ℝ, wilsonCi Real.sqrt s 10 (1 / 100) = .ok (l, u) ∧
      0 ≤ l ∧ l ≤ s / (10 : ℤ) ∧ s / (10 : ℤ) ≤ u ∧ u ≤ 1 ∧
      wilsonCi Real.sqrt (10 - s) 10 (1 / 100) = .ok (1 - u, 1 - l)) ∧
    (∀ (s s' : ℤ) (l u l' u' : ℝ), 0 ≤ s → s ≤ s' → s' ≤ 10 →
      wilsonCi Real.sqrt s 10 (1 / 100) = .ok (l, u) →
      wilsonCi Real.sqrt s' 10 (1 / 100) = .ok (l', u') → l ≤ l' ∧ u ≤ u') ∧
    ∀ (records records' : List SignalRecord) (minN : ℤ) (minLower maxUpper : ℝ),
      records.length = records'.length → winCount records ≤ winCount records' →
      ∃ low low', lowConfidence Real.sqrt records minN minLower maxUpper = .ok low ∧
        lowConfidence Real.sqrt records' minN minLower maxUpper = .ok low' ∧
        (low' = true → low = true) :=
  wilsonCi_contains (z := 25758 / 10000) (by norm_num) (by decide +kernel)

end Pyharmonics.Bench
