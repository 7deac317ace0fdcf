import Mathlib.Analysis.Complex.ExponentialBounds
import Mathlib.Analysis.SpecialFunctions.Log.Basic
import Mathlib.Analysis.SpecialFunctions.Pow.Real
import Mathlib.Analysis.SpecialFunctions.Sqrt
import Pyharmonics.Calibration

/-! The error a fitted calibration is returned with. -/
namespace Pyharmonics.Loop

open Groups Sorting

section

variable {ν : Type} [Field ν] [LinearOrder ν] [IsStrictOrderedRing ν] [FloorRing ν]
  {E : Elementary ν} {pairs : List (ν × Bool)} {θ θ' : ν × ν} {lr tol : ν} {n k : ℕ}
  {params : CalibrationParams ν} {e : PyError} {maxIter : ℕ}

/-- The halvings are those of the steps above `1e-6`. -/
theorem lt_halvings_iff : k < halvings lr ↔ 1 / 10 ^ 6 < lr / 2 ^ k := by
  rw [halvings, Nat.lt_clog_iff_pow_lt (by omega), Nat.lt_ceil, div_lt_div_iff₀ (by positivity)
    (by positivity), one_mul]
  push_cast
  rfl

/-- The end of the descent: after so many steps, where it is flat or where no step is taken. Each
step is the largest of the halved ones that does not raise the loss. -/
inductive DescentEnd (E : Elementary ν) (pairs : List (ν × Bool)) (lr tol : ν) :
    ℕ → ν × ν → ν × ν → Prop
  | spent {θ : ν × ν} : DescentEnd E pairs lr tol 0 θ θ
  | flat {n : ℕ} {θ : ν × ν} : Flat E pairs tol θ → DescentEnd E pairs lr tol (n + 1) θ θ
  | stuck {n : ℕ} {θ : ν × ν} : ¬ Flat E pairs tol θ →
      (∀ k, 1 / 10 ^ 6 < lr / 2 ^ k →
        logLoss E θ pairs < logLoss E (stepTo E pairs θ (lr / 2 ^ k)) pairs) →
      DescentEnd E pairs lr tol (n + 1) θ θ
  | step {n k : ℕ} {θ θ' : ν × ν} : ¬ Flat E pairs tol θ → 1 / 10 ^ 6 < lr / 2 ^ k →
      logLoss E (stepTo E pairs θ (lr / 2 ^ k)) pairs ≤ logLoss E θ pairs →
      (∀ j < k, logLoss E θ pairs < logLoss E (stepTo E pairs θ (lr / 2 ^ j)) pairs) →
      DescentEnd E pairs lr tol n (stepTo E pairs θ (lr / 2 ^ k)) θ' →
      DescentEnd E pairs lr tol (n + 1) θ θ'

theorem backtrack_eq_none : backtrack E pairs θ lr = none ↔ ∀ k, 1 / 10 ^ 6 < lr / 2 ^ k →
    logLoss E θ pairs < logLoss E (stepTo E pairs θ (lr / 2 ^ k)) pairs := by
  simp only [backtrack, List.find?_eq_none, List.forall_mem_map, List.mem_range, lt_halvings_iff,
    decide_eq_true_eq, not_le]

theorem backtrack_eq_some : backtrack E pairs θ lr = some θ' ↔
    ∃ k, θ' = stepTo E pairs θ (lr / 2 ^ k) ∧ 1 / 10 ^ 6 < lr / 2 ^ k ∧
      logLoss E (stepTo E pairs θ (lr / 2 ^ k)) pairs ≤ logLoss E θ pairs ∧
      ∀ j < k, logLoss E θ pairs < logLoss E (stepTo E pairs θ (lr / 2 ^ j)) pairs := by
  rw [backtrack, List.find?_eq_some_iff_getElem]
  simp only [List.getElem_map, List.getElem_range, List.length_map, List.length_range,
    decide_eq_true_eq, Bool.not_eq_eq_eq_not, Bool.not_true, decide_eq_false_iff_not, not_le]
  constructor
  · rintro ⟨hle, k, hk, rfl, hbefore⟩
    exact ⟨k, rfl, lt_halvings_iff.mp hk, hle, hbefore⟩
  · rintro ⟨k, rfl, hk, hle, hbefore⟩
    exact ⟨hle, k, lt_halvings_iff.mpr hk, rfl, hbefore⟩

theorem descentEnd_iff : DescentEnd E pairs lr tol n θ θ' ↔ descend E pairs lr tol n θ = θ' := by
  constructor
  · intro h
    induction h with
    | spent => rfl
    | flat hflat => rw [descend, if_pos hflat]
    | stuck hflat hstuck => rw [descend, if_neg hflat, backtrack_eq_none.mpr hstuck]
    | step hflat hk hle hbefore _ ih =>
      rw [descend, if_neg hflat, backtrack_eq_some.mpr ⟨_, rfl, hk, hle, hbefore⟩]
      exact ih
  · rintro rfl
    induction n generalizing θ with
    | zero => exact .spent
    | succ n ih =>
      rw [descend]
      by_cases hflat : Flat E pairs tol θ
      · rw [if_pos hflat]
        exact .flat hflat
      · rw [if_neg hflat]
        cases hb : backtrack E pairs θ lr with
        | none => exact .stuck hflat (backtrack_eq_none.mp hb)
        | some θ' =>
          obtain ⟨k, rfl, hk, hle, hbefore⟩ := backtrack_eq_some.mp hb
          exact .step hflat hk hle hbefore ih

/-- The predictions of a point. -/
def predictions (E : Elementary ν) (θ : ν × ν) (pairs : List (ν × Bool)) : List (ν × Bool) :=
  pairs.map fun pair => (platt E θ pair.1, pair.2)

/-- The score is in the range of a probability. -/
def IsScore (raw : ν) : Prop := ¬ (raw < 0 ∨ 1 < raw)

/-- What predictions and labels differ by in a bin, summed over the bins. -/
def misfit (nBins : ℕ) (pairs : List (ν × Bool)) : ν :=
  ((List.range nBins).map fun k =>
    |((members (binOf nBins) pairs k).map fun pair => pair.1 - labelValue pair.2).sum|).sum

omit [IsStrictOrderedRing ν] in
theorem binOf_lt {nBins : ℕ} (h : 0 < nBins) (pair : ν × Bool) : binOf nBins pair < nBins := by
  unfold binOf
  omega

omit [IsStrictOrderedRing ν] in
theorem counts_sum {nBins : ℕ} (h : 0 < nBins) :
    ((binPredictions pairs nBins).map BinStats.count).sum = pairs.length := by
  have hkept : ∀ ks : List ℕ, ((((ks.map fun k => members (binOf nBins) pairs k).filter
      (· ≠ [])).map binStats).map BinStats.count).sum =
        (ks.map fun k => (members (binOf nBins) pairs k).length).sum := by
    intro ks
    induction ks with
    | nil => rfl
    | cons k ks ih =>
      rw [List.map_cons, List.filter_cons, List.map_cons, List.sum_cons, ← ih]
      by_cases hnil : members (binOf nBins) pairs k = []
      · simp [hnil]
      · simp [hnil, binStats]
  rw [binPredictions, ((sortBy_perm _ _).map _).sum_eq, hkept]
  exact sum_members List.nodup_range fun pair _ => List.mem_range.mpr (binOf_lt h pair)

/-- The share of a bin in the error. -/
theorem bin_share {bin : List (ν × Bool)} (hne : bin ≠ []) (n : ν) :
    ((binStats bin).count : ν) / n * |(binStats bin).meanPred - (binStats bin).freq| =
      |(bin.map fun pair => pair.1 - labelValue pair.2).sum| / n := by
  have hlen : (0 : ν) < bin.length := by exact_mod_cast List.length_pos_iff.mpr hne
  have hsum : (bin.map fun pair => pair.1 - labelValue pair.2).sum =
      (bin.map Prod.fst).sum - (bin.map fun pair => labelValue pair.2).sum := by
    clear hne hlen
    induction bin with
    | nil => simp
    | cons pair bin ih =>
      simp only [List.map_cons, List.sum_cons, ih]
      ring
  rw [hsum, binStats, ← sub_div, abs_div, abs_of_pos hlen]
  field_simp

theorem calibrationError_eq {nBins : ℕ} (h : 0 < nBins) :
    calibrationError pairs nBins = misfit nBins pairs / pairs.length := by
  have hkept : ∀ ks : List ℕ, ((((ks.map fun k => members (binOf nBins) pairs k).filter
      (· ≠ [])).map binStats).map fun bin : BinStats ν =>
        (bin.count : ν) / (pairs.length : ℕ) * |bin.meanPred - bin.freq|).sum =
      (ks.map fun k => |((members (binOf nBins) pairs k).map fun pair =>
        pair.1 - labelValue pair.2).sum|).sum / pairs.length := by
    intro ks
    induction ks with
    | nil => simp
    | cons k ks ih =>
      rw [List.map_cons, List.filter_cons, List.map_cons, List.sum_cons, add_div, ← ih]
      by_cases hnil : members (binOf nBins) pairs k = []
      · simp [hnil]
      · rw [← bin_share hnil]
        simp [hnil]
  rw [calibrationError, counts_sum h, binPredictions, ((sortBy_perm _ _).map _).sum_eq, hkept]
  rfl

theorem expectedCalibrationError_ok (hne : pairs ≠ []) (hraw : ∀ pair ∈ pairs, IsScore pair.1) :
    expectedCalibrationError E pairs params =
      .ok (misfit 10 (predictions E (params.a, params.b) pairs) / pairs.length) := by
  have hmap : pairs.mapM (fun pair => do return (← params.apply E pair.1, pair.2)) =
      .ok (predictions E (params.a, params.b) pairs) := by
    apply mapM_ok
    intro pair hpair
    rw [CalibrationParams.apply, if_neg (hraw pair hpair)]
    rfl
  rw [expectedCalibrationError, if_neg hne, hmap, ok_bind, calibrationError_eq (by omega),
    predictions, List.length_map]
  rfl

omit [IsStrictOrderedRing ν] in
/-- A score that is no probability raises. -/
theorem expectedCalibrationError_error (hraw : ¬ ∀ pair ∈ pairs, IsScore pair.1) :
    ∃ m got, expectedCalibrationError E pairs params = .error (.valueError m got) := by
  have hne : pairs ≠ [] := by
    rintro rfl
    exact hraw nofun
  rw [expectedCalibrationError, if_neg hne]
  cases hmap : pairs.mapM (fun pair => do return (← params.apply E pair.1, pair.2)) with
  | ok out =>
    refine absurd ?_ hraw
    intro pair hpair
    obtain ⟨out', h⟩ := returns_mapM.mp ⟨out, hmap⟩ pair hpair
    obtain ⟨p, hp, -⟩ := bind_ok.mp h
    rw [CalibrationParams.apply] at hp
    split_ifs at hp with hscore
    exact hscore
  | error e =>
    obtain ⟨m, got, rfl⟩ := @mapM_error _ _ _ (fun e => ∃ m got, e = .valueError m got) _ (by
      intro pair _ e he
      rw [CalibrationParams.apply] at he
      split_ifs at he
      · cases he
        exact ⟨_, _, rfl⟩
      · cases he) e hmap
    exact ⟨m, got, rfl⟩

/-- All labels are the same. -/
def OneSided (pairs : List (ν × Bool)) : Prop :=
  (∀ pair ∈ pairs, pair.2 = true) ∨ ∀ pair ∈ pairs, pair.2 = false

theorem misfit_nonneg : 0 ≤ misfit n pairs := by
  apply List.sum_nonneg
  intro x hx
  obtain ⟨k, -, rfl⟩ := List.mem_map.mp hx
  exact abs_nonneg _

omit [Field ν] [LinearOrder ν] [IsStrictOrderedRing ν] [FloorRing ν] in
theorem oneSided_iff : OneSided pairs ↔
    pairs.countP (fun pair => pair.2) = 0 ∨ pairs.countP (fun pair => !pair.2) = 0 := by
  rw [OneSided, List.countP_eq_zero, List.countP_eq_zero, or_comm]
  simp

omit [IsStrictOrderedRing ν] [FloorRing ν] in
theorem init_ok {a b ece : ν} (h : 0 ≤ ece) : CalibrationParams.init a b ece (n : ℤ) =
    .ok { a := a, b := b, ece := ece, nSamples := n, ece_nonneg := h
          nSamples_nonneg := Int.natCast_nonneg n } := by
  rw [CalibrationParams.init, dif_pos (Int.natCast_nonneg n), dif_pos h]

omit [IsStrictOrderedRing ν] in
theorem calibrate_error (h : OneSided pairs ∨ ¬ ∀ pair ∈ pairs, IsScore pair.1) :
    ∃ m got, calibrate E pairs maxIter = .error (.valueError m got) := by
  unfold calibrate
  by_cases hnil : pairs = []
  · rw [if_pos hnil]
    exact ⟨_, _, rfl⟩
  rw [if_neg hnil]
  by_cases hsided : OneSided pairs
  · rw [if_pos (oneSided_iff.mp hsided)]
    exact ⟨_, _, rfl⟩
  · obtain ⟨m, got, herror⟩ := @expectedCalibrationError_error _ _ _ _ E pairs
      { a := (fitPlatt E pairs maxIter).1, b := (fitPlatt E pairs maxIter).2, ece := 0
        nSamples := pairs.length, ece_nonneg := le_rfl, nSamples_nonneg := Int.natCast_nonneg _ }
      (h.resolve_left hsided)
    rw [if_neg (oneSided_iff.not.mp hsided)]
    refine ⟨m, got, ?_⟩
    dsimp only
    rw [init_ok le_rfl, ok_bind, herror]
    rfl

theorem calibrate_ok (hsided : ¬ OneSided pairs) (hraw : ∀ pair ∈ pairs, IsScore pair.1) :
    ∃ params, calibrate E pairs maxIter = .ok params ∧
      (params.a, params.b) = fitPlatt E pairs maxIter ∧
      expectedCalibrationError E pairs params = .ok params.ece ∧
      params.ece = misfit 10 (predictions E (fitPlatt E pairs maxIter) pairs) / pairs.length := by
  have hnil : pairs ≠ [] := by
    rintro rfl
    exact hsided (.inl nofun)
  have hece : 0 ≤ misfit 10 (predictions E (fitPlatt E pairs maxIter) pairs) / pairs.length :=
    div_nonneg misfit_nonneg (Nat.cast_nonneg _)
  refine ⟨⟨(fitPlatt E pairs maxIter).1, (fitPlatt E pairs maxIter).2,
    misfit 10 (predictions E (fitPlatt E pairs maxIter) pairs) / pairs.length, pairs.length, 1 / 10,
    hece, Int.natCast_nonneg _⟩, ?_, rfl, ?_, rfl⟩
  · unfold calibrate
    rw [if_neg hnil, if_neg (oneSided_iff.not.mp hsided)]
    dsimp only
    rw [init_ok le_rfl, ok_bind, expectedCalibrationError_ok hnil hraw, ok_bind, makeCalibration,
      init_ok hece]
  · exact expectedCalibrationError_ok hnil hraw

/-- What is documented: a calibration is returned with a small error, or rejected. -/
structure Rejecting (E : Elementary ν) (pairs : List (ν × Bool)) (maxIter : ℕ) : Prop where
  returned : ∀ params, calibrate E pairs maxIter = .ok params →
    ∃ ece, expectedCalibrationError E pairs params = .ok ece ∧ ece < 1 / 10
  raised : ∀ e, calibrate E pairs maxIter = .error e → ∃ m got, e = .valueError m got
  history : ∀ e, calibrate E pairs = .error e → fitCalibrationFromHistory E pairs = .ok none

omit [IsStrictOrderedRing ν] in
theorem fitCalibrationFromHistory_error {m : String} {got : List ℚ}
    (h : calibrate E pairs = .error (.valueError m got)) :
    fitCalibrationFromHistory E pairs = .ok none := by
  rw [fitCalibrationFromHistory, h, ite_self]

/-- The error of a calibration is below a tenth when the misfit is. -/
theorem small_error_iff (hne : pairs ≠ []) (x : ν) :
    x / pairs.length < 1 / 10 ↔ 10 * x < pairs.length := by
  have hlen : (0 : ν) < pairs.length := by exact_mod_cast List.length_pos_iff.mpr hne
  rw [div_lt_div_iff₀ hlen (by norm_num), one_mul, mul_comm]

theorem rejecting_iff : Rejecting E pairs maxIter ↔
    OneSided pairs ∨ (∃ pair ∈ pairs, ¬ IsScore pair.1) ∨
      10 * misfit 10 (predictions E (fitPlatt E pairs maxIter) pairs) < pairs.length := by
  by_cases hraises : OneSided pairs ∨ ¬ ∀ pair ∈ pairs, IsScore pair.1
  · refine iff_of_true ?_ ?_
    · obtain ⟨m, got, herror⟩ := @calibrate_error _ _ _ _ E pairs maxIter hraises
      obtain ⟨m', got', herror'⟩ := @calibrate_error _ _ _ _ E pairs 200 hraises
      refine ⟨fun params h => ?_, fun e h => ?_, fun _ _ => fitCalibrationFromHistory_error herror'⟩
      · rw [herror] at h
        cases h
      · rw [herror] at h
        cases h
        exact ⟨m, got, rfl⟩
    · refine hraises.imp_right fun hraw => .inl ?_
      push Not at hraw
      exact hraw
  · rw [not_or, not_not] at hraises
    obtain ⟨hsided, hraw⟩ := hraises
    have hne : pairs ≠ [] := by
      rintro rfl
      exact hsided (.inl nofun)
    have hscores : ¬ ∃ pair ∈ pairs, ¬ IsScore pair.1 := by
      push Not
      exact hraw
    obtain ⟨params, hok, -, herror, hece⟩ := @calibrate_ok _ _ _ _ _ E pairs maxIter hsided hraw
    obtain ⟨params', hok', -⟩ := @calibrate_ok _ _ _ _ _ E pairs 200 hsided hraw
    simp only [hsided, hscores, false_or]
    rw [← small_error_iff hne, ← hece]
    constructor
    · intro h
      obtain ⟨ece, hrated, hlt⟩ := h.returned params hok
      rw [herror] at hrated
      cases hrated
      exact hlt
    · intro hlt
      refine ⟨fun q hq => ?_, fun e he => ?_, fun e he => ?_⟩
      · rw [hok] at hq
        cases hq
        exact ⟨_, herror, hlt⟩
      · rw [hok] at he
        cases he
      · rw [hok'] at he
        cases he

end

/-- The functions of `math` on the reals. -/
noncomputable def mathElementary : Elementary ℝ where
  exp := Real.exp
  log := Real.log
  sqrt := Real.sqrt
  pow x y := x ^ y

/-- Ten pairs with two scores, labelled apart. -/
def splitPairs (lower upper : ℝ) : List (ℝ × Bool) :=
  List.replicate 4 (lower, false) ++ List.replicate 6 (upper, true)

/-- The logistic by an exponential that is not below 1. -/
noncomputable def logistic (y : ℝ) : ℝ := Real.exp y / (1 + Real.exp y)

theorem logistic_eq (y : ℝ) : logistic y = 1 / (1 + (Real.exp y)⁻¹) := by
  have hpos := Real.exp_pos y
  rw [logistic]
  field_simp
  ring

theorem sigmoid_eq {z : ℝ} (hz : 0 ≤ z) : sigmoid mathElementary z = logistic z := by
  have hexp : mathElementary.exp (-z) = (Real.exp z)⁻¹ := Real.exp_neg z
  rw [sigmoid, if_pos hz, hexp, logistic_eq]

/-- The digits of the base leave its logarithm at 1, up to `1e-9`. -/
theorem log_eulerDigits : 1 - 1 / 10 ^ 9 ≤ Real.log eulerDigits ∧
    Real.log eulerDigits ≤ 1 + 1 / 10 ^ 9 := by
  have hpos : (0 : ℝ) < eulerDigits := by norm_num [eulerDigits]
  have hlow := Real.exp_one_gt_d9
  have hhigh := Real.exp_one_lt_d9
  have hstep := Real.add_one_le_exp (1 / 10 ^ 9 : ℝ)
  constructor
  · rw [Real.le_log_iff_exp_le hpos]
    have hsplit : Real.exp (1 - 1 / 10 ^ 9) * Real.exp (1 / 10 ^ 9) = Real.exp 1 := by
      rw [← Real.exp_add, sub_add_cancel]
    have hnonneg := Real.exp_pos (1 - 1 / 10 ^ 9)
    have hdigits : (eulerDigits : ℝ) = 2718281828459045 / 10 ^ 15 := rfl
    rw [hdigits]
    nlinarith
  · rw [Real.log_le_iff_le_exp hpos, Real.exp_add]
    have hdigits : (eulerDigits : ℝ) = 2718281828459045 / 10 ^ 15 := rfl
    rw [hdigits]
    nlinarith

theorem platt_eq {r : ℝ} (hr : 0 ≤ r) :
    platt mathElementary (1, 0) r = logistic (r * Real.log eulerDigits) := by
  have hbase : (0 : ℝ) < eulerDigits := by norm_num [eulerDigits]
  have hpow : mathElementary.pow eulerDigits (-(1 * r + 0)) =
      (Real.exp (r * Real.log eulerDigits))⁻¹ := by
    have hneg : mathElementary.pow eulerDigits (-(1 * r + 0)) = (eulerDigits : ℝ) ^ (-r) := by
      rw [one_mul, add_zero]
      rfl
    rw [hneg, Real.rpow_neg hbase.le, Real.rpow_def_of_pos hbase, mul_comm]
  have hpos := Real.exp_pos (r * Real.log eulerDigits)
  have hnonneg : 0 ≤ logistic (r * Real.log eulerDigits) := by
    rw [logistic]
    positivity
  have hle : logistic (r * Real.log eulerDigits) ≤ 1 := by
    rw [logistic, div_le_one (by linarith)]
    linarith
  have hz : (0 : ℝ) ≤ 1 * r + 0 := by linarith
  rw [platt]
  dsimp only
  rw [if_pos hz, hpow, ← logistic_eq, min_eq_right hle, max_eq_right hnonneg]

/-- The logistic between bounds that hold of the Taylor sums of the exponential. -/
theorem logistic_bounds {y z z' lo hi t u : ℝ} (hy : z ≤ y) (hy' : y ≤ z') (hz : 0 ≤ z)
    (hz' : z' ≤ 1) (ht : t ≤ ∑ m ∈ Finset.range 9, z ^ m / m.factorial)
    (hu : ∑ m ∈ Finset.range 9, z' ^ m / m.factorial + z' ^ 9 * (9 + 1) / (Nat.factorial 9 * 9) ≤ u)
    (hlo : lo * (1 + t) < t) (hhi : u < hi * (1 + u)) (hlo' : lo ≤ 1) (hhi' : hi ≤ 1) :
    lo < logistic y ∧ logistic y < hi := by
  have hpos := Real.exp_pos y
  have hlow : t ≤ Real.exp y :=
    (ht.trans (Real.sum_le_exp_of_nonneg hz 9)).trans (Real.exp_le_exp.mpr hy)
  have hhigh : Real.exp y ≤ u := by
    have hnonneg : 0 ≤ z' := hz.trans (hy.trans hy')
    refine (Real.exp_le_exp.mpr hy').trans ?_
    exact (Real.exp_bound' hnonneg hz' (n := 9) (by norm_num)).trans (mod_cast hu)
  rw [logistic, lt_div_iff₀ (by linarith), div_lt_iff₀ (by linarith)]
  constructor
  · nlinarith [mul_nonneg (sub_nonneg.mpr hlo') (sub_nonneg.mpr hlow)]
  · nlinarith [mul_nonneg (sub_nonneg.mpr hhi') (sub_nonneg.mpr hhigh)]

theorem lower_score {c : ℝ} (hc : 1 - 1 / 10 ^ 9 ≤ c) (hc' : c ≤ 1 + 1 / 10 ^ 9) :
    59999995 / 10 ^ 8 < logistic (405465 / 10 ^ 6 * c) ∧
      logistic (405465 / 10 ^ 6 * c) < 6 / 10 := by
  apply @logistic_bounds _ (405464999 / 10 ^ 9) (405465001 / 10 ^ 9) _ _ (14999997 / 10 ^ 7)
    (149999999 / 10 ^ 8)
  · linarith
  · linarith
  all_goals norm_num [Finset.sum_range_succ, Nat.factorial]

theorem upper_score {c : ℝ} (hc : 1 - 1 / 10 ^ 9 ≤ c) (hc' : c ≤ 1 + 1 / 10 ^ 9) :
    6 / 10 < logistic (405466 / 10 ^ 6 * c) ∧
      logistic (405466 / 10 ^ 6 * c) < 60000050 / 10 ^ 8 := by
  apply @logistic_bounds _ (405465999 / 10 ^ 9) (405466001 / 10 ^ 9) _ _ (1500001 / 10 ^ 6)
    (15000020 / 10 ^ 7)
  · linarith
  · linarith
  all_goals norm_num [Finset.sum_range_succ, Nat.factorial]

/-- The gradient at the identity vanishes up to the tolerance. -/
theorem splitPairs_flat :
    Flat mathElementary (splitPairs (405465 / 10 ^ 6) (405466 / 10 ^ 6)) (1 / 10 ^ 6) (1, 0) := by
  have hsig : ∀ r : ℝ, 0 ≤ r → sigmoid mathElementary (1 * r + 0) = logistic (r * 1) := by
    intro r hr
    rw [one_mul, add_zero, mul_one, sigmoid_eq hr]
  obtain ⟨hlow, hlow'⟩ := @lower_score 1 (by norm_num) (by norm_num)
  obtain ⟨hup, hup'⟩ := @upper_score 1 (by norm_num) (by norm_num)
  rw [← hsig _ (by norm_num)] at hlow hlow' hup hup'
  have hsums : grad mathElementary (1, 0) (splitPairs (405465 / 10 ^ 6) (405466 / 10 ^ 6)) =
      ((4 * (sigmoid mathElementary (1 * (405465 / 10 ^ 6) + 0) * (405465 / 10 ^ 6)) +
          6 * ((sigmoid mathElementary (1 * (405466 / 10 ^ 6) + 0) - 1) * (405466 / 10 ^ 6))) / 10,
        (4 * sigmoid mathElementary (1 * (405465 / 10 ^ 6) + 0) +
          6 * (sigmoid mathElementary (1 * (405466 / 10 ^ 6) + 0) - 1)) / 10) := by
    simp only [grad, splitPairs, List.map_append, List.map_replicate, List.sum_append,
      List.sum_replicate, nsmul_eq_mul, labelValue, List.length_append, List.length_replicate]
    norm_num
  unfold Flat
  rw [hsums]
  generalize sigmoid mathElementary (1 * (405465 / 10 ^ 6) + 0) = p at hlow hlow'
  generalize sigmoid mathElementary (1 * (405466 / 10 ^ 6) + 0) = q at hup hup'
  refine (Real.sqrt_lt' (by norm_num)).mpr ?_
  dsimp only
  have hsmall : ∀ x : ℝ, -(5 / 10 ^ 7) < x → x < 5 / 10 ^ 7 → x * x < 1 / (2 * 10 ^ 12) := by
    intro x h h'
    nlinarith
  have ha := hsmall ((4 * (p * (405465 / 10 ^ 6)) + 6 * ((q - 1) * (405466 / 10 ^ 6))) / 10)
    (by linarith) (by linarith)
  have hb := hsmall ((4 * p + 6 * (q - 1)) / 10) (by linarith) (by linarith)
  linarith

theorem splitPairs_fit :
    fitPlatt mathElementary (splitPairs (405465 / 10 ^ 6) (405466 / 10 ^ 6)) = (1, 0) :=
  if_pos splitPairs_flat

/-- The predictions miss the labels by 0.6 in one bin and by 0.4 in the next. -/
theorem splitPairs_misfit :
    4 < misfit 10 (predictions mathElementary (1, 0)
      (splitPairs (405465 / 10 ^ 6) (405466 / 10 ^ 6))) := by
  obtain ⟨hlog, hlog'⟩ := log_eulerDigits
  obtain ⟨hlow, hlow'⟩ := lower_score hlog hlog'
  obtain ⟨hup, hup'⟩ := upper_score hlog hlog'
  rw [← platt_eq (by norm_num)] at hlow hlow' hup hup'
  have hpred : predictions mathElementary (1, 0) (splitPairs (405465 / 10 ^ 6) (405466 / 10 ^ 6)) =
      List.replicate 4 (platt mathElementary (1, 0) (405465 / 10 ^ 6), false) ++
        List.replicate 6 (platt mathElementary (1, 0) (405466 / 10 ^ 6), true) := by
    simp only [predictions, splitPairs, List.map_append, List.map_replicate]
  rw [hpred]
  generalize platt mathElementary (1, 0) (405465 / 10 ^ 6) = p at hlow hlow'
  generalize platt mathElementary (1, 0) (405466 / 10 ^ 6) = q at hup hup'
  have hp : binOf 10 (p, false) = 5 := by
    have hfloor : ⌊p * (10 : ℕ)⌋₊ = 5 := by
      rw [Nat.cast_ofNat, Nat.floor_eq_iff (by linarith)]
      constructor <;> push_cast <;> linarith
    rw [binOf, hfloor]
    rfl
  have hq : binOf 10 (q, true) = 6 := by
    have hfloor : ⌊q * (10 : ℕ)⌋₊ = 6 := by
      rw [Nat.cast_ofNat, Nat.floor_eq_iff (by linarith)]
      constructor <;> push_cast <;> linarith
    rw [binOf, hfloor]
    rfl
  have hsum : misfit 10 (List.replicate 4 (p, false) ++ List.replicate 6 (q, true)) =
      |p + (p + (p + p))| + |q - 1 + (q - 1 + (q - 1 + (q - 1 + (q - 1 + (q - 1)))))| := by
    simp only [List.replicate]
    simp [misfit, members, List.range_succ, hp, hq, labelValue]
  rw [hsum, abs_of_pos (by linarith), abs_of_neg (by linarith)]
  linarith

theorem sigmoid_zero : sigmoid mathElementary 0 = 1 / 2 := by
  rw [sigmoid_eq le_rfl, logistic, Real.exp_zero]
  norm_num

theorem platt_zero : platt mathElementary (1, 0) 0 = 1 / 2 := by
  rw [platt_eq le_rfl, zero_mul, logistic, Real.exp_zero]
  norm_num

end Pyharmonics.Loop
