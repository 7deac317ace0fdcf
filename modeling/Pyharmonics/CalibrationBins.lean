import Pyharmonics.CalibrationError

/-! Where the bins put the predictions, and what their error can be. -/
namespace Pyharmonics.Loop

open Groups Sorting

variable {ν : Type} [Field ν] [LinearOrder ν] [IsStrictOrderedRing ν] [FloorRing ν]
  {E : Elementary ν} {pairs pairs' : List (ν × Bool)} {nBins k : ℕ} {x c : ν} {xs : List ν}
  {params : Option (CalibrationParams ν)}

/-- The predictions: the scores themselves, or what parameters make of them. -/
def predicted (E : Elementary ν) (params : Option (CalibrationParams ν))
    (pairs : List (ν × Bool)) : List (ν × Bool) :=
  match params with
  | none => pairs
  | some params => predictions E (params.a, params.b) pairs

/-- `expected_calibration_error` -/
def calibrationErrorOf (E : Elementary ν) (pairs : List (ν × Bool))
    (params : Option (CalibrationParams ν)) (nBins : ℕ) : Except PyError ν :=
  if pairs = [] then .ok 0
  else do
    let transformed ← match params with
      | none => .ok pairs
      | some params => pairs.mapM fun pair => do return (← params.apply E pair.1, pair.2)
    return calibrationError transformed nBins

/-- A number is in a bin: the bins are of one width, each without its upper end but the last. -/
structure InBin (nBins k : ℕ) (x : ν) : Prop where
  lower : (k : ν) / nBins ≤ x
  upper : x ≤ ((k + 1 : ℕ) : ν) / nBins
  below : k + 1 < nBins → x < ((k + 1 : ℕ) : ν) / nBins

/-- Every pair is in one bin, the bins are reported in their order, and the mean of each is a
number of the bin. -/
structure Binned (pairs : List (ν × Bool)) (nBins : ℕ) : Prop where
  once : ((List.range nBins).flatMap (members (binOf nBins) pairs)).Perm pairs
  reported : binPredictions pairs nBins =
    (((List.range nBins).map (members (binOf nBins) pairs)).filter (· ≠ [])).map binStats
  counts : ((binPredictions pairs nBins).map BinStats.count).sum = pairs.length
  means : ∀ k < nBins, members (binOf nBins) pairs k ≠ [] →
    InBin nBins k (binStats (members (binOf nBins) pairs k)).meanPred

theorem inBin_binOf {pair : ν × Bool} (h : 1 ≤ nBins) (hscore : IsScore pair.1) :
    InBin nBins (binOf nBins pair) pair.1 := by
  have hn : (0 : ν) < nBins := by exact_mod_cast h
  rw [IsScore, not_or, not_lt, not_lt] at hscore
  obtain ⟨h0, h1⟩ := hscore
  have hlow : (⌊pair.1 * nBins⌋₊ : ν) ≤ pair.1 * nBins := Nat.floor_le (by positivity)
  have hhigh : pair.1 * nBins < ((⌊pair.1 * nBins⌋₊ + 1 : ℕ) : ν) := by
    push_cast
    exact Nat.lt_floor_add_one _
  have hle : pair.1 * nBins ≤ nBins := mul_le_of_le_one_left hn.le h1
  by_cases hlast : ⌊pair.1 * nBins⌋₊ ≤ nBins - 1
  · rw [binOf, min_eq_left hlast]
    exact ⟨(div_le_iff₀ hn).mpr hlow, (le_div_iff₀ hn).mpr hhigh.le,
      fun _ => (lt_div_iff₀ hn).mpr hhigh⟩
  · -- only 1 itself is clamped
    rw [binOf, min_eq_right (not_le.mp hlast).le]
    have hsucc : nBins - 1 + 1 = nBins := Nat.sub_add_cancel h
    have hcast : (nBins : ν) ≤ ⌊pair.1 * nBins⌋₊ := by
      exact_mod_cast (by omega : nBins ≤ ⌊pair.1 * nBins⌋₊)
    refine ⟨(div_le_iff₀ hn).mpr ?_, ?_, fun hlt => absurd hlt (by omega)⟩
    · exact (Nat.cast_le.mpr (Nat.sub_le _ _)).trans (hcast.trans hlow)
    · rw [hsucc, div_self hn.ne']
      exact h1

theorem le_mean (hne : xs ≠ []) (h : ∀ x ∈ xs, c ≤ x) : c ≤ xs.sum / xs.length := by
  have hlen : (0 : ν) < xs.length := by exact_mod_cast List.length_pos_iff.mpr hne
  rw [le_div_iff₀ hlen, mul_comm, ← nsmul_eq_mul]
  exact List.card_nsmul_le_sum xs c h

theorem mean_le (hne : xs ≠ []) (h : ∀ x ∈ xs, x ≤ c) : xs.sum / xs.length ≤ c := by
  have hlen : (0 : ν) < xs.length := by exact_mod_cast List.length_pos_iff.mpr hne
  rw [div_le_iff₀ hlen, mul_comm, ← nsmul_eq_mul]
  exact List.sum_le_card_nsmul xs c h

theorem mean_lt (hne : xs ≠ []) (h : ∀ x ∈ xs, x < c) : xs.sum / xs.length < c := by
  have hlen : (0 : ν) < xs.length := by exact_mod_cast List.length_pos_iff.mpr hne
  have hsum := List.sum_lt_sum_of_ne_nil hne id (fun _ => c) h
  rw [div_lt_iff₀ hlen, mul_comm, ← nsmul_eq_mul]
  simpa using hsum

/-- A bin is convex. -/
theorem inBin_mean (hne : xs ≠ []) (h : ∀ x ∈ xs, InBin nBins k x) :
    InBin nBins k (xs.sum / xs.length) where
  lower := le_mean hne fun x hx => (h x hx).lower
  upper := mean_le hne fun x hx => (h x hx).upper
  below hlt := mean_lt hne fun x hx => (h x hx).below hlt

theorem inBin_meanPred (h : 1 ≤ nBins) (hscores : ∀ pair ∈ pairs, IsScore pair.1)
    (hne : members (binOf nBins) pairs k ≠ []) :
    InBin nBins k (binStats (members (binOf nBins) pairs k)).meanPred := by
  have hall : ∀ x ∈ (members (binOf nBins) pairs k).map Prod.fst, InBin nBins k x := by
    intro x hx
    obtain ⟨pair, hpair, rfl⟩ := List.mem_map.mp hx
    obtain ⟨hmem, hbin⟩ := List.mem_filter.mp hpair
    rw [← of_decide_eq_true hbin]
    exact inBin_binOf h (hscores pair hmem)
  have hmean := inBin_mean (by simpa using hne) hall
  rwa [List.length_map] at hmean

/-- The bins are sorted by their means as they are. -/
theorem binPredictions_eq (h : 1 ≤ nBins) (hscores : ∀ pair ∈ pairs, IsScore pair.1) :
    binPredictions pairs nBins =
      (((List.range nBins).map (members (binOf nBins) pairs)).filter (· ≠ [])).map binStats := by
  refine sortBy_of_pairwise ?_
  rw [List.filter_map, List.map_map, List.pairwise_map]
  refine (List.pairwise_lt_range.filter _).imp_of_mem fun {i j} hi hj hij => ?_
  obtain ⟨-, hi⟩ := List.mem_filter.mp hi
  obtain ⟨hjn, hj⟩ := List.mem_filter.mp hj
  have hi := inBin_meanPred h hscores (of_decide_eq_true hi)
  have hj := inBin_meanPred h hscores (of_decide_eq_true hj)
  have hle : (((i + 1 : ℕ) : ν)) / nBins ≤ (j : ν) / nBins :=
    div_le_div_of_nonneg_right (Nat.cast_le.mpr hij) (Nat.cast_nonneg _)
  exact hi.upper.trans (hle.trans hj.lower)

theorem binned (h : 1 ≤ nBins) (hscores : ∀ pair ∈ pairs, IsScore pair.1) :
    Binned pairs nBins where
  once := flatMap_members_perm List.nodup_range fun pair _ =>
    List.mem_range.mpr (binOf_lt h pair)
  reported := binPredictions_eq h hscores
  counts := counts_sum h
  means _ _ hne := inBin_meanPred h hscores hne

/-- A sum of differences of at most 1. -/
theorem abs_sum_le_length {α : Type} {f : α → ν} {l : List α} (h : ∀ a ∈ l, |f a| ≤ 1) :
    |(l.map f).sum| ≤ l.length := by
  induction l with
  | nil => simp
  | cons a l ih =>
    rw [List.map_cons, List.sum_cons, List.length_cons, Nat.cast_succ, add_comm (l.length : ν)]
    have hrest := ih fun b hb => h b (List.mem_cons_of_mem a hb)
    exact (abs_add_le _ _).trans (add_le_add (h a List.mem_cons_self) hrest)

omit [FloorRing ν] in
theorem abs_sub_label_le {p : ν} (hscore : IsScore p) (label : Bool) :
    |p - labelValue label| ≤ 1 := by
  rw [IsScore, not_or, not_lt, not_lt] at hscore
  cases label <;> rw [labelValue, abs_le] <;> constructor <;> simp <;> linarith

theorem misfit_le (h : 1 ≤ nBins) (hscores : ∀ pair ∈ pairs, IsScore pair.1) :
    misfit nBins pairs ≤ pairs.length := by
  have hbins : misfit nBins pairs ≤
      ((List.range nBins).map fun k => ((members (binOf nBins) pairs k).length : ν)).sum := by
    refine List.sum_le_sum fun k _ => abs_sum_le_length fun pair hpair => ?_
    exact abs_sub_label_le (hscores pair (List.mem_filter.mp hpair).1) _
  have hsum : ((List.range nBins).map fun k => (members (binOf nBins) pairs k).length).sum =
      pairs.length :=
    sum_members List.nodup_range fun pair _ => List.mem_range.mpr (binOf_lt h pair)
  rw [← hsum, Nat.cast_list_sum, List.map_map]
  exact hbins

theorem misfit_eq_zero (h : ∀ pair ∈ pairs, pair.1 = labelValue pair.2) :
    misfit nBins pairs = 0 := by
  refine List.sum_eq_zero fun x hx => ?_
  obtain ⟨k, -, rfl⟩ := List.mem_map.mp hx
  have hzero : ((members (binOf nBins) pairs k).map fun pair =>
      pair.1 - labelValue pair.2).sum = 0 := by
    refine List.sum_eq_zero fun y hy => ?_
    obtain ⟨pair, hpair, rfl⟩ := List.mem_map.mp hy
    exact sub_eq_zero.mpr (h pair (List.mem_filter.mp hpair).1)
  rw [hzero, abs_zero]

omit [IsStrictOrderedRing ν] in
theorem misfit_perm (h : pairs.Perm pairs') : misfit nBins pairs = misfit nBins pairs' := by
  rw [misfit, misfit]
  congr 1
  refine List.map_congr_left fun k _ => ?_
  rw [((members_perm h k).map _).sum_eq]

omit [IsStrictOrderedRing ν] in
theorem isScore_platt (θ : ν × ν) (raw : ν) : IsScore (platt E θ raw) := by
  rw [IsScore, not_or, not_lt, not_lt, platt]
  exact ⟨le_max_left _ _, max_le zero_le_one (min_le_left _ _)⟩

omit [IsStrictOrderedRing ν] in
theorem isScore_predicted (E : Elementary ν) (params : Option (CalibrationParams ν))
    (hscores : ∀ pair ∈ pairs, IsScore pair.1) :
    ∀ pair ∈ predicted E params pairs, IsScore pair.1 := by
  cases params with
  | none => exact hscores
  | some params =>
    intro pair hpair
    obtain ⟨raw, -, rfl⟩ := List.mem_map.mp hpair
    exact isScore_platt _ _

omit [IsStrictOrderedRing ν] [FloorRing ν] in
theorem length_predicted (E : Elementary ν) (params : Option (CalibrationParams ν)) :
    (predicted E params pairs).length = pairs.length := by
  cases params with
  | none => rfl
  | some params => exact List.length_map _

omit [IsStrictOrderedRing ν] [FloorRing ν] in
theorem predicted_perm (h : pairs.Perm pairs') :
    (predicted E params pairs).Perm (predicted E params pairs') := by
  cases params with
  | none => exact h
  | some params => exact h.map _

/-- In the domain nothing raises, and the error is the misfit by the number of pairs. -/
theorem calibrationErrorOf_eq (h : 1 ≤ nBins) (hscores : ∀ pair ∈ pairs, IsScore pair.1) :
    calibrationErrorOf E pairs params nBins =
      .ok (misfit nBins (predicted E params pairs) / pairs.length) := by
  rw [calibrationErrorOf]
  by_cases hnil : pairs = []
  · rw [if_pos hnil, hnil, List.length_nil, Nat.cast_zero, div_zero]
  · rw [if_neg hnil, ← length_predicted E params, ← calibrationError_eq h]
    cases params with
    | none => rfl
    | some params =>
      have hmap : pairs.mapM (fun pair => do return (← params.apply E pair.1, pair.2)) =
          .ok (predicted E (some params) pairs) := by
        refine mapM_ok fun pair hpair => ?_
        rw [CalibrationParams.apply, if_neg (hscores pair hpair)]
        rfl
      simp only [hmap]
      rfl

omit [IsStrictOrderedRing ν] in
/-- The error with ten bins is the one a calibration is returned with. -/
theorem calibrationErrorOf_ten (params : CalibrationParams ν) :
    calibrationErrorOf E pairs (some params) 10 = expectedCalibrationError E pairs params := rfl

/-- The predictions are binned, each in one bin, and their error is from 0 to 1, 0 where the
predictions are the labels, and the same in any order of the pairs. -/
theorem calibrationErrorOf_sound (E : Elementary ν) (params : Option (CalibrationParams ν))
    (h : 1 ≤ nBins) (hscores : ∀ pair ∈ pairs, IsScore pair.1) :
    Binned (predicted E params pairs) nBins ∧
      ∃ ece, calibrationErrorOf E pairs params nBins = .ok ece ∧ 0 ≤ ece ∧ ece ≤ 1 ∧
        ((∀ pair ∈ predicted E params pairs, pair.1 = labelValue pair.2) → ece = 0) ∧
        ∀ pairs', pairs.Perm pairs' → calibrationErrorOf E pairs' params nBins = .ok ece := by
  have hpredicted := isScore_predicted E params hscores
  refine ⟨binned h hpredicted, _, calibrationErrorOf_eq h hscores, ?_, ?_, ?_, ?_⟩
  · exact div_nonneg misfit_nonneg (Nat.cast_nonneg _)
  · refine div_le_one_of_le₀ ?_ (Nat.cast_nonneg _)
    rw [← length_predicted E params]
    exact misfit_le h hpredicted
  · intro hzero
    rw [misfit_eq_zero hzero, zero_div]
  · intro pairs' hperm
    rw [calibrationErrorOf_eq h fun pair hpair => hscores pair (hperm.mem_iff.mpr hpair),
      misfit_perm (predicted_perm hperm), hperm.length_eq]

/-- Predictions on the edges of two bins. -/
theorem calibrationErrorOf_edges :
    Binned [((0 : ℝ), false), (1 / 2, false), (1, true)] 2 ∧
      ∃ ece, calibrationErrorOf mathElementary [((0 : ℝ), false), (1 / 2, false), (1, true)]
        none 2 = .ok ece ∧ 0 ≤ ece ∧ ece ≤ 1 := by
  have hscores : ∀ pair ∈ [((0 : ℝ), false), (1 / 2, false), (1, true)], IsScore pair.1 := by
    norm_num [IsScore]
  obtain ⟨hbinned, ece, hece, h0, h1, -⟩ :=
    calibrationErrorOf_sound mathElementary none (by decide : 1 ≤ 2) hscores
  exact ⟨hbinned, ece, hece, h0, h1⟩

end Pyharmonics.Loop
