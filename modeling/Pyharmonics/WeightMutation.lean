import Pyharmonics.MutationFrame

/-! The confluence weights after any number of mutations. -/
namespace Pyharmonics.Loop

open Rounding TuningFields

variable {σ : Type*} {rng : Rng σ} {t : TuningConstants} {scale : ℚ} {s s' : σ}
  {target drift : ℤ} {es init : List (String × ℚ)} {scales : List ℚ}

/-- The member of the cluster map that mutates the weights. -/
def weightsMember : Member := .dictPerKey .confluenceWeights 5 .empty (some 100)

example : (defaultClusterMap.getD "C3 Confluence" [])[3]? = some weightsMember := rfl

/-- The tunings after each of a sequence of mutations of the weights, the first one included. -/
def weightStates (rng : Rng σ) : List ℚ → TuningConstants → σ → List TuningConstants
  | [], t, _ => [t]
  | scale :: scales, t, s =>
    let (new, s) := mutateField rng weightsMember t scale s
    t :: weightStates rng scales new s

theorem addLast_concat {l : List (String × ℤ)} {k : String} {v : ℤ} :
    addLast drift (l ++ [(k, v)]) = l ++ [(k, v + drift)] := by
  induction l with
  | nil => rfl
  | cons e l ih =>
    cases l with
    | nil => rfl
    | cons f l =>
      rw [List.cons_append, List.cons_append, addLast, ← List.cons_append, ih]
      rfl

/-- The rounded share of a value in the target. -/
def roundedShare (target : ℤ) (es : List (String × ℚ)) (v : ℚ) : ℤ :=
  halfEven (v * (target / (es.map Prod.snd).sum))

/-- The last key gets what the rounded shares of the others leave of the target. -/
theorem values_renormalise {e : String × ℚ} (h : ((init ++ [e]).map Prod.snd).sum ≠ 0) :
    (renormalise target (init ++ [e])).map Prod.snd =
      (init.map fun f => (roundedShare target (init ++ [e]) f.2 : ℚ)) ++
        [((target - (init.map fun f => roundedShare target (init ++ [e]) f.2).sum : ℤ) : ℚ)] := by
  unfold renormalise roundedShare
  simp only [if_neg h]
  rw [List.map_append, List.map_cons, List.map_nil, addLast_concat]
  simp only [List.map_append, List.map_map, Function.comp_def, List.map_cons, List.map_nil,
    List.sum_append, List.sum_singleton]
  congr 3
  ring

theorem sum_renormalise (h : (es.map Prod.snd).sum ≠ 0) :
    ((renormalise target es).map Prod.snd).sum = target := by
  rcases List.eq_nil_or_concat es with rfl | ⟨init, e, rfl⟩
  · exact absurd rfl h
  · rw [List.concat_eq_append] at h ⊢
    rw [values_renormalise h, List.sum_append, List.sum_singleton, Int.cast_sub, Int.cast_list_sum,
      List.map_map]
    exact add_sub_cancel _ _

/-- No rounded share but the last is negative, and together they do not exceed the target: none of
the values is under minus half a percent of their sum. -/
structure Balanced (es : List (String × ℚ)) : Prop where
  shares : ∀ e ∈ es.dropLast, -1 / 2 ≤ e.2 * (100 / (es.map Prod.snd).sum)
  rest : (es.dropLast.map fun e => roundedShare 100 es e.2).sum ≤ 100

theorem halfEven_nonneg_iff {x : ℚ} : 0 ≤ halfEven x ↔ -1 / 2 ≤ x := by
  rw [le_halfEven_iff (by decide)]
  norm_num

theorem renormalise_nonneg_iff (h : (es.map Prod.snd).sum ≠ 0) :
    (∀ v ∈ (renormalise 100 es).map Prod.snd, 0 ≤ v) ↔ Balanced es := by
  rcases List.eq_nil_or_concat es with rfl | ⟨init, e, rfl⟩
  · exact absurd rfl h
  · rw [List.concat_eq_append] at h ⊢
    have hshare : ∀ f : String × ℚ, (0 : ℚ) ≤ roundedShare 100 (init ++ [e]) f.2 ↔
        -1 / 2 ≤ f.2 * (100 / ((init ++ [e]).map Prod.snd).sum) := fun f => by
      rw [Int.cast_nonneg_iff, roundedShare, halfEven_nonneg_iff]
      norm_num
    have hrest : (0 : ℚ) ≤
        ((100 - (init.map fun f => roundedShare 100 (init ++ [e]) f.2).sum : ℤ) : ℚ) ↔
          (init.map fun f => roundedShare 100 (init ++ [e]) f.2).sum ≤ 100 := by
      rw [Int.cast_nonneg_iff, sub_nonneg]
    rw [values_renormalise h, List.forall_mem_append, List.forall_mem_map,
      List.forall_mem_singleton, hrest]
    simp only [hshare]
    constructor
    · rintro ⟨hshares, hsum⟩
      exact ⟨by rwa [List.dropLast_concat], by rwa [List.dropLast_concat]⟩
    · rintro ⟨hshares, hsum⟩
      rw [List.dropLast_concat] at hshares hsum
      exact ⟨hshares, hsum⟩

/-- The weights of the attempt that begins here, moved and clipped. -/
def movedWeights (rng : Rng σ) (t : TuningConstants) (scale : ℚ) (s : σ) : List (String × ℚ) :=
  (perturb rng (scale * 5) (fun _ => (-50, 200)) t.confluenceWeights.entries s).1

/-- Where the draws begin of the first attempt whose moved weights do not add up to nothing, if
one of the attempts is such. -/
def passingDraws (rng : Rng σ) (t : TuningConstants) (scale : ℚ) : ℕ → σ → Option σ
  | 0, _ => none
  | n + 1, s =>
    if ((movedWeights rng t scale s).map Prod.snd).sum ≠ 0 then some s
    else passingDraws rng t scale n
      (perturb rng (scale * 5) (fun _ => (-50, 200)) t.confluenceWeights.entries s).2

theorem proposal_weights :
    (proposal rng weightsMember t.toTuningFields scale s).1.confluenceWeights.values =
      (renormalise 100 (movedWeights rng t scale s)).map Prod.snd := rfl

theorem checked_weights_iff : (proposal rng weightsMember t.toTuningFields scale s).1.Checked ↔
    ((movedWeights rng t scale s).map Prod.snd).sum ≠ 0 := by
  constructor
  · intro h hzero
    have hsum := h.weightSum
    rw [proposal_weights, renormalise, if_pos hzero, hzero] at hsum
    norm_num at hsum
  · intro hne
    have hkeys : (proposal rng weightsMember t.toTuningFields scale s).1.confluenceWeights.keys =
        t.confluenceWeights.keys := keys_perturbedDict
    have hsum : (proposal rng weightsMember t.toTuningFields scale
        s).1.confluenceWeights.values.sum = 100 := sum_renormalise hne
    -- every other field is that of a tuning that has passed
    exact
      { t.checked with
        weightSum := by
          rw [hsum]
          norm_num
        weightKeys := by
          rw [hkeys]
          exact t.checked.weightKeys }

/-- The attempts return the first of them that passes, or what they were given. -/
theorem attempts_weights (rng : Rng σ) (t : TuningConstants) (scale : ℚ) (n : ℕ) (s : σ) :
    (attempts rng weightsMember t scale n s).1.confluenceWeights.values =
      ((passingDraws rng t scale n s).map fun s' =>
        (renormalise 100 (movedWeights rng t scale s')).map Prod.snd).getD
          t.confluenceWeights.values := by
  induction n generalizing s with
  | zero => rfl
  | succ n ih =>
    unfold passingDraws
    split_ifs with hsum
    · have hvalid := (checked_weights_iff.mpr hsum).valid
      have hok : applyOneMutation rng weightsMember t scale s = (.ok ⟨_, hvalid⟩, _) :=
        Prod.ext (build_of_valid hvalid) rfl
      rw [attempts_ok hok]
      exact proposal_weights
    · rcases happly : applyOneMutation rng weightsMember t scale s with ⟨e | new, s'⟩
      · rw [attempts_error happly, ih]
        obtain rfl := (Prod.mk.inj happly).2
        rfl
      · have hnew : new.toTuningFields =
            (proposal rng weightsMember t.toTuningFields scale s).1 :=
          fields_of_build (Prod.mk.inj happly).1
        exact absurd (checked_weights_iff.mp (hnew ▸ new.checked)) hsum

theorem mutateField_weights (rng : Rng σ) (t : TuningConstants) (scale : ℚ) (s : σ) :
    (mutateField rng weightsMember t scale s).1.confluenceWeights.values =
      ((passingDraws rng t scale (maxRetries + 1) s).map fun s' =>
        (renormalise 100 (movedWeights rng t scale s')).map Prod.snd).getD
          t.confluenceWeights.values :=
  attempts_weights rng t scale (maxRetries + 1) s

theorem passingDraws_sum_ne {n : ℕ} (h : passingDraws rng t scale n s = some s') :
    ((movedWeights rng t scale s').map Prod.snd).sum ≠ 0 := by
  induction n generalizing s with
  | zero => cases h
  | succ n ih =>
    unfold passingDraws at h
    split_ifs at h with hsum
    · rwa [← Option.some.inj h]
    · exact ih h

/-- In the attempt that passes, if one does, the moved weights are balanced. -/
def StepBalanced (rng : Rng σ) (t : TuningConstants) (scale : ℚ) (s : σ) : Prop :=
  ∀ s' ∈ passingDraws rng t scale (maxRetries + 1) s, Balanced (movedWeights rng t scale s')

def RunBalanced (rng : Rng σ) : List ℚ → TuningConstants → σ → Prop
  | [], _, _ => True
  | scale :: scales, t, s => StepBalanced rng t scale s ∧
      RunBalanced rng scales (mutateField rng weightsMember t scale s).1
        (mutateField rng weightsMember t scale s).2

theorem mutateWeights_sum (ht : t.confluenceWeights.values.sum = 100) :
    (mutateField rng weightsMember t scale s).1.confluenceWeights.values.sum = 100 := by
  rw [mutateField_weights]
  cases h : passingDraws rng t scale (maxRetries + 1) s with
  | none => exact ht
  | some s' => exact sum_renormalise (passingDraws_sum_ne h)

/-- A step from weights that are not negative leads to such weights exactly where it is
balanced. -/
theorem mutateWeights_nonneg_iff (ht : ∀ v ∈ t.confluenceWeights.values, 0 ≤ v) :
    (∀ v ∈ (mutateField rng weightsMember t scale s).1.confluenceWeights.values, 0 ≤ v) ↔
      StepBalanced rng t scale s := by
  rw [mutateField_weights, StepBalanced]
  cases h : passingDraws rng t scale (maxRetries + 1) s with
  | none => exact iff_of_true ht (by simp)
  | some s' =>
    simp only [Option.mem_def, Option.some.injEq, forall_eq']
    exact renormalise_nonneg_iff (passingDraws_sum_ne h)

theorem weightStates_sum (ht : t.confluenceWeights.values.sum = 100) :
    ∀ u ∈ weightStates rng scales t s, u.confluenceWeights.values.sum = 100 := by
  induction scales generalizing t s with
  | nil =>
    intro u hu
    rwa [List.mem_singleton.mp hu]
  | cons scale scales ih =>
    intro u hu
    rcases List.mem_cons.mp hu with rfl | hu
    · exact ht
    · exact ih (mutateWeights_sum ht) u hu

theorem weightStates_nonneg_iff (ht : ∀ v ∈ t.confluenceWeights.values, 0 ≤ v) :
    (∀ u ∈ weightStates rng scales t s, ∀ v ∈ u.confluenceWeights.values, 0 ≤ v) ↔
      RunBalanced rng scales t s := by
  induction scales generalizing t s with
  | nil =>
    refine iff_of_true (fun u hu => ?_) trivial
    rwa [List.mem_singleton.mp hu]
  | cons scale scales ih =>
    unfold weightStates RunBalanced
    rw [List.forall_mem_cons]
    constructor
    · rintro ⟨-, hrest⟩
      have hnext : ∀ v ∈ (mutateField rng weightsMember t scale s).1.confluenceWeights.values,
          0 ≤ v := hrest _ (by cases scales <;> simp [weightStates])
      exact ⟨(mutateWeights_nonneg_iff ht).mp hnext, (ih hnext).mp hrest⟩
    · rintro ⟨hstep, hrun⟩
      exact ⟨ht, (ih ((mutateWeights_nonneg_iff ht).mpr hstep)).mpr hrun⟩

/-- What the score relies on: weights that are not negative and add up to 100, and so caps in
order. -/
structure SoundWeights (w : Dict String ℚ) : Prop where
  nonneg : ∀ v ∈ w.values, 0 ≤ v
  total : w.values.sum = 100
  rsiCap : -w.getD "rsi" 15 ≤ w.getD "rsi" 15
  macdCap : -w.getD "macd" 10 ≤ w.getD "macd" 10

theorem getD_nonneg {w : Dict String ℚ} {k : String} {d : ℚ} (hw : ∀ v ∈ w.values, 0 ≤ v)
    (hd : 0 ≤ d) : 0 ≤ w.getD k d := by
  rw [Dict.getD]
  cases hget : w.get? k with
  | none => exact hd
  | some v => exact hw v (List.mem_map_of_mem (Dict.get?_eq_some_iff.mp hget))

theorem SoundWeights.of_nonneg {w : Dict String ℚ} (hw : ∀ v ∈ w.values, 0 ≤ v)
    (hsum : w.values.sum = 100) : SoundWeights w where
  nonneg := hw
  total := hsum
  rsiCap := neg_le_self (getD_nonneg hw (by norm_num))
  macdCap := neg_le_self (getD_nonneg hw (by norm_num))

/-- In every run of mutations from the defaults the weights add up to 100, and they are sound
throughout exactly where each step of it is balanced. -/
theorem weights_sound_iff (rng : Rng σ) (scales : List ℚ) (s : σ) :
    (∀ u ∈ weightStates rng scales .defaults s, u.confluenceWeights.values.sum = 100) ∧
    ((∀ u ∈ weightStates rng scales .defaults s, SoundWeights u.confluenceWeights) ↔
      RunBalanced rng scales .defaults s) := by
  have hsum : ∀ u ∈ weightStates rng scales .defaults s, u.confluenceWeights.values.sum = 100 :=
    weightStates_sum (by decide +kernel)
  refine ⟨hsum, ?_⟩
  rw [← weightStates_nonneg_iff (by decide +kernel)]
  constructor
  · intro h u hu
    exact (h u hu).nonneg
  · intro h u hu
    exact .of_nonneg (h u hu) (hsum u hu)

/-- One draw takes the weight of `macd` to -1, and its cap below its own negative. -/
theorem weights_negative : ∃ u ∈ weightStates scripted [1] .defaults [0, 0, 0, 0, -11, 0],
    u.confluenceWeights.entries = [("price_action", 28), ("htf_trend", 28), ("rsi", 17),
      ("structure", 17), ("macd", -1), ("funding", 11)] ∧ ¬ SoundWeights u.confluenceWeights := by
  refine ⟨(mutateField scripted weightsMember .defaults 1 [0, 0, 0, 0, -11, 0]).1, ?_, ?_, ?_⟩
  · simp [weightStates]
  · decide +kernel
  · intro h
    have hneg : ¬ (-(mutateField scripted weightsMember .defaults 1
        [0, 0, 0, 0, -11, 0]).1.confluenceWeights.getD "macd" 10 ≤ (mutateField scripted
          weightsMember .defaults 1 [0, 0, 0, 0, -11, 0]).1.confluenceWeights.getD "macd" 10) := by
      decide +kernel
    exact hneg h.macdCap

end Pyharmonics.Loop
