import Pyharmonics.Mutation

/-! What a mutation may change: fields of its cluster, each within its bounds. -/
namespace Pyharmonics.Loop

open Rounding Member TuningFields

variable {σ : Type*} {rng : Rng σ} {m : Member} {members chosen : List Member} {t u v : TuningFields}
  {parent child : TuningConstants} {scale : ℚ} {s s' : σ} {n : ℕ}

/-- A field that changed lies within the bounds of its member, a dict keeps its keys, and of its
values those that changed and have bounds of their own lie within them. -/
def Member.Within (t u : TuningFields) : Member → Prop
  | absSmall f min max => u.rat f ≠ t.rat f → min ≤ u.rat f ∧ u.rat f ≤ max
  | relLarge f min max => u.rat f ≠ t.rat f → min ≤ u.rat f ∧ u.rat f ≤ max
  | intWindow f min max => u.int f ≠ t.int f → min ≤ u.int f ∧ u.int f ≤ max
  | intThreshold f min max => u.int f ≠ t.int f → min ≤ u.int f ∧ u.int f ≤ max
  | dictPerKey f _ keysBounds _ _ _ => (u.dict f).keys = (t.dict f).keys ∧
      ∀ e ∈ keysBounds.entries, ∀ x ∈ (u.dict f).get? e.1, (t.dict f).get? e.1 ≠ some x →
        e.2.1 ≤ x ∧ x ≤ e.2.2

theorem Member.Within.refl (t : TuningFields) (m : Member) : m.Within t t := by
  cases m with
  | dictPerKey f _ _ _ _ _ => exact ⟨rfl, fun _ _ _ hx hne => absurd hx hne⟩
  | _ => exact fun h => absurd rfl h

/-- Only the field of the member counts. -/
theorem Member.within_congr {t' u' : TuningFields} (ht : Same t t' m.field)
    (hu : Same u u' m.field) (h : m.Within t u) : m.Within t' u' := by
  cases m <;> simp only [Member.field, Same] at ht hu <;> simp only [Member.Within] at h ⊢ <;>
    rwa [← ht, ← hu]

/-- What a chain of mutations may do. -/
structure Offspring (members : List Member) (n : ℕ) (t u : TuningFields) : Prop where
  few : (changed t u).card ≤ n
  own : ∀ f ∈ changed t u, f ∈ members.map Member.field
  within : ∀ m ∈ members, m.Within t u
  keys : ∀ f : DictField, (u.dict f).keys = (t.dict f).keys

theorem clip_mem {ν : Type*} [LinearOrder ν] {x lo hi : ν} (h : lo ≤ hi) :
    lo ≤ clip x lo hi ∧ clip x lo hi ≤ hi :=
  ⟨le_max_left _ _, max_le h (min_le_left _ _)⟩

theorem mem_perturb {sigma : ℚ} {bounds : String → ℚ × ℚ} {es : List (String × ℚ)} {k : String}
    {x : ℚ} (h : (k, x) ∈ (perturb rng sigma bounds es s).1) (hk : (bounds k).1 ≤ (bounds k).2) :
    (bounds k).1 ≤ x ∧ x ≤ (bounds k).2 := by
  induction es generalizing s with
  | nil => cases h
  | cons e es ih =>
    rcases List.mem_cons.mp h with heq | hmem
    · obtain ⟨rfl, rfl⟩ := Prod.mk.inj heq
      exact clip_mem hk
    · exact ih hmem

/-- A member that renormalises has no bounds for single keys. -/
def Member.Plain : Member → Prop
  | dictPerKey _ _ keysBounds targetSum _ _ => targetSum = none ∨ keysBounds.entries = []
  | _ => True

instance : DecidablePred Member.Plain
  | absSmall _ _ _ | relLarge _ _ _ | intWindow _ _ _ | intThreshold _ _ _ => isTrue trivial
  | dictPerKey _ _ keysBounds targetSum _ _ =>
    inferInstanceAs (Decidable (targetSum = none ∨ keysBounds.entries = []))

/-- What one attempt proposes. -/
theorem proposal_same (rng : Rng σ) (m : Member) (t : TuningFields) (scale : ℚ) (s : σ)
    {f : TuningField} (hf : f ≠ m.field) : Same t (proposal rng m t scale s).1 f := by
  cases m with
  | absSmall => exact same_replaceRat hf
  | relLarge => exact same_replaceRat hf
  | intWindow => exact same_replaceInt hf
  | intThreshold => exact same_replaceInt hf
  | dictPerKey => exact same_replaceDict hf

theorem proposal_within (rng : Rng σ) (t : TuningFields) (scale : ℚ) (s : σ) (hm : m.Ordered)
    (hplain : m.Plain) : m.Within t (proposal rng m t scale s).1 := by
  cases m with
  | absSmall f min max =>
    intro _
    simpa [proposal, replaceRat] using clip_mem hm
  | relLarge f min max =>
    intro _
    simpa [proposal, replaceRat] using clip_mem hm
  | intWindow f min max =>
    intro _
    simpa [proposal, replaceInt] using clip_mem hm
  | intThreshold f min max =>
    intro _
    simpa [proposal, replaceInt] using clip_mem hm
  | dictPerKey f perKey keysBounds targetSum min max =>
    have hdict : ((proposal rng (.dictPerKey f perKey keysBounds targetSum min max) t scale
        s).1.dict f).entries = (perturbedDict rng (scale * perKey) keysBounds targetSum (min, max)
          (t.dict f) s).1 := by
      simp [proposal, replaceDict]
    refine ⟨(congrArg (List.map Prod.fst) hdict).trans keys_perturbedDict, ?_⟩
    intro e he x hx _
    rcases hplain with rfl | hnone
    · have hmem := Dict.get?_eq_some_iff.mp hx
      rw [hdict] at hmem
      have hbounds : keysBounds.getD e.1 (min, max) = e.2 :=
        Dict.getD_of_get? (Dict.get?_eq_some_iff.mpr he)
      have hle : (keysBounds.getD e.1 (min, max)).1 ≤ (keysBounds.getD e.1 (min, max)).2 := by
        rw [hbounds]
        exact hm e he
      have := mem_perturb hmem hle
      rwa [hbounds] at this
    · rw [hnone] at he
      cases he

theorem fields_of_build {c : TuningConstants} (h : t.build = .ok c) : c.toTuningFields = t := by
  unfold TuningFields.build at h
  split at h
  · rw [← Except.ok.inj h]
  · cases h

theorem attempts_ok {t new : TuningConstants}
    (h : applyOneMutation rng m t scale s = (.ok new, s')) :
    attempts rng m t scale (n + 1) s = (new, s') := by
  unfold attempts
  rw [h]

theorem attempts_error {t : TuningConstants} {e : PyError}
    (h : applyOneMutation rng m t scale s = (.error e, s')) :
    attempts rng m t scale (n + 1) s = attempts rng m t scale n s' := by
  conv_lhs => unfold attempts
  rw [h]

/-- A field mutation returns a proposal that has passed, or the tuning it was given. -/
theorem attempts_eq (rng : Rng σ) (m : Member) (t : TuningConstants) (scale : ℚ) (n : ℕ) (s : σ) :
    (attempts rng m t scale n s).1 = t ∨ ∃ s', (attempts rng m t scale n s).1.toTuningFields =
      (proposal rng m t.toTuningFields scale s').1 := by
  induction n generalizing s with
  | zero => exact .inl rfl
  | succ n ih =>
    rcases happly : applyOneMutation rng m t scale s with ⟨new | new, s'⟩
    · rw [attempts_error happly]
      exact ih s'
    · rw [attempts_ok happly]
      exact .inr ⟨s, fields_of_build (Prod.mk.inj happly).1⟩

/-- One mutation of one field. -/
structure Step (m : Member) (t u : TuningFields) : Prop where
  same : ∀ f, f ≠ m.field → Same t u f
  within : m.Within t u

theorem mutateField_step (rng : Rng σ) (t : TuningConstants) (scale : ℚ) (s : σ) (hm : m.Ordered)
    (hplain : m.Plain) : Step m t.toTuningFields (mutateField rng m t scale s).1.toTuningFields := by
  rcases attempts_eq rng m t scale (maxRetries + 1) s with heq | ⟨s', heq⟩
  · rw [mutateField, heq]
    exact ⟨fun f _ => Same.refl _ f, Within.refl _ m⟩
  · rw [mutateField, heq]
    exact ⟨fun f hf => proposal_same rng m _ scale s' hf, proposal_within rng _ scale s' hm hplain⟩

/-- The members have bounds in order and fields of their own. -/
structure Sound (members : List Member) : Prop where
  ordered : ∀ m ∈ members, m.Ordered
  plain : ∀ m ∈ members, m.Plain
  nodup : (members.map Member.field).Nodup

instance : DecidablePred Sound := fun members =>
  decidable_of_iff ((∀ m ∈ members, m.Ordered) ∧ (∀ m ∈ members, m.Plain) ∧
    (members.map Member.field).Nodup) ⟨fun h => ⟨h.1, h.2.1, h.2.2⟩, fun h => ⟨h.1, h.2, h.3⟩⟩

theorem mutateEach_concat {rng : Rng σ} {scale : Member → ℚ} {t : TuningConstants} {s : σ} :
    mutateEach rng scale (chosen ++ [m]) t s =
      mutateField rng m (mutateEach rng scale chosen t s).1 (scale m)
        (mutateEach rng scale chosen t s).2 := by
  rw [mutateEach, List.foldl_append]
  rfl

/-- What a chain of mutations keeps: it changes fields of its own only, each within its bounds. -/
theorem mutateEach_chain (rng : Rng σ) (scale : Member → ℚ) (t : TuningConstants) (s : σ)
    (h : Sound chosen) :
    (∀ f, f ∉ chosen.map Member.field →
      Same t.toTuningFields (mutateEach rng scale chosen t s).1.toTuningFields f) ∧
    ∀ m ∈ chosen, m.Within t.toTuningFields (mutateEach rng scale chosen t s).1.toTuningFields := by
  induction chosen using List.reverseRecOn with
  | nil => exact ⟨fun f _ => Same.refl _ f, by simp⟩
  | append_singleton chosen m ih =>
    have hnodup := h.nodup
    rw [List.map_append, List.nodup_append] at hnodup
    obtain ⟨hnodup, -, hfresh⟩ := hnodup
    have hfresh : ∀ f ∈ chosen.map Member.field, f ≠ m.field := fun f hf =>
      hfresh f hf _ (by simp)
    obtain ⟨hsame, hwithin⟩ := ih ⟨fun m' hm' => h.ordered m' (List.mem_append_left _ hm'),
      fun m' hm' => h.plain m' (List.mem_append_left _ hm'), hnodup⟩
    rw [mutateEach_concat]
    have hstep := mutateField_step rng (mutateEach rng scale chosen t s).1 (scale m)
      (mutateEach rng scale chosen t s).2 (h.ordered m (by simp)) (h.plain m (by simp))
    constructor
    · intro f hf
      rw [List.map_append, List.mem_append, not_or] at hf
      exact (hsame f hf.1).trans (hstep.same f (by simpa using hf.2))
    · intro m' hm'
      rcases List.mem_append.mp hm' with hm' | hm'
      · have hne := hfresh _ (List.mem_map_of_mem hm')
        exact within_congr (Same.refl _ _) (hstep.same _ hne) (hwithin m' hm')
      · rw [List.mem_singleton.mp hm']
        -- the field of this member is as it was in the parent before its own mutation
        have hold : m.field ∉ chosen.map Member.field := fun hmem => hfresh _ hmem rfl
        exact within_congr (hsame _ hold).symm (Same.refl _ _) hstep.within

theorem Sound.subperm (h : Sound members) (hsub : chosen.Subperm members) : Sound chosen where
  ordered m hm := h.ordered m (hsub.subset hm)
  plain m hm := h.plain m (hsub.subset hm)
  nodup := by
    obtain ⟨l, hperm, hl⟩ := hsub
    exact ((hperm.map Member.field).nodup_iff).mp (h.nodup.sublist (hl.map _))

theorem keys_of_within (hsame : ∀ f, f ∉ members.map Member.field → Same t u f)
    (hwithin : ∀ m ∈ members, m.Within t u) (f : DictField) :
    (u.dict f).keys = (t.dict f).keys := by
  by_cases hf : TuningField.dict f ∈ members.map Member.field
  · obtain ⟨m, hm, hfield⟩ := List.mem_map.mp hf
    have := hwithin m hm
    cases m with
    | dictPerKey g _ _ _ _ _ =>
      obtain rfl : g = f := TuningField.dict.inj hfield
      exact this.1
    | _ => cases hfield
  · rw [show t.dict f = u.dict f from hsame _ hf]

/-- A chain of mutations of members chosen from a cluster. -/
theorem mutateEach_offspring (rng : Rng σ) (scale : Member → ℚ) (t : TuningConstants) (s : σ)
    (h : Sound members) (hsub : chosen.Subperm members) (hn : chosen.length ≤ n) :
    Offspring members n t.toTuningFields
      (mutateEach rng scale chosen t s).1.toTuningFields := by
  obtain ⟨hsame, hwithin⟩ := mutateEach_chain rng scale t s (h.subperm hsub)
  have hchanged : changed t.toTuningFields (mutateEach rng scale chosen t s).1.toTuningFields ⊆
      (chosen.map Member.field).toFinset := by
    intro f hf
    by_contra hnot
    exact notMem_changed.mpr (hsame f fun hmem => hnot (List.mem_toFinset.mpr hmem)) hf
  have hown : ∀ f ∈ changed t.toTuningFields (mutateEach rng scale chosen t s).1.toTuningFields,
      f ∈ chosen.map Member.field := fun f hf => List.mem_toFinset.mp (hchanged hf)
  refine ⟨?_, ?_, ?_, keys_of_within hsame hwithin⟩
  · calc _ ≤ (chosen.map Member.field).toFinset.card := Finset.card_le_card hchanged
      _ ≤ (chosen.map Member.field).length := List.toFinset_card_le _
      _ = chosen.length := List.length_map _
      _ ≤ n := hn
  · intro f hf
    exact List.map_subset _ hsub.subset (hown f hf)
  · intro m hm
    by_cases hchosen : m ∈ chosen
    · exact hwithin m hchosen
    · refine within_congr (Same.refl _ _) (hsame _ fun hmem => ?_) (Within.refl _ m)
      obtain ⟨m', hm', hfield⟩ := List.mem_map.mp hmem
      obtain rfl := List.inj_on_of_nodup_map h.nodup (hsub.subset hm') hm hfield
      exact hchosen hm'

theorem defaultMap_sound : ∀ e ∈ defaultClusterMap.entries, Sound e.2 := by
  decide +kernel

theorem cluster_sound (cluster : String) : Sound (defaultClusterMap.getD cluster []) := by
  rw [Dict.getD]
  cases hget : defaultClusterMap.get? cluster with
  | none => exact ⟨by simp, by simp, by simp⟩
  | some members => exact defaultMap_sound _ (Dict.get?_eq_some_iff.mp hget)

/-- A sample of the members of a cluster, mutated one after another. -/
theorem sample_offspring (rng : Rng σ) (parent : TuningConstants) (cluster : String)
    (scale : Member → ℚ) (n : ℕ) (s s' : σ) :
    Offspring (defaultClusterMap.getD cluster []) n parent.toTuningFields
      (mutateEach rng scale (rng.sample (defaultClusterMap.getD cluster [])
        (min n (defaultClusterMap.getD cluster []).length) s).1 parent s').1.toTuningFields := by
  obtain ⟨hlength, hsub⟩ := rng.sample_subperm (defaultClusterMap.getD cluster [])
    (min n (defaultClusterMap.getD cluster []).length) s (min_le_right _ _)
  exact mutateEach_offspring rng scale parent s' (cluster_sound cluster) hsub
    (hlength.trans_le (min_le_left _ _))

theorem mutateCluster_offspring (rng : Rng σ) (parent : TuningConstants) (cluster : String)
    (sigmaScale : ℚ) (nMutations : Option ℕ) (s : σ) :
    Offspring (defaultClusterMap.getD cluster []) (nMutations.getD 1) parent.toTuningFields
      (mutateCluster rng parent cluster sigmaScale nMutations s).1.toTuningFields := by
  unfold mutateCluster
  simp only
  split_ifs
  · show Offspring _ _ _ (mutateEach rng (fun _ => sigmaScale) [] parent s).1.toTuningFields
    exact mutateEach_offspring rng _ parent s (cluster_sound cluster) List.nil_subperm
      (Nat.zero_le _)
  · exact sample_offspring rng parent cluster (fun _ => sigmaScale) _ s _

theorem mem_childrenFrom {gen : ℤ} {cluster : String} {f : σ → TuningConstants × σ} {k i : ℕ}
    {c : ChildCandidate} (h : c ∈ childrenFrom gen cluster f k i s) : ∃ s', c.tuning = (f s').1 := by
  induction k generalizing i s with
  | zero => cases h
  | succ k ih =>
    rcases List.mem_cons.mp h with rfl | h
    · exact ⟨s, rfl⟩
    · exact ih h

/-- Every child of a mutation keeps to the fields of its cluster and their bounds, however many
mutations follow one another on it and whatever is drawn; that it is valid its type says. -/
theorem mutation_frame (rng : Rng σ) (parent : TuningConstants) (cluster : String) :
    (∀ (sigmaScale : ℚ) (nMutations : Option ℕ) (s : σ),
      Offspring (defaultClusterMap.getD cluster []) (nMutations.getD 1) parent.toTuningFields
        (mutateCluster rng parent cluster sigmaScale nMutations s).1.toTuningFields) ∧
    ∀ (lambda_ : ℕ) (sigmaScale : ℚ) (nMutations : ℕ) (gen : ℤ)
      (sensitivity : Option SensitivityReport) (s : σ) (children : List ChildCandidate),
      makeChildCandidates rng parent cluster lambda_ sigmaScale nMutations gen sensitivity s =
        .ok children → ∀ child ∈ children, Offspring (defaultClusterMap.getD cluster []) nMutations
          parent.toTuningFields child.tuning.toTuningFields := by
  refine ⟨mutateCluster_offspring rng parent cluster, ?_⟩
  intro lambda_ sigmaScale nMutations gen sensitivity s children h child hchild
  unfold makeChildCandidates at h
  cases hget : defaultClusterMap.get? cluster with
  | none =>
    rw [hget] at h
    cases h
  | some members =>
    rw [hget] at h
    obtain rfl := Except.ok.inj h
    obtain ⟨s', htuning⟩ := mem_childrenFrom hchild
    rw [htuning]
    cases sensitivity with
    | none => exact mutateCluster_offspring rng parent cluster sigmaScale (some nMutations) s'
    | some report =>
      have hmembers : defaultClusterMap.getD cluster [] = members := Dict.getD_of_get? hget
      rw [← hmembers]
      exact sample_offspring rng parent cluster _ nMutations s' _

/-- Draws given in advance; a sample takes the first members. -/
def scripted : Rng (List ℚ) where
  gauss _ draws := (draws.headD 0, draws.tail)
  sample members k draws := (members.take k, draws)
  sample_subperm members k draws h := by
    refine ⟨?_, (List.take_sublist k members).subperm⟩
    rw [List.length_take]
    omega

/-- Two children of the default tuning; the second one's fee rate is clipped. -/
theorem mutation_frame_geometry : ∃ children,
    makeChildCandidates scripted .defaults "C1 Geometry" 2 1 2 1 none
      [1 / 10, 0, 1 / 5, 1] = .ok children ∧
    ∀ child ∈ children, Offspring (defaultClusterMap.getD "C1 Geometry" []) 2
      TuningConstants.defaults.toTuningFields child.tuning.toTuningFields :=
  ⟨_, rfl, (mutation_frame scripted .defaults "C1 Geometry").2 2 1 2 1 none
    [1 / 10, 0, 1 / 5, 1] _ rfl⟩

end Pyharmonics.Loop
