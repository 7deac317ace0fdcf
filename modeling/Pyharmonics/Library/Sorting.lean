import Mathlib.Data.List.Sort
import Mathlib.Tactic

/-! Stable sorting by a key. -/
namespace Sorting

variable {α κ : Type*} [LinearOrder κ] {key : α → κ} {l l' : List α} {a b : α}

/-- `sorted(l, key=key)` -/
def sortBy (key : α → κ) (l : List α) : List α := l.insertionSort fun a b => key a ≤ key b

instance keyTotal : Std.Total fun a b : α => key a ≤ key b := ⟨fun a b => le_total (key a) (key b)⟩

instance keyTrans : IsTrans α fun a b : α => key a ≤ key b := ⟨fun _ _ _ => le_trans⟩

theorem sortBy_perm (key : α → κ) (l : List α) : (sortBy key l).Perm l := List.perm_insertionSort _ l

theorem mem_sortBy : a ∈ sortBy key l ↔ a ∈ l := List.mem_insertionSort _

theorem sortBy_pairwise (key : α → κ) (l : List α) :
    (sortBy key l).Pairwise fun a b => key a ≤ key b := List.pairwise_insertionSort _ l

theorem sortBy_of_pairwise (h : l.Pairwise fun a b => key a ≤ key b) : sortBy key l = l :=
  h.insertionSort_eq

/-- A strictly sorted arrangement is the only sorted one. -/
theorem eq_of_pairwise_lt (hl : l.Pairwise fun a b => key a < key b)
    (hl' : l'.Pairwise fun a b => key a ≤ key b) (hp : l'.Perm l) : l' = l := by
  have hnodup : (l.map key).Nodup := by
    rw [List.Nodup, List.pairwise_map]
    exact hl.imp fun h => ne_of_lt h
  refine List.Perm.eq_of_pairwise ?_ hl' (hl.imp fun h => h.le) hp
  intro a b ha hb hab hba
  exact List.inj_on_of_nodup_map hnodup (hp.mem_iff.mp ha) hb (le_antisymm hab hba)

theorem sortBy_eq_of_pairwise_lt (hl : l.Pairwise fun a b => key a < key b) (hp : l'.Perm l) :
    sortBy key l' = l :=
  eq_of_pairwise_lt hl (sortBy_pairwise key l') ((sortBy_perm key l').trans hp)

theorem orderedInsert_concat (h : key b ≤ key a) :
    (l ++ [a]).orderedInsert (fun a b => key a ≤ key b) b =
      l.orderedInsert (fun a b => key a ≤ key b) b ++ [a] := by
  induction l with
  | nil => simp [h]
  | cons c l ih =>
    rw [List.cons_append, List.orderedInsert_cons, List.orderedInsert_cons, ih]
    split <;> rfl

/-- An element with a key as great as any goes last. -/
theorem sortBy_concat (h : ∀ b ∈ l, key b ≤ key a) : sortBy key (l ++ [a]) = sortBy key l ++ [a] := by
  induction l with
  | nil => rfl
  | cons b l ih =>
    have hrest : (l ++ [a]).insertionSort (fun a b => key a ≤ key b) =
        l.insertionSort (fun a b => key a ≤ key b) ++ [a] :=
      ih fun c hc => h c (List.mem_cons_of_mem _ hc)
    rw [sortBy, List.cons_append, List.insertionSort_cons, hrest,
      orderedInsert_concat (h b List.mem_cons_self)]
    rfl

theorem min?_perm {l l' : List κ} (h : l.Perm l') : l.min? = l'.min? := by
  ext a
  rw [List.min?_eq_some_iff, List.min?_eq_some_iff, h.mem_iff]
  simp only [h.mem_iff]

/-! The sorted list told by keys and places. -/

/-- `a` stands before `b` in the list. -/
def Before (l : List α) (a b : α) : Prop := [a, b].Sublist l

theorem Before.asymm (hn : l.Nodup) (hab : Before l a b) : ¬ Before l b a := by
  intro hba
  induction l with
  | nil => cases hab
  | cons c l ih =>
    obtain ⟨hc, hl⟩ := List.nodup_cons.mp hn
    rw [Before, List.cons_sublist_cons'] at hab hba
    rcases hab with hab | ⟨rfl, hb⟩
    · rcases hba with hba | ⟨rfl, -⟩
      · exact ih hl hab hba
      · exact hc (hab.subset (by simp))
    · rcases hba with hba | ⟨rfl, ha⟩
      · exact hc (hba.subset (by simp))
      · exact hc (List.singleton_sublist.mp hb)

theorem before_or_before (ha : a ∈ l) (hb : b ∈ l) (hne : a ≠ b) : Before l a b ∨ Before l b a := by
  induction l with
  | nil => cases ha
  | cons c l ih =>
    simp only [Before, List.cons_sublist_cons', List.singleton_sublist]
    rcases List.mem_cons.mp ha with rfl | ha'
    · rcases List.mem_cons.mp hb with rfl | hb'
      · exact absurd rfl hne
      · exact .inl (.inr ⟨rfl, hb'⟩)
    · rcases List.mem_cons.mp hb with rfl | hb'
      · exact .inr (.inr ⟨rfl, ha'⟩)
      · exact (ih ha' hb').imp .inl .inl

/-- `a` sorts before `b`: by its key, or with an equal key by its place. -/
def Precedes (key : α → κ) (l : List α) (a b : α) : Prop :=
  key a < key b ∨ key a = key b ∧ Before l a b

instance [DecidableEq α] : Decidable (Precedes key l a b) :=
  inferInstanceAs (Decidable (_ ∨ _ ∧ [a, b].Sublist l))

theorem Precedes.asymm (hn : l.Nodup) (hab : Precedes key l a b) : ¬ Precedes key l b a := by
  rintro (hba | ⟨hk, hba⟩)
  · rcases hab with hab | ⟨hk, -⟩
    · exact lt_asymm hab hba
    · exact hba.ne hk.symm
  · rcases hab with hab | ⟨-, hab⟩
    · exact hab.ne hk.symm
    · exact hab.asymm hn hba

/-- The sort of a list is its one arrangement in which each element precedes the later ones. -/
theorem sortBy_eq_iff (hn : l.Nodup) :
    sortBy key l = l' ↔ l'.Perm l ∧ l'.Pairwise (Precedes key l) := by
  have hsort : (sortBy key l).Pairwise (Precedes key l) := by
    rw [List.pairwise_iff_forall_sublist]
    intro a b hab
    have hle : key a ≤ key b := List.pairwise_iff_forall_sublist.mp (sortBy_pairwise key l) hab
    rcases hle.lt_or_eq with hlt | heq
    · exact .inl hlt
    · refine .inr ⟨heq, ?_⟩
      have hns : (sortBy key l).Nodup := (sortBy_perm key l).nodup_iff.mpr hn
      have hne : a ≠ b := by
        rintro rfl
        exact List.nodup_iff_sublist.mp hns a hab
      have ha : a ∈ l := mem_sortBy.mp (hab.subset (by simp))
      have hb : b ∈ l := mem_sortBy.mp (hab.subset (by simp))
      refine (before_or_before ha hb hne).resolve_right ?_
      intro hba
      have hsub : Before (sortBy key l) b a := List.pair_sublist_insertionSort heq.ge hba
      exact hsub.asymm hns hab
  constructor
  · rintro rfl
    exact ⟨sortBy_perm key l, hsort⟩
  · rintro ⟨hp, hl'⟩
    refine List.Perm.eq_of_pairwise ?_ hsort hl' ((sortBy_perm key l).trans hp.symm)
    intro a b _ _ hab hba
    exact absurd hba (hab.asymm hn)

theorem sortBy_map {β : Type*} {f : β → α} {l : List β} :
    sortBy key (l.map f) = (sortBy (fun b => key (f b)) l).map f :=
  (List.map_insertionSort _ _ f l fun _ _ _ _ => Iff.rfl).symm

/-- The greatest key of a list depends on its elements only. -/
theorem argmax_map_congr (h : ∀ a, a ∈ l ↔ a ∈ l') :
    (l.argmax key).map key = (l'.argmax key).map key := by
  cases hl : l.argmax key with
  | none =>
    obtain rfl := List.argmax_eq_none.mp hl
    have hnil : l' = [] := List.eq_nil_iff_forall_not_mem.mpr fun a ha => by simpa using (h a).mpr ha
    rw [hnil]
    rfl
  | some m =>
    have hm : m ∈ l' := (h m).mp (List.argmax_mem hl)
    cases hl' : l'.argmax key with
    | none =>
      rw [List.argmax_eq_none.mp hl'] at hm
      cases hm
    | some m' =>
      have hm' : m' ∈ l := (h m').mpr (List.argmax_mem hl')
      exact congrArg some (le_antisymm (List.le_of_mem_argmax hm hl') (List.le_of_mem_argmax hm' hl))

end Sorting
