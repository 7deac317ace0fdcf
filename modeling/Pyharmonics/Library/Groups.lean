import Mathlib.Algebra.BigOperators.Group.List.Basic
import Mathlib.Tactic
import Pyharmonics.Library.Dict
import Pyharmonics.Library.Sorting

/-! Grouping a list by a key, groups in the order in which their keys are first seen. -/
namespace Groups

variable {α κ : Type*} [DecidableEq κ] {key : α → κ} {l l' : List α} {ks : List κ} {k : κ} {a : α}

/-- `groups.setdefault(key(x), []).append(x)` for each `x` of a list. -/
def groupBy (key : α → κ) (l : List α) : Dict κ (List α) :=
  l.foldl (fun d a => d.set (key a) (d.getD (key a) [] ++ [a])) .empty

/-- The elements with a key. -/
def members (key : α → κ) (l : List α) (k : κ) : List α := l.filter fun a => key a = k

theorem groupBy_concat : groupBy key (l ++ [a]) =
    (groupBy key l).set (key a) ((groupBy key l).getD (key a) [] ++ [a]) := by
  simp [groupBy]

theorem members_concat : members key (l ++ [a]) k =
    members key l k ++ if key a = k then [a] else [] := by
  by_cases h : key a = k <;> simp [members, h]

theorem members_eq_nil_iff : members key l k = [] ↔ ∀ a ∈ l, key a ≠ k := by
  simp [members, List.filter_eq_nil_iff]

/-- The group of a key that occurs holds its elements in their order. -/
theorem get?_groupBy : (groupBy key l).get? k =
    if members key l k = [] then none else some (members key l k) := by
  induction l using List.reverseRecOn with
  | nil => rfl
  | append_singleton l a ih =>
    rw [groupBy_concat, Dict.get?_set, members_concat]
    by_cases h : key a = k
    · subst h
      rw [if_pos rfl, if_pos rfl, if_neg (by simp), Dict.getD, ih]
      split_ifs with hnil
      · rw [hnil]
        rfl
      · rfl
    · rw [if_neg (Ne.symm h), if_neg h, ih, List.append_nil]

theorem mem_entries_groupBy {g : List α} : (k, g) ∈ (groupBy key l).entries ↔
    g = members key l k ∧ g ≠ [] := by
  rw [← Dict.get?_eq_some_iff, get?_groupBy]
  split_ifs with h
  · simp only [false_iff, not_and, not_not]
    rintro rfl
    exact h
  · rw [Option.some.injEq]
    constructor
    · rintro rfl
      exact ⟨rfl, h⟩
    · rintro ⟨rfl, -⟩
      rfl

theorem entries_groupBy : (groupBy key l).entries =
    (groupBy key l).keys.map fun k => (k, members key l k) := by
  rw [Dict.keys, List.map_map]
  refine (List.map_id _).symm.trans (List.map_congr_left ?_)
  rintro ⟨k, g⟩ hmem
  obtain ⟨rfl, -⟩ := mem_entries_groupBy.mp hmem
  rfl

theorem mem_keys_groupBy : k ∈ (groupBy key l).keys ↔ ∃ a ∈ l, key a = k := by
  have hmem : k ∈ (groupBy key l).keys ↔ members key l k ≠ [] := by
    rw [Dict.keys, List.mem_map]
    constructor
    · rintro ⟨⟨k', g⟩, hmem, rfl⟩
      obtain ⟨rfl, hne⟩ := mem_entries_groupBy.mp hmem
      exact hne
    · intro hne
      exact ⟨(k, members key l k), mem_entries_groupBy.mpr ⟨rfl, hne⟩, rfl⟩
  rw [hmem, Ne, members_eq_nil_iff]
  push Not
  rfl

theorem sum_indicator {M : Type*} [AddCommMonoid M] {m : M} :
    (ks.map fun k' => if k = k' then m else 0).sum = ks.count k • m := by
  induction ks with
  | nil => simp
  | cons k' ks ih =>
    rw [List.map_cons, List.sum_cons, ih, List.count_cons, add_nsmul, add_comm]
    by_cases h : k = k'
    · simp [h]
    · simp [h, Ne.symm h]

/-- Over keys that include all of a list its groups add up to what it adds up to. -/
theorem sum_map_members {M : Type*} [AddCommMonoid M] {f : α → M} (hnodup : ks.Nodup)
    (hall : ∀ a ∈ l, key a ∈ ks) :
    (ks.map fun k => ((members key l k).map f).sum).sum = (l.map f).sum := by
  induction l with
  | nil => simp [members]
  | cons a l ih =>
    have hsplit : (ks.map fun k => ((members key (a :: l) k).map f).sum) =
        ks.map fun k => (if key a = k then f a else 0) + ((members key l k).map f).sum := by
      apply List.map_congr_left
      intro k _
      by_cases h : key a = k <;> simp [members, h]
    have hone : (ks.map fun k => if key a = k then f a else 0).sum = f a := by
      rw [sum_indicator, List.count_eq_one_of_mem hnodup (hall a (by simp)), one_nsmul]
    rw [hsplit, List.sum_map_add, hone, ih fun b hb => hall b (List.mem_cons_of_mem a hb),
      List.map_cons, List.sum_cons]

theorem sum_members (hnodup : ks.Nodup) (hall : ∀ a ∈ l, key a ∈ ks) :
    (ks.map fun k => (members key l k).length).sum = l.length := by
  simpa using @sum_map_members _ _ _ key l ks _ _ (fun _ => (1 : ℕ)) hnodup hall

/-- Over such keys the groups are the list, in another order. -/
theorem flatMap_members_perm (hnodup : ks.Nodup) (hall : ∀ a ∈ l, key a ∈ ks) :
    (ks.flatMap (members key l)).Perm l := by
  have hsum : ∀ l : List α, (l.map fun a => ({a} : Multiset α)).sum = (l : Multiset α) := by
    intro l
    induction l with
    | nil => rfl
    | cons a l ih => rw [List.map_cons, List.sum_cons, ih, Multiset.singleton_add, Multiset.cons_coe]
  have hflat : ((ks.flatMap (members key l) : List α) : Multiset α) =
      (ks.map fun k => ((members key l k).map fun a => ({a} : Multiset α)).sum).sum := by
    clear hnodup hall
    induction ks with
    | nil => rfl
    | cons k ks ih =>
      rw [List.flatMap_cons, ← Multiset.coe_add, ih, List.map_cons, List.sum_cons, hsum]
  rw [← Multiset.coe_eq_coe, hflat, sum_map_members hnodup hall, hsum]

theorem sum_groupBy : ((groupBy key l).values.map List.length).sum = l.length := by
  rw [Dict.values, entries_groupBy, List.map_map, List.map_map]
  refine sum_members (groupBy key l).nodup ?_
  intro a ha
  exact mem_keys_groupBy.mpr ⟨a, ha, rfl⟩

theorem members_perm (h : l.Perm l') (k : κ) : (members key l k).Perm (members key l' k) :=
  h.filter _

section Sorted

open Sorting

variable {κ : Type*} [DecidableEq κ] [LinearOrder κ] {key : α → κ} {β : Type*}

/-- What is made of the groups in the order of their keys depends on the order of the list only
through the order inside the groups. -/
theorem sorted_groups_perm (h : l.Perm l') (f : κ → List α → β)
    (hf : ∀ k g g', g.Perm g' → f k g = f k g') :
    (sortBy Prod.fst (groupBy key l).entries).map (fun e => f e.1 e.2) =
      (sortBy Prod.fst (groupBy key l').entries).map fun e => f e.1 e.2 := by
  have hkeys : (groupBy key l).keys.Perm (groupBy key l').keys := by
    refine (List.perm_ext_iff_of_nodup (groupBy key l).nodup (groupBy key l').nodup).mpr ?_
    intro k
    change k ∈ (groupBy key l).keys ↔ k ∈ (groupBy key l').keys
    rw [mem_keys_groupBy, mem_keys_groupBy]
    simp only [h.mem_iff]
  have hsorted : sortBy (fun k => k) (groupBy key l).keys = sortBy (fun k => k) (groupBy key l').keys :=
    List.Perm.eq_of_pairwise (fun _ _ _ _ => le_antisymm) (sortBy_pairwise _ _)
      (sortBy_pairwise _ _) (((sortBy_perm _ _).trans hkeys).trans (sortBy_perm _ _).symm)
  rw [entries_groupBy, entries_groupBy, sortBy_map, sortBy_map, List.map_map, List.map_map, hsorted]
  apply List.map_congr_left
  intro k _
  exact hf k _ _ (members_perm h k)

end Sorted

end Groups
