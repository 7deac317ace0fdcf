import Mathlib.Data.List.Sort
import Mathlib.Order.Lattice
import Mathlib.Tactic

/-! Ranks in a sorted list, minima of a list, and values written back to their places. -/
namespace Ranks

variable {α β : Type*} [LinearOrder α] {l : List α} {a top x : α} {i j n : ℕ}

/-- In a sorted list the elements up to a bound are those at the first places. -/
theorem getElem_le_iff (h : l.Pairwise (· ≤ ·)) (hj : j < l.length) :
    l[j] ≤ a ↔ j < l.countP (· ≤ a) := by
  induction l generalizing j with
  | nil => exact absurd hj (Nat.not_lt_zero j)
  | cons b l ih =>
    obtain ⟨hb, hl⟩ := List.pairwise_cons.mp h
    by_cases hba : b ≤ a
    · rw [List.countP_cons_of_pos (by simpa using hba)]
      cases j with
      | zero => exact iff_of_true hba (Nat.succ_pos _)
      | succ j =>
        rw [List.getElem_cons_succ, ih hl (by simpa using hj)]
        omega
    · have hnone : l.countP (· ≤ a) = 0 := by
        rw [List.countP_eq_zero]
        intro c hc
        simpa using lt_of_lt_of_le (not_le.mp hba) (hb c hc)
      rw [List.countP_cons_of_neg (by simpa using hba), hnone]
      refine iff_of_false ?_ (Nat.not_lt_zero j)
      cases j with
      | zero => exact hba
      | succ j =>
        have hlt : j < l.length := by simpa using hj
        have hmem : l[j] ∈ l := List.getElem_mem hlt
        exact not_le.mpr (lt_of_lt_of_le (not_le.mp hba) (hb _ hmem))

/-- An element of a sorted list stands at the last place of those up to it. -/
theorem exists_getElem_eq (h : l.Pairwise (· ≤ ·)) (ha : a ∈ l) :
    ∃ j, ∃ hj : j < l.length, l[j] = a ∧ l.countP (· ≤ a) = j + 1 := by
  have hpos : 0 < l.countP (· ≤ a) := List.countP_pos_iff.mpr ⟨a, ha, by simp⟩
  have hle : l.countP (· ≤ a) ≤ l.length := List.countP_le_length
  refine ⟨l.countP (· ≤ a) - 1, by omega, ?_, by omega⟩
  apply le_antisymm
  · exact (getElem_le_iff h (by omega)).mpr (by omega)
  · -- the element itself stands at some place up to this one
    obtain ⟨i, hi, rfl⟩ := List.getElem_of_mem ha
    have hlt := (getElem_le_iff h hi).mp le_rfl
    exact h.sortedLE.getElem_le_getElem_of_le (by omega)

theorem le_foldr_min : x ≤ l.foldr min top ↔ x ≤ top ∧ ∀ y ∈ l, x ≤ y := by
  induction l with
  | nil => simp
  | cons b l ih =>
    rw [List.foldr_cons, le_min_iff, ih, List.forall_mem_cons]
    tauto

theorem foldr_min_le : l.foldr min top ≤ x ↔ top ≤ x ∨ ∃ y ∈ l, y ≤ x := by
  induction l with
  | nil => simp
  | cons b l ih =>
    rw [List.foldr_cons, min_le_iff, ih, List.exists_mem_cons_iff]
    tauto

/-- The values of a list of places are written to them, one after the other. -/
def scatter (init : List β) (order : List ℕ) (values : List β) : List β :=
  (order.zip values).foldl (fun acc p => acc.set p.1 p.2) init

theorem getElem?_scatter (g : ℕ → β) (init : List β) (order : List ℕ) :
    (scatter init order (order.map g))[i]? =
      if i ∈ order then init[i]?.map fun _ => g i else init[i]? := by
  induction order generalizing init with
  | nil => rfl
  | cons k order ih =>
    have hstep : scatter init (k :: order) ((k :: order).map g) =
        scatter (init.set k (g k)) order (order.map g) := rfl
    rw [hstep, ih, List.getElem?_set]
    by_cases hk : k = i
    · subst hk
      cases hget : init[k]? with
      | none =>
        have hlen := List.getElem?_eq_none_iff.mp hget
        simp [hlen]
      | some b =>
        obtain ⟨hlen, -⟩ := List.getElem?_eq_some_iff.mp hget
        simp [hlen]
    · have hne : i ≠ k := Ne.symm hk
      simp [hk, hne]

/-- Written to all places in any order, the values of the places stand in their own order. -/
theorem scatter_perm (g : ℕ → β) (d : β) {order : List ℕ} (h : order.Perm (List.range n)) :
    scatter (List.replicate n d) order (order.map g) = (List.range n).map g := by
  apply List.ext_getElem?
  intro i
  have hmem : i ∈ order ↔ i < n := h.mem_iff.trans List.mem_range
  rw [getElem?_scatter, List.getElem?_map]
  by_cases hi : i < n
  · simp [hmem.mpr hi, hi]
  · simp [mt hmem.mp hi, hi]

/-- The list in the order of the given places. -/
def reorder (places : List ℕ) (l : List β) : List β := places.filterMap fun i => l[i]?

theorem reorder_map {γ : Type*} (f : β → γ) (places : List ℕ) (l : List β) :
    reorder places (l.map f) = (reorder places l).map f := by
  unfold reorder
  rw [List.map_filterMap]
  simp only [List.getElem?_map]

theorem reorder_range (l : List β) : reorder (List.range l.length) l = l := by
  induction l with
  | nil => rfl
  | cons b l ih =>
    conv_rhs => rw [← ih]
    rw [reorder, List.length_cons, List.range_succ_eq_map, List.filterMap_cons, List.filterMap_map]
    rfl

theorem reorder_perm {places : List ℕ} {l : List β} (h : places.Perm (List.range l.length)) :
    (reorder places l).Perm l := by
  have hperm := h.filterMap fun i => l[i]?
  exact hperm.trans (List.Perm.of_eq (reorder_range l))

end Ranks
