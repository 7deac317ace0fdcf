import Mathlib.Tactic

/-! Cutting a sorted list along intervals. -/
namespace Intervals

variable {α κ : Type*} [LinearOrder κ] {key : α → κ} {xs : List α} {p p' : α → Bool}
  {intervals : List (κ × κ)}

/-- `key` of an element lies in a closed interval. -/
def within (key : α → κ) (i : κ × κ) (x : α) : Bool := decide (i.1 ≤ key x ∧ key x ≤ i.2)

theorem within_iff {i : κ × κ} {x : α} : within key i x = true ↔ i.1 ≤ key x ∧ key x ≤ i.2 :=
  decide_eq_true_iff

/-- Two selections of a sorted list, the first before the second, make up the selection by either. -/
theorem filter_append_filter (h : xs.Pairwise fun x y => key x < key y)
    (hp : ∀ x ∈ xs, ∀ y ∈ xs, p x = true → p' y = true → key x < key y) :
    xs.filter p ++ xs.filter p' = xs.filter fun x => p x || p' x := by
  induction xs with
  | nil => rfl
  | cons x xs ih =>
    obtain ⟨hx, hxs⟩ := List.pairwise_cons.mp h
    have ih := ih hxs fun a ha b hb => hp a (List.mem_cons_of_mem _ ha) b (List.mem_cons_of_mem _ hb)
    by_cases h₁ : p x = true
    · have h₂ : p' x = false := by
        by_contra hne
        exact lt_irrefl _ (hp x (by simp) x (by simp) h₁ (Bool.not_eq_false _ ▸ hne))
      simp [h₁, h₂, ih]
    · by_cases h₂ : p' x = true
      · have hnone : xs.filter p = [] := by
          rw [List.filter_eq_nil_iff]
          intro y hy hpy
          exact lt_asymm (hx y hy) (hp y (List.mem_cons_of_mem _ hy) x (by simp) hpy h₂)
        rw [hnone, List.nil_append] at ih
        simp [h₁, h₂, hnone, ih]
      · simp [h₁, h₂, ih]

/-- The cuts of a sorted list along intervals in order, put together, are its elements in any of
the intervals. -/
theorem flatMap_filter (h : xs.Pairwise fun x y => key x < key y)
    (hi : intervals.Pairwise fun i j => i.2 < j.1) :
    (intervals.flatMap fun i => xs.filter (within key i)) =
      xs.filter fun x => intervals.any fun i => within key i x := by
  induction intervals with
  | nil => simp
  | cons i intervals ih =>
    obtain ⟨hfirst, hrest⟩ := List.pairwise_cons.mp hi
    rw [List.flatMap_cons, ih hrest]
    simp only [List.any_cons]
    refine filter_append_filter h ?_
    intro x _ y _ hx hy
    obtain ⟨j, hj, hyj⟩ := List.any_eq_true.mp hy
    rw [within_iff] at hx hyj
    exact (hx.2.trans_lt (hfirst j hj)).trans_le hyj.1

end Intervals
