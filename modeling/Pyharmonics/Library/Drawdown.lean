import Mathlib.Algebra.BigOperators.Group.List.Basic
import Mathlib.Algebra.Order.Group.Defs
import Mathlib.Order.Bounds.Basic
import Mathlib.Tactic

/-! The deepest fall of a running total below an earlier value, kept as a running peak. -/
namespace Drawdown

variable {α : Type*} [AddCommGroup α] {xs : List α} {i : ℕ}

/-- The total of the first `k` amounts. -/
def total (xs : List α) (k : ℕ) : α := (xs.take k).sum

/-- The falls from one total to a later one. -/
def falls (xs : List α) : Set α := {d | ∃ i j, i ≤ j ∧ j ≤ xs.length ∧ d = total xs i - total xs j}

theorem total_append_of_le (x : α) (h : i ≤ xs.length) : total (xs ++ [x]) i = total xs i := by
  rw [total, total, List.take_append_of_le_length h]

theorem total_length (xs : List α) : total xs xs.length = xs.sum := by
  rw [total, List.take_length]

theorem total_append_last (x : α) : total (xs ++ [x]) (xs.length + 1) = xs.sum + x := by
  have hlen : xs.length + 1 = (xs ++ [x]).length := by simp
  rw [hlen, total_length, List.sum_append, List.sum_singleton]

variable [LinearOrder α]

/-- The total, its peak so far and the deepest fall below a peak. -/
structure State (α : Type*) where
  total : α
  peak : α
  deepest : α

/-- One amount more. -/
def State.next (s : State α) (x : α) : State α :=
  ⟨s.total + x, max s.peak (s.total + x), max s.deepest (max s.peak (s.total + x) - (s.total + x))⟩

def run (xs : List α) : State α := xs.foldl State.next ⟨0, 0, 0⟩

/-- What the state says of the amounts it has seen. -/
structure Describes (s : State α) (xs : List α) : Prop where
  total : s.total = xs.sum
  peak : IsGreatest {t | ∃ i, i ≤ xs.length ∧ t = Drawdown.total xs i} s.peak
  deepest : IsGreatest (falls xs) s.deepest

theorem describes_nil : Describes (⟨0, 0, 0⟩ : State α) [] where
  total := rfl
  peak := by
    refine ⟨⟨0, le_rfl, rfl⟩, ?_⟩
    rintro t ⟨i, -, rfl⟩
    simp [Drawdown.total]
  deepest := by
    refine ⟨⟨0, 0, le_rfl, le_rfl, by simp [Drawdown.total]⟩, ?_⟩
    rintro d ⟨i, j, -, -, rfl⟩
    simp [Drawdown.total]

variable [IsOrderedAddMonoid α]

theorem Describes.next {s : State α} (h : Describes s xs) (x : α) :
    Describes (s.next x) (xs ++ [x]) := by
  have hlast : Drawdown.total (xs ++ [x]) (xs.length + 1) = s.total + x := by
    rw [total_append_last, h.total]
  have hlen : (xs ++ [x]).length = xs.length + 1 := by simp
  -- a position is one of before or the last
  have hpeak : IsGreatest {t | ∃ i, i ≤ (xs ++ [x]).length ∧ t = Drawdown.total (xs ++ [x]) i}
      (max s.peak (s.total + x)) := by
    constructor
    · rcases max_choice s.peak (s.total + x) with hm | hm
      · obtain ⟨i, hi, hp⟩ := h.peak.1
        refine ⟨i, by omega, ?_⟩
        rw [hm, hp, total_append_of_le x hi]
      · exact ⟨xs.length + 1, by omega, by rw [hm, hlast]⟩
    · rintro t ⟨i, hi, rfl⟩
      rcases Nat.lt_or_ge xs.length i with hlt | hle
      · obtain rfl : i = xs.length + 1 := by omega
        exact hlast.symm ▸ le_max_right _ _
      · rw [total_append_of_le x hle]
        exact le_max_of_le_left (h.peak.2 ⟨i, hle, rfl⟩)
  refine ⟨by rw [State.next, List.sum_append, List.sum_singleton, h.total], hpeak, ?_⟩
  constructor
  · rcases max_choice s.deepest (max s.peak (s.total + x) - (s.total + x)) with hm | hm
    · obtain ⟨i, j, hij, hj, hd⟩ := h.deepest.1
      refine ⟨i, j, hij, by omega, ?_⟩
      rw [State.next, hm, hd, total_append_of_le x (hij.trans hj), total_append_of_le x hj]
    · obtain ⟨i, hi, hp⟩ := hpeak.1
      refine ⟨i, xs.length + 1, by omega, by omega, ?_⟩
      rw [State.next, hm, hp, hlast]
  · rintro d ⟨i, j, hij, hj, rfl⟩
    rcases Nat.lt_or_ge xs.length j with hlt | hle
    · obtain rfl : j = xs.length + 1 := by omega
      refine le_max_of_le_right ?_
      rw [hlast]
      exact sub_le_sub_right (hpeak.2 ⟨i, by omega, rfl⟩) _
    · refine le_max_of_le_left (h.deepest.2 ⟨i, j, hij, hle, ?_⟩)
      rw [total_append_of_le x (hij.trans hle), total_append_of_le x hle]

/-- The running values of any list describe it. -/
theorem describes_run (xs : List α) : Describes (run xs) xs := by
  unfold run
  induction xs using List.reverseRecOn with
  | nil => exact describes_nil
  | append_singleton xs x ih =>
    rw [List.foldl_append]
    exact ih.next x

/-- The deepest fall is the greatest difference of a total and a later one. -/
theorem isGreatest_run (xs : List α) : IsGreatest (falls xs) (run xs).deepest :=
  (describes_run xs).deepest

end Drawdown
