import Mathlib.Tactic

/-! Ranges of lists by signed indices, and the readers that page through a growing list. -/
namespace Slices

variable {α : Type*} {l : List α} {p : α → Bool} {o : ℤ} {m n : ℕ}

/-- A negative index counts from the end; one before the start stands for the start. -/
def position (n : ℕ) (i : ℤ) : ℕ := (if i < 0 then i + n else i).toNat

/-- `l[start:stop]` -/
def slice (l : List α) (start stop : ℤ) : List α :=
  (l.take (position l.length stop)).drop (position l.length start)

/-- `l[start:]` -/
def sliceFrom (l : List α) (start : ℤ) : List α := l.drop (position l.length start)

/-- `LRANGE key start stop`, whose last index is part of the range. -/
def lrange (l : List α) (start stop : ℤ) : List α :=
  (l.take ((if stop < 0 then stop + l.length else stop) + 1).toNat).drop (position l.length start)

theorem slice_of_nonneg (h : 0 ≤ o) : slice l o (o + n) = (l.drop o.toNat).take n := by
  obtain ⟨m, rfl⟩ := Int.eq_ofNat_of_zero_le h
  have hstart : ¬ (m : ℤ) < 0 := by omega
  have hstop : ¬ (m : ℤ) + n < 0 := by omega
  have hsum : ((m : ℤ) + n).toNat = m + n := by omega
  simp only [slice, position, if_neg hstart, if_neg hstop, Int.toNat_natCast, hsum]
  rw [List.take_drop]

theorem lrange_of_nonneg (h : 0 ≤ o) (hn : 1 ≤ n) :
    lrange l o (o + n - 1) = (l.drop o.toNat).take n := by
  obtain ⟨m, rfl⟩ := Int.eq_ofNat_of_zero_le h
  have hstart : ¬ (m : ℤ) < 0 := by omega
  have hstop : ¬ (m : ℤ) + n - 1 < 0 := by omega
  have hsum : ((m : ℤ) + n - 1 + 1).toNat = m + n := by omega
  simp only [lrange, position, if_neg hstart, if_neg hstop, Int.toNat_natCast, hsum]
  rw [List.take_drop]

/-- The last elements of a list, or all of it when there are not so many. -/
theorem sliceFrom_neg (hn : 1 ≤ n) : sliceFrom l (-n) = l.drop (l.length - n) := by
  have hneg : -(n : ℤ) < 0 := by omega
  have hpos : (-(n : ℤ) + l.length).toNat = l.length - n := by omega
  simp only [sliceFrom, position, if_pos hneg, hpos]

/-- A list is told by its prefixes. -/
theorem eq_of_take_eq {l' : List α} (h : ∀ n, 1 ≤ n → l.take n = l'.take n) : l = l' := by
  have hn := h (l.length + l'.length + 1) (by omega)
  rwa [List.take_of_length_le (by omega), List.take_of_length_le (by omega)] at hn

/-- What has been read of a list, with the next page behind it. -/
theorem prefix_append_page {read : List α} (h : read <+: l) :
    read ++ (l.drop read.length).take n <+: l := by
  obtain ⟨rest, rfl⟩ := h
  rw [List.drop_left, List.prefix_append_right_inj]
  exact List.take_prefix _ _

/-- Dropping is filtering exactly when the elements that pass are those from there on. -/
theorem drop_eq_filter_iff :
    l.drop m = l.filter p ↔ ∀ j x, l[j]? = some x → (p x ↔ m ≤ j) := by
  constructor
  · intro h
    have hdrop : ∀ x ∈ l.drop m, p x := fun x hx => (List.mem_filter.mp (h ▸ hx)).2
    have htake : (l.take m).filter p = [] := by
      have hsplit : l.filter p = (l.take m).filter p ++ l.drop m := by
        rw [← List.filter_eq_self.mpr hdrop, ← List.filter_append, List.take_append_drop]
      rw [← h] at hsplit
      exact List.self_eq_append_left.mp hsplit
    intro j x hj
    constructor
    · intro hp
      by_contra hjm
      have hx : x ∈ l.take m := by
        apply List.mem_of_getElem? (i := j)
        rw [List.getElem?_take_of_lt (by omega), hj]
      exact List.filter_eq_nil_iff.mp htake x hx hp
    · intro hmj
      exact hdrop x (List.mem_of_getElem? (i := j - m) (by
        rw [List.getElem?_drop, Nat.add_sub_cancel' hmj, hj]))
  · intro h
    have hdrop : (l.drop m).filter p = l.drop m := by
      rw [List.filter_eq_self]
      intro x hx
      obtain ⟨j, hj⟩ := List.getElem?_of_mem hx
      rw [List.getElem?_drop] at hj
      exact (h _ x hj).mpr (by omega)
    have htake : (l.take m).filter p = [] := by
      rw [List.filter_eq_nil_iff]
      intro x hx hp
      obtain ⟨j, hj⟩ := List.getElem?_of_mem hx
      have hjm : j < m := by
        by_contra hge
        rw [List.getElem?_take_eq_none (by omega)] at hj
        simp at hj
      rw [List.getElem?_take_of_lt hjm] at hj
      exact absurd ((h j x hj).mp hp) (by omega)
    calc l.drop m = (l.take m).filter p ++ (l.drop m).filter p := by rw [htake, hdrop, List.nil_append]
      _ = l.filter p := by rw [← List.filter_append, List.take_append_drop]

/-- From a negative index on, ranges are the prefixes of a filter only for the empty list. -/
theorem slice_neg_iff (ho : o < 0) :
    (∀ n : ℕ, 1 ≤ n → slice l o (o + n) = (l.filter p).take n) ↔ l = [] := by
  constructor
  · intro h
    have hnone : l.filter p = [] := by
      have hk := h (-o).toNat (by omega)
      have hstop : o + (-o).toNat = 0 := by omega
      rw [hstop] at hk
      have hempty : slice l o 0 = [] := by simp [slice, position]
      rw [hempty, eq_comm, List.take_eq_nil_iff] at hk
      exact hk.resolve_left (by omega)
    by_contra hl
    have hlen : 0 < l.length := List.length_pos_of_ne_nil hl
    have hk := h ((-o).toNat + l.length) (by omega)
    have hstop : o + ((-o).toNat + l.length : ℕ) = l.length := by omega
    rw [hnone, hstop, List.take_nil, slice, List.drop_eq_nil_iff, List.length_take] at hk
    simp only [position, if_pos ho, if_neg (show ¬ (l.length : ℤ) < 0 by omega)] at hk
    omega
  · rintro rfl n -
    simp [slice]

theorem lrange_neg_iff (ho : o < 0) :
    (∀ n : ℕ, 1 ≤ n → lrange l o (o + n - 1) = (l.filter p).take n) ↔
      l = [] ∨ o = -1 ∧ ∃ x, l = [x] ∧ p x := by
  constructor
  · intro h
    by_cases hl : l = []
    · exact .inl hl
    right
    have hlen : 0 < l.length := List.length_pos_of_ne_nil hl
    -- The whole list from the start on.
    have hall : l.filter p = l.drop (o + l.length).toNat := by
      have hk := h ((-o).toNat + l.length) (by omega)
      have hstop : o + ((-o).toNat + l.length : ℕ) - 1 = l.length - 1 := by omega
      rw [hstop, List.take_of_length_le (by have := List.length_filter_le p l; omega)] at hk
      rw [← hk, lrange, if_neg (by omega), position, if_pos ho, List.take_of_length_le (by omega)]
    -- The range that stops at the first element.
    have hfirst : (l.take 1).drop (o + l.length).toNat = (l.filter p).take ((-o).toNat + 1) := by
      have hk := h ((-o).toNat + 1) (by omega)
      have hstop : o + ((-o).toNat + 1 : ℕ) - 1 = 0 := by omega
      rw [← hk, hstop, lrange, position, if_pos ho]
      rfl
    have hstart : (o + l.length).toNat = 0 := by
      by_contra hpos
      rw [hall, List.drop_eq_nil_of_le (by rw [List.length_take]; omega), eq_comm,
        List.take_eq_nil_iff, List.drop_eq_nil_iff] at hfirst
      omega
    rw [hstart, List.drop_zero] at hall hfirst
    have hone : l.length = 1 := by
      have := congrArg List.length hfirst
      rw [hall, List.length_take, List.length_take] at this
      omega
    obtain ⟨x, rfl⟩ := List.length_eq_one_iff.mp hone
    refine ⟨?_, x, rfl, by simpa using hall⟩
    have hk := h 1 (by omega)
    rw [hall, lrange] at hk
    have := congrArg List.length hk
    simp only [List.length_drop, List.length_take, List.length_singleton, position] at this
    split at this <;> omega
  · rintro (rfl | ⟨rfl, x, rfl, hx⟩) n hn
    · simp [lrange]
    · have htake : [x].take n = [x] := List.take_of_length_le (by simpa using hn)
      have hstop : [x].take ((if -1 + (n : ℤ) - 1 < 0 then -1 + (n : ℤ) - 1 + [x].length
          else -1 + n - 1) + 1).toNat = [x] := by
        apply List.take_of_length_le
        simp only [List.length_singleton]
        split <;> omega
      rw [lrange, hstop, List.filter_cons_of_pos hx, List.filter_nil, htake]
      rfl

end Slices
