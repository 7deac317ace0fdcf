import Mathlib.Data.List.DropRight
import Mathlib.Tactic

/-! The last elements of a list, and of a list sorted by a key. -/
namespace Tails

variable {κ : Type*} {l l₁ l₂ rest : List κ} {key : κ → ℤ} {a : ℤ} {c : κ} {m n : ℕ}

theorem length_rtake (l : List κ) (n : ℕ) : (l.rtake n).length = min n l.length := by
  rw [List.rtake, List.length_drop]
  omega

theorem rtake_of_length_le (h : l.length ≤ n) : l.rtake n = l := by
  rw [List.rtake, Nat.sub_eq_zero_of_le h, List.drop_zero]

theorem rdrop_append_rtake (l : List κ) (n : ℕ) : l.rdrop n ++ l.rtake n = l :=
  List.take_append_drop _ l

theorem rtake_append_of_le (h : n ≤ l₂.length) : (l₁ ++ l₂).rtake n = l₂.rtake n := by
  rw [List.rtake, List.rtake, List.length_append, List.drop_append,
    List.drop_eq_nil_of_le (by omega), List.nil_append]
  congr 1
  omega

theorem rtake_append_of_length_le (h : l₂.length ≤ n) :
    (l₁ ++ l₂).rtake n = l₁.rtake (n - l₂.length) ++ l₂ := by
  have hfirst : l₁.length + l₂.length - n = l₁.length - (n - l₂.length) := by omega
  have hsecond : l₁.length + l₂.length - n - l₁.length = 0 := by omega
  rw [List.rtake, List.rtake, List.length_append, List.drop_append, hsecond, List.drop_zero, hfirst]

theorem rtake_eq_nil_iff (hn : 0 < n) : l.rtake n = [] ↔ l = [] := by
  rw [← List.length_eq_zero_iff, ← List.length_eq_zero_iff, length_rtake]
  omega

/-- A sorted list from a key on. -/
theorem filter_split (h : l.Pairwise fun a b => key a < key b) (a : ℤ) :
    l = l.filter (fun c => key c < a) ++ l.filter fun c => a ≤ key c := by
  induction l with
  | nil => rfl
  | cons c l ih =>
    obtain ⟨hc, hl⟩ := List.pairwise_cons.mp h
    by_cases hca : key c < a
    · rw [List.filter_cons_of_pos (by simpa using hca),
        List.filter_cons_of_neg (by simpa using hca), List.cons_append, ← ih hl]
    · have hnone : l.filter (fun d => decide (key d < a)) = [] := by
        rw [List.filter_eq_nil_iff]
        intro d hd
        have := hc d hd
        simp only [decide_eq_true_eq]
        omega
      have hall : l.filter (fun d => decide (a ≤ key d)) = l := by
        rw [List.filter_eq_self]
        intro d hd
        have := hc d hd
        simp only [decide_eq_true_eq]
        omega
      rw [List.filter_cons_of_neg (by simpa using hca), hnone, List.nil_append,
        List.filter_cons_of_pos (by simpa using hca), hall]

/-- The last elements, and of these the ones from a key on: the last ones from the key on. -/
theorem filter_rtake (h : l.Pairwise fun a b => key a < key b) (a : ℤ) (n : ℕ) :
    (l.rtake n).filter (fun c => a ≤ key c) = (l.filter fun c => a ≤ key c).rtake n := by
  have hlow : ∀ k, ((l.filter fun c => decide (key c < a)).rtake k).filter
      (fun c => decide (a ≤ key c)) = [] := by
    intro k
    rw [List.filter_eq_nil_iff]
    intro c hc
    have hmem := (List.mem_filter.mp (List.mem_of_mem_drop hc)).2
    simp only [decide_eq_true_eq] at hmem ⊢
    omega
  have hhigh : ∀ k, ((l.filter fun c => decide (a ≤ key c)).rtake k).filter
      (fun c => decide (a ≤ key c)) = (l.filter fun c => decide (a ≤ key c)).rtake k := by
    intro k
    rw [List.filter_eq_self]
    intro c hc
    exact (List.mem_filter.mp (List.mem_of_mem_drop hc)).2
  conv_lhs => rw [filter_split h a]
  rcases Nat.le_total n (l.filter fun c => decide (a ≤ key c)).length with hn | hn
  · rw [rtake_append_of_le hn, hhigh]
  · rw [rtake_append_of_length_le hn, List.filter_append, hlow, List.nil_append,
      rtake_of_length_le hn, List.filter_filter]
    simp

/-- What lies before the last elements of a sorted list has the keys below the first of these. -/
theorem filter_before (h : l.Pairwise fun a b => key a < key b) (hr : l.rtake n = c :: rest) :
    l.filter (fun d => key d ≤ key c - 1) = l.rdrop n := by
  have hsplit := rdrop_append_rtake l n
  rw [hr] at hsplit
  have hsorted := h
  rw [← hsplit, List.pairwise_append] at hsorted
  obtain ⟨-, htail, hcross⟩ := hsorted
  obtain ⟨hc, -⟩ := List.pairwise_cons.mp htail
  have hkeep : (l.rdrop n).filter (fun d => decide (key d ≤ key c - 1)) = l.rdrop n := by
    rw [List.filter_eq_self]
    intro d hd
    have := hcross d hd c List.mem_cons_self
    simp only [decide_eq_true_eq]
    omega
  have hnone : (c :: rest).filter (fun d => decide (key d ≤ key c - 1)) = [] := by
    rw [List.filter_eq_nil_iff]
    intro d hd
    simp only [decide_eq_true_eq]
    rcases List.mem_cons.mp hd with rfl | hd
    · omega
    · have := hc d hd
      omega
  conv_lhs => rw [← hsplit]
  rw [List.filter_append, hkeep, hnone, List.append_nil]

end Tails
