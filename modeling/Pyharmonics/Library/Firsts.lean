import Mathlib.Data.List.Basic
import Mathlib.Tactic

/-! The first position of a list, from a given one on, at which a partial function is defined. -/
namespace Firsts

variable {α β : Type*} {f g : α → Option β} {xs ys : List α} {a i j n : ℕ} {b c : β}

/-- From `a` on, `f` is first defined at position `i`, with the value `b`. -/
structure FirstAt (f : α → Option β) (xs : List α) (a i : ℕ) (b : β) : Prop where
  le : a ≤ i
  hit : xs[i]?.bind f = some b
  before : ∀ k, a ≤ k → k < i → xs[k]?.bind f = none

theorem FirstAt.unique (h : FirstAt f xs a i b) (h' : FirstAt f xs a j c) : i = j ∧ b = c := by
  have hij : i = j := by
    rcases lt_trichotomy i j with hlt | heq | hgt
    · have := h'.before i h.le hlt
      rw [h.hit] at this
      cases this
    · exact heq
    · have := h.before j h'.le hgt
      rw [h'.hit] at this
      cases this
  subst hij
  exact ⟨rfl, Option.some.inj (h.hit.symm.trans h'.hit)⟩

theorem FirstAt.lt_length (h : FirstAt f xs a i b) : i < xs.length := by
  obtain ⟨x, hx, -⟩ := Option.bind_eq_some_iff.mp h.hit
  exact (List.getElem?_eq_some_iff.mp hx).1

theorem firstAt_congr (h : ∀ k : ℕ, xs[k]?.bind f = ys[k]?.bind g) :
    FirstAt f xs a i b ↔ FirstAt g ys a i b := by
  constructor
  · rintro ⟨hle, hhit, hbefore⟩
    exact ⟨hle, (h i).symm.trans hhit, fun k hak hki => (h k).symm.trans (hbefore k hak hki)⟩
  · rintro ⟨hle, hhit, hbefore⟩
    exact ⟨hle, (h i).trans hhit, fun k hak hki => (h k).trans (hbefore k hak hki)⟩

/-- Where one function is defined the other is too: the first position comes no later. -/
theorem FirstAt.exists_le (h : xs[i]?.bind f = some b) (hai : a ≤ i) :
    ∃ k d, FirstAt f xs a k d ∧ k ≤ i := by
  induction i using Nat.strong_induction_on generalizing b with
  | _ i ih =>
    by_cases hk : ∃ k, a ≤ k ∧ k < i ∧ (xs[k]?.bind f).isSome
    · obtain ⟨k, hak, hki, hsome⟩ := hk
      obtain ⟨d, hd⟩ := Option.isSome_iff_exists.mp hsome
      obtain ⟨m, e, hm, hmk⟩ := ih k hki hd hak
      exact ⟨m, e, hm, by omega⟩
    · refine ⟨i, b, ⟨hai, h, ?_⟩, le_rfl⟩
      intro k hak hki
      by_contra hne
      exact hk ⟨k, hak, hki, Option.isSome_iff_ne_none.mpr hne⟩

theorem findSome_range'_iff {h : ℕ → Option β} :
    (List.range' a n).findSome? h = some b ↔
      ∃ i, a ≤ i ∧ i < a + n ∧ h i = some b ∧ ∀ k, a ≤ k → k < i → h k = none := by
  induction n generalizing a with
  | zero =>
    simp only [List.range'_zero, List.findSome?_nil, reduceCtorEq, false_iff]
    rintro ⟨i, h₁, h₂, -⟩
    omega
  | succ n ih =>
    rw [List.range'_succ, List.findSome?_cons]
    cases ha : h a with
    | some d =>
      constructor
      · intro hd
        exact ⟨a, le_rfl, by omega, ha.trans hd, fun k h₁ h₂ => by omega⟩
      · rintro ⟨i, hai, -, hi, hbefore⟩
        obtain rfl | hlt := Nat.eq_or_lt_of_le hai
        · rw [← hi, ha]
        · rw [hbefore a le_rfl hlt] at ha
          cases ha
    | none =>
      simp only [ih]
      constructor
      · rintro ⟨i, hai, hin, hi, hbefore⟩
        refine ⟨i, by omega, by omega, hi, ?_⟩
        intro k hak hki
        obtain rfl | hlt := Nat.eq_or_lt_of_le hak
        · exact ha
        · exact hbefore k hlt hki
      · rintro ⟨i, hai, hin, hi, hbefore⟩
        obtain rfl | hlt := Nat.eq_or_lt_of_le hai
        · rw [ha] at hi
          cases hi
        · exact ⟨i, hlt, by omega, hi, fun k hak hki => hbefore k (by omega) hki⟩

end Firsts
