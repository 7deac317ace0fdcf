import Mathlib.Computability.RegularExpressions

/-! Regular expressions over characters: classes, options, and the characters a match has. -/
namespace Patterns

open RegularExpression

variable {P Q : RegularExpression Char} {chars w v : List Char} {c : Char}

/-- `[chars]` -/
def oneOf (chars : List Char) : RegularExpression Char := chars.foldr (fun c P => char c + P) 0

/-- `P?` -/
def opt (P : RegularExpression Char) : RegularExpression Char := 1 + P

/-- `P+` -/
def some1 (P : RegularExpression Char) : RegularExpression Char := P * star P

/-- The text itself. -/
def word (s : List Char) : RegularExpression Char := s.foldr (fun c P => char c * P) 1

/-- One of these texts. -/
def anyWord (words : List String) : RegularExpression Char :=
  words.foldr (fun s P => word s.toList + P) 0

/-- The characters that occur in an expression. -/
def letters : RegularExpression Char → List Char
  | .zero => []
  | .epsilon => []
  | .char c => [c]
  | .plus P Q => letters P ++ letters Q
  | .comp P Q => letters P ++ letters Q
  | .star P => letters P

/-- Every match has this character. -/
def needs (c : Char) : RegularExpression Char → Bool
  | .zero => true
  | .epsilon => false
  | .char a => a = c
  | .plus P Q => needs c P && needs c Q
  | .comp P Q => needs c P || needs c Q
  | .star _ => false

theorem mem_letters (h : w ∈ P.matches') : ∀ a ∈ w, a ∈ letters P := by
  induction P generalizing w with
  | zero => exact absurd h (Language.notMem_zero w)
  | epsilon =>
    obtain rfl := (Language.mem_one w).mp h
    simp
  | char a =>
    obtain rfl : w = [a] := h
    simp [letters]
  | plus P Q hP hQ =>
    intro a ha
    rcases (Language.mem_add _ _ _).mp h with h | h
    · exact List.mem_append_left _ (hP h a ha)
    · exact List.mem_append_right _ (hQ h a ha)
  | comp P Q hP hQ =>
    intro a ha
    obtain ⟨u, hu, v, hv, rfl⟩ := Language.mem_mul.mp h
    rcases List.mem_append.mp ha with ha | ha
    · exact List.mem_append_left _ (hP hu a ha)
    · exact List.mem_append_right _ (hQ hv a ha)
  | star P hP =>
    intro a ha
    obtain ⟨L, rfl, hL⟩ := Language.mem_kstar.mp h
    obtain ⟨u, hu, ha⟩ := List.mem_flatten.mp ha
    exact hP (hL u hu) a ha

theorem mem_of_needs (hc : needs c P = true) (h : w ∈ P.matches') : c ∈ w := by
  induction P generalizing w with
  | zero => exact absurd h (Language.notMem_zero w)
  | epsilon => cases hc
  | char a =>
    obtain rfl : w = [a] := h
    obtain rfl : a = c := by simpa [needs] using hc
    simp
  | plus P Q hP hQ =>
    simp only [needs, Bool.and_eq_true] at hc
    rcases (Language.mem_add _ _ _).mp h with h | h
    · exact hP hc.1 h
    · exact hQ hc.2 h
  | comp P Q hP hQ =>
    simp only [needs, Bool.or_eq_true] at hc
    obtain ⟨u, hu, v, hv, rfl⟩ := Language.mem_mul.mp h
    rcases hc with hc | hc
    · exact List.mem_append_left _ (hP hc hu)
    · exact List.mem_append_right _ (hQ hc hv)
  | star P => cases hc

theorem mem_oneOf (h : c ∈ chars) : [c] ∈ (oneOf chars).matches' := by
  induction chars with
  | nil => simp at h
  | cons a chars ih =>
    rcases List.mem_cons.mp h with rfl | h
    · exact Or.inl rfl
    · exact Or.inr (ih h)

theorem mem_star_oneOf (h : ∀ a ∈ w, a ∈ chars) : w ∈ (star (oneOf chars)).matches' := by
  refine Language.mem_kstar.mpr ⟨w.map fun c => [c], ?_, ?_⟩
  · induction w with
    | nil => rfl
    | cons a w ih => exact congrArg (a :: ·) (ih fun b hb => h b (by simp [hb]))
  · intro u hu
    obtain ⟨a, ha, rfl⟩ := List.mem_map.mp hu
    exact mem_oneOf (h a ha)

theorem mem_comp (hw : w ∈ P.matches') (hv : v ∈ Q.matches') : w ++ v ∈ (P * Q).matches' :=
  Language.mem_mul.mpr ⟨w, hw, v, hv, rfl⟩

theorem mem_some1_oneOf (hne : w ≠ []) (h : ∀ a ∈ w, a ∈ chars) :
    w ∈ (some1 (oneOf chars)).matches' := by
  obtain ⟨a, w, rfl⟩ := List.exists_cons_of_ne_nil hne
  exact mem_comp (mem_oneOf (h a (by simp))) (mem_star_oneOf fun b hb => h b (by simp [hb]))

theorem nil_mem_opt : [] ∈ (opt P).matches' := Or.inl rfl

theorem mem_opt (h : w ∈ P.matches') : w ∈ (opt P).matches' := Or.inr h

/-- A text is rejected for a character the expression does not have. -/
theorem not_rmatch_of_letter (hw : c ∈ w) (hc : c ∉ letters P) : P.rmatch w = false := by
  rw [← Bool.not_eq_true, rmatch_iff_matches']
  exact fun h => hc (mem_letters h c hw)

/-- A text is rejected for the lack of a character every match has. -/
theorem not_rmatch_of_needs (hw : c ∉ w) (hc : needs c P = true) : P.rmatch w = false := by
  rw [← Bool.not_eq_true, rmatch_iff_matches']
  exact fun h => hw (mem_of_needs hc h)

end Patterns
