import Pyharmonics.Library.Decimals
import Pyharmonics.Library.Patterns

/-! Plain scalars of YAML 1.1: which texts are numbers, and which are strings. -/
namespace Yaml

open Decimals Patterns RegularExpression

variable {n : ℤ} {x : ℚ} {text w v ds : List Char} {c : Char}

/-- To decide a property of listed characters, go through the list and not through all of them. -/
theorem forall_of_all {l : List Char} {P : Char → Prop} [DecidablePred P] (h : l.all (P ·) = true) :
    ∀ a ∈ l, P a := fun a ha => of_decide_eq_true (List.all_eq_true.mp h a ha)

/-- What a scalar is read as. -/
inductive Scalar
  | str (s : String)
  | int (n : ℤ)
  | float (x : ℚ)
  /-- A string with surrogates, by its code units. -/
  | surrogates (units : List ℕ)
  /-- A truth value, a null, a date, a merge key, or a number that is not written in decimals. -/
  | other (text : List Char)
  deriving DecidableEq

def sign : RegularExpression Char := opt (oneOf ['-', '+'])

def digitChars : List Char := ['0', '1', '2', '3', '4', '5', '6', '7', '8', '9']

def digit : RegularExpression Char := oneOf digitChars

/-- `[0-9_]*` -/
def grouped : RegularExpression Char := star (oneOf (digitChars ++ ['_']))

def sexagesimal : RegularExpression Char :=
  some1 (char ':' * opt (oneOf ['0', '1', '2', '3', '4', '5']) * digit)

def boolRe : RegularExpression Char :=
  anyWord ["yes", "Yes", "YES", "no", "No", "NO", "true", "True", "TRUE", "false", "False",
    "FALSE", "on", "On", "ON", "off", "Off", "OFF"]

def exponentRe : RegularExpression Char :=
  opt (oneOf ['e', 'E'] * (oneOf ['-', '+'] * some1 digit))

def decimalRe : RegularExpression Char :=
  sign * (digit * grouped * (char '.' * (grouped * exponentRe)))

def floatRe : RegularExpression Char :=
  decimalRe + (char '.' * (digit * grouped * exponentRe)) +
  (sign * (digit * grouped * (sexagesimal * (char '.' * grouped)))) +
  (sign * (char '.' * anyWord ["inf", "Inf", "INF"])) +
  (char '.' * anyWord ["nan", "NaN", "NAN"])

def wholeRe : RegularExpression Char :=
  sign * (char '0' + oneOf ['1', '2', '3', '4', '5', '6', '7', '8', '9'] * grouped)

def hexRe : RegularExpression Char :=
  sign * (word ['0', 'x'] * some1 (oneOf "0123456789abcdefABCDEF_".toList))

def intRe : RegularExpression Char :=
  wholeRe + hexRe + (sign * (word ['0', 'b'] * some1 (oneOf ['0', '1', '_']))) +
  (sign * (char '0' * some1 (oneOf "01234567_".toList))) +
  (sign * (oneOf ['1', '2', '3', '4', '5', '6', '7', '8', '9'] * (grouped * sexagesimal)))

def nullRe : RegularExpression Char := anyWord ["~", "null", "Null", "NULL", ""]

def dateRe : RegularExpression Char :=
  digit * digit * digit * digit * (char '-' * (digit * digit * (char '-' * (digit * digit))))

def timeRe : RegularExpression Char :=
  digit * digit * digit * digit * (char '-' * (digit * opt digit * (char '-' * (digit * opt digit *
    ((oneOf ['T', 't'] + some1 (oneOf [' ', '\t'])) * (digit * opt digit * (char ':' * (digit *
      digit * (char ':' * (digit * digit * (opt (char '.' * star digit) * opt (star (oneOf [' ',
        '\t']) * (char 'Z' + oneOf ['-', '+'] * (digit * opt digit *
          opt (char ':' * (digit * digit))))))))))))))))

/-- What is neither a string nor a number. -/
def otherRe : RegularExpression Char := word ['<', '<'] + nullRe + (dateRe + timeRe) + word ['=']

/-- The digits of a whole number in decimals, not in octal. -/
def isDecimalText (text : List Char) : Bool :=
  let ds := if text.head? ∈ [some '-', some '+'] then text.drop 1 else text
  ds.all Char.isDigit && (ds = ['0'] || ds.head? ≠ some '0')

/-- The resolver: its patterns in order, and the number a matching text stands for. -/
def resolve (text : List Char) : Scalar :=
  let plain := text.filter (· ≠ '_')
  if boolRe.rmatch text then .other text
  else if floatRe.rmatch text then
    match readFloat (plain.map Char.toLower) with
    | some x => .float x
    | none => .other text
  else if intRe.rmatch text then
    if isDecimalText plain then .int (readInt plain) else .other text
  else if otherRe.rmatch text then .other text
  else .str (String.ofList text)

theorem mem_digitChars (h : c.isDigit = true) : c ∈ digitChars := by
  obtain ⟨hlo, hhi⟩ := Char.isDigit_iff_toNat.mp h
  have hlo : 48 ≤ c.toNat := hlo
  have hhi : c.toNat ≤ 57 := hhi
  rw [← Char.ofNat_toNat c]
  generalize c.toNat = k at *
  interval_cases k <;> decide

theorem mem_digit (h : c.isDigit = true) : [c] ∈ digit.matches' := mem_oneOf (mem_digitChars h)

theorem mem_grouped (h : ∀ c ∈ ds, c.isDigit = true) : ds ∈ grouped.matches' :=
  mem_star_oneOf fun c hc => List.mem_append_left ['_'] (mem_digitChars (h c hc))

theorem mem_sign_nil : [] ∈ sign.matches' := nil_mem_opt

theorem mem_sign_minus : ['-'] ∈ sign.matches' := mem_opt (mem_oneOf (by decide))

theorem cons_mem_comp {P Q : RegularExpression Char} (hc : [c] ∈ P.matches') (hv : v ∈ Q.matches') :
    c :: v ∈ (P * Q).matches' :=
  mem_comp hc hv

theorem mem_exponentRe (k : ℤ) : 'e' :: exponentText k ∈ exponentRe.matches' := by
  obtain ⟨s, ds, htext, hs, hne, hds⟩ := exponentText_form k
  rw [htext]
  refine mem_opt (cons_mem_comp (mem_oneOf (by decide)) (cons_mem_comp (mem_oneOf ?_)
    (mem_some1_oneOf hne fun c hc => mem_digitChars (hds c hc))))
  rcases hs with rfl | rfl <;> decide

/-- A printed number that shows a point is a float. -/
theorem reprAbs_mem (hp : '.' ∈ reprAbs x) (hw : w ∈ sign.matches') :
    w ++ reprAbs x ∈ decimalRe.matches' := by
  obtain ⟨whole, frac, e, htext, hne, hwhole, hfrac, he⟩ := reprAbs_point hp
  obtain ⟨d, whole, rfl⟩ := List.exists_cons_of_ne_nil hne
  rw [htext]
  have hexp : e ∈ exponentRe.matches' := by
    rcases he with rfl | ⟨k, rfl⟩
    · exact nil_mem_opt
    · exact mem_exponentRe k
  have hfirst : d :: whole ∈ (digit * grouped).matches' :=
    cons_mem_comp (mem_digit (hwhole d (by simp)))
      (mem_grouped fun c hc => hwhole c (by simp [hc]))
  have hrest : '.' :: (frac ++ e) ∈ (char '.' * (grouped * exponentRe)).matches' :=
    cons_mem_comp rfl (mem_comp (mem_grouped hfrac) hexp)
  exact mem_comp hw (mem_comp hfirst hrest)

theorem boolRe_digit (hc : c ∈ text) (h : c.isDigit = true) : boolRe.rmatch text = false := by
  refine not_rmatch_of_letter hc fun hmem => ?_
  have hletters : ∀ a ∈ letters boolRe, a.isDigit = false := forall_of_all (by decide)
  rw [hletters c hmem] at h
  cases h

theorem mem_numberChars_exponent {k : ℤ} (h : c ∈ exponentText k) :
    c ∈ digitChars ++ ['.', 'e', '-', '+'] := by
  obtain ⟨s, ds, htext, hs, -, hds⟩ := exponentText_form k
  rw [htext, List.mem_cons] at h
  rcases h with rfl | h
  · rcases hs with rfl | rfl <;> decide
  · exact List.mem_append_left _ (mem_digitChars (hds c h))

theorem mem_numberChars_abs (h : c ∈ reprAbs x) : c ∈ digitChars ++ ['.', 'e', '-', '+'] := by
  by_cases hp : '.' ∈ reprAbs x
  · obtain ⟨whole, frac, e, htext, -, hwhole, hfrac, he⟩ := reprAbs_point hp
    rw [htext, List.mem_append, List.mem_cons, List.mem_append] at h
    rcases h with h | rfl | h | h
    · exact List.mem_append_left _ (mem_digitChars (hwhole c h))
    · decide
    · exact List.mem_append_left _ (mem_digitChars (hfrac c h))
    · rcases he with rfl | ⟨k, rfl⟩
      · cases h
      · rcases List.mem_cons.mp h with rfl | h
        · decide
        · exact mem_numberChars_exponent h
  · obtain ⟨d, k, htext, hd⟩ := reprAbs_pointless hp
    rw [htext, List.mem_append, List.mem_cons] at h
    rcases h with h | rfl | h
    · exact List.mem_append_left _ (mem_digitChars (hd c h))
    · decide
    · exact mem_numberChars_exponent h

/-- The characters of printed numbers. -/
theorem mem_numberChars (h : c ∈ reprText x) : c ∈ digitChars ++ ['.', 'e', '-', '+'] := by
  unfold reprText at h
  split_ifs at h
  · rcases List.mem_cons.mp h with rfl | h
    · decide
    · exact mem_numberChars_abs h
  · exact mem_numberChars_abs h

theorem mem_numberChars_int (h : c ∈ intText n) : c ∈ digitChars ++ ['-'] := by
  unfold intText at h
  split_ifs at h
  · rcases List.mem_cons.mp h with rfl | h
    · decide
    · exact List.mem_append_left _ (mem_digitChars (isDigit_digits c h))
  · exact List.mem_append_left _ (mem_digitChars (isDigit_digits c h))

theorem exists_digit_int (n : ℤ) : ∃ c ∈ intText n, c.isDigit = true := by
  obtain ⟨d, hd⟩ := List.exists_mem_of_ne_nil _ (digits_ne_nil n.natAbs)
  refine ⟨d, ?_, isDigit_digits d hd⟩
  unfold intText
  split_ifs
  · exact List.mem_cons_of_mem _ hd
  · exact hd

theorem exists_digit_abs (x : ℚ) : ∃ c ∈ reprAbs x, c.isDigit = true := by
  by_cases hp : '.' ∈ reprAbs x
  · obtain ⟨whole, frac, e, htext, hne, hwhole, -⟩ := reprAbs_point hp
    obtain ⟨d, hd⟩ := List.exists_mem_of_ne_nil _ hne
    exact ⟨d, by rw [htext]; exact List.mem_append_left _ hd, hwhole d hd⟩
  · obtain ⟨d, k, htext, -⟩ := reprAbs_pointless hp
    obtain ⟨s, ds, hexp, -, hne, hds⟩ := exponentText_form k
    obtain ⟨a, ha⟩ := List.exists_mem_of_ne_nil _ hne
    exact ⟨a, by rw [htext, hexp]; simp [ha], hds a ha⟩

theorem mem_reprText (h : c ∈ reprAbs x) : c ∈ reprText x := by
  unfold reprText
  split_ifs
  · exact List.mem_cons_of_mem _ h
  · exact h

theorem filter_grouped (h : ∀ c ∈ text, c ≠ '_') : text.filter (· ≠ '_') = text :=
  List.filter_eq_self.mpr fun c hc => by simpa using h c hc

theorem intText_mem (n : ℤ) : intText n ∈ wholeRe.matches' := by
  have hwhole : digits n.natAbs ∈ (char '0' + oneOf ['1', '2', '3', '4', '5', '6', '7', '8', '9'] *
      grouped).matches' := by
    by_cases h0 : n.natAbs = 0
    · rw [h0]
      exact Or.inl rfl
    · obtain ⟨d, ds, hds⟩ := List.exists_cons_of_ne_nil (digits_ne_nil n.natAbs)
      have hdigit : ∀ c ∈ d :: ds, c.isDigit = true := hds ▸ isDigit_digits
      have hd : d ≠ '0' := by
        rintro rfl
        exact head?_digits (Nat.pos_of_ne_zero h0) (by rw [hds]; rfl)
      rw [hds]
      refine Or.inr (cons_mem_comp (mem_oneOf ?_) (mem_grouped fun c hc => hdigit c (by simp [hc])))
      exact (List.mem_cons.mp (mem_digitChars (hdigit d (by simp)))).resolve_left hd
  unfold intText
  split_ifs
  · exact mem_comp mem_sign_minus hwhole
  · exact mem_comp mem_sign_nil hwhole

theorem readInt_intText (n : ℤ) : readInt (intText n) = n := by
  unfold intText
  split_ifs with hn
  · rw [readInt, value_digits]
    omega
  · have hdigit : ∀ c ∈ digits n.natAbs, c.isDigit = true := isDigit_digits
    unfold readInt
    split
    · next h => exact absurd (hdigit '-' (by rw [h]; simp)) (by decide)
    · next h => exact absurd (hdigit '+' (by rw [h]; simp)) (by decide)
    · rw [value_digits]
      omega

theorem isDecimalText_intText (n : ℤ) : isDecimalText (intText n) = true := by
  have hdigit : ∀ c ∈ digits n.natAbs, c.isDigit = true := isDigit_digits
  have hds : (if (intText n).head? ∈ [some '-', some '+'] then (intText n).drop 1 else intText n) =
      digits n.natAbs := by
    unfold intText
    split_ifs with hn hs hs
    · rfl
    · simp at hs
    · obtain ⟨d, ds, hd⟩ := List.exists_cons_of_ne_nil (digits_ne_nil n.natAbs)
      have hd' := hdigit d (by rw [hd]; simp)
      rw [hd] at hs
      rcases (by simpa using hs : d = '-' ∨ d = '+') with rfl | rfl <;> cases hd'
    · rfl
  unfold isDecimalText
  simp only [hds, Bool.and_eq_true, Bool.or_eq_true, decide_eq_true_eq]
  refine ⟨List.all_eq_true.mpr hdigit, ?_⟩
  by_cases h0 : n.natAbs = 0
  · exact .inl (by rw [h0]; rfl)
  · exact .inr (head?_digits (Nat.pos_of_ne_zero h0))

/-- A printed whole number is read as this number. -/
theorem resolve_int (n : ℤ) : resolve (intText n) = .int n := by
  have hchars : ∀ c ∈ intText n, c ≠ '_' ∧ c ≠ '.' := fun c hc => by
    have hall : ∀ a ∈ digitChars ++ ['-'], a ≠ '_' ∧ a ≠ '.' :=
      forall_of_all (by decide)
    exact hall c (mem_numberChars_int hc)
  obtain ⟨d, hd, hdigit⟩ := exists_digit_int n
  have hfloat : floatRe.rmatch (intText n) = false :=
    not_rmatch_of_needs (c := '.') (fun h => (hchars _ h).2 rfl) (by decide)
  have hint : intRe.rmatch (intText n) = true :=
    (rmatch_iff_matches' _ _).mpr (Or.inl (Or.inl (Or.inl (Or.inl (intText_mem n)))))
  unfold resolve
  simp only [boolRe_digit hd hdigit, hfloat, hint, filter_grouped fun c hc => (hchars c hc).1,
    isDecimalText_intText, readInt_intText, Bool.false_eq_true, if_false, if_true]

theorem readFloat_reprText (h : IsDecimal x) (hp : '.' ∈ reprAbs x) :
    readFloat (reprText x) = some x := by
  have habs := readAbs_reprAbs h hp
  unfold reprText
  split_ifs with hx
  · rw [readFloat, habs, abs_of_neg hx, Option.map_some, neg_neg]
  · obtain ⟨whole, frac, e, htext, hne, hwhole, -⟩ := reprAbs_point hp
    obtain ⟨d, whole, rfl⟩ := List.exists_cons_of_ne_nil hne
    have hd := hwhole d (by simp)
    unfold readFloat
    split
    · next heq =>
      rw [htext] at heq
      cases heq
      cases hd
    · next heq =>
      rw [htext] at heq
      cases heq
      cases hd
    · rw [habs, abs_of_nonneg (not_lt.mp hx)]

theorem point_mem_iff : '.' ∈ reprText x ↔ '.' ∈ reprAbs x := by
  unfold reprText
  split_ifs <;> simp

/-- A float printed with a point is read as this float. -/
theorem resolve_float (h : IsDecimal x) (hp : '.' ∈ reprText x) :
    resolve (reprText x) = .float x := by
  have hall : ∀ a ∈ digitChars ++ ['.', 'e', '-', '+'], a ≠ '_' ∧ a.toLower = a :=
    forall_of_all (by decide)
  have hchars : ∀ c ∈ reprText x, c ≠ '_' ∧ c.toLower = c := fun c hc =>
    hall c (mem_numberChars hc)
  obtain ⟨d, hd, hdigit⟩ := exists_digit_abs x
  have hfloat : floatRe.rmatch (reprText x) = true := by
    refine (rmatch_iff_matches' _ _).mpr (Or.inl (Or.inl (Or.inl (Or.inl ?_))))
    unfold reprText
    split_ifs
    · exact reprAbs_mem (point_mem_iff.mp hp) mem_sign_minus
    · exact reprAbs_mem (point_mem_iff.mp hp) mem_sign_nil
  have hlower : (reprText x).map Char.toLower = reprText x := by
    conv_rhs => rw [← List.map_id (reprText x)]
    exact List.map_congr_left fun c hc => (hchars c hc).2
  unfold resolve
  simp only [boolRe_digit (mem_reprText hd) hdigit, hfloat, hlower,
    filter_grouped fun c hc => (hchars c hc).1, readFloat_reprText h (point_mem_iff.mp hp),
    Bool.false_eq_true, if_false, if_true]

/-- A float printed without a point is read as a string. -/
theorem resolve_pointless (hp : '.' ∉ reprText x) :
    resolve (reprText x) = .str (String.ofList (reprText x)) := by
  obtain ⟨d, hd, hdigit⟩ := exists_digit_abs x
  obtain ⟨ds, k, htext, -⟩ := reprAbs_pointless (point_mem_iff.not.mp hp)
  have he : 'e' ∈ reprText x := mem_reprText (by rw [htext]; simp)
  have hx : 'x' ∉ reprText x := fun h => absurd (mem_numberChars h) (by decide)
  have hfloat : floatRe.rmatch (reprText x) = false := not_rmatch_of_needs hp (by decide)
  have hother : otherRe.rmatch (reprText x) = false := not_rmatch_of_letter he (by decide)
  have hint : intRe.rmatch (reprText x) = false := by
    have hhex : hexRe.rmatch (reprText x) = false := not_rmatch_of_needs hx (by decide)
    rw [← Bool.not_eq_true, intRe, add_rmatch_iff, add_rmatch_iff, add_rmatch_iff, add_rmatch_iff,
      hhex, not_rmatch_of_letter he (by decide), not_rmatch_of_letter he (by decide),
      not_rmatch_of_letter he (by decide), not_rmatch_of_letter he (by decide)]
    simp
  unfold resolve
  simp only [boolRe_digit (mem_reprText hd) hdigit, hfloat, hint, hother, Bool.false_eq_true,
    if_false]

/-- No pattern fits, for a character that it does not have or the point that it needs. -/
def isWord (text : List Char) : Bool :=
  text.any (· ∉ letters boolRe) && '.' ∉ text && text.any (· ∉ letters intRe) &&
    text.any (· ∉ letters otherRe)

theorem not_rmatch_of_any {P : RegularExpression Char} (h : text.any (· ∉ letters P) = true) :
    P.rmatch text = false := by
  obtain ⟨c, hc, hnot⟩ := List.any_eq_true.mp h
  exact not_rmatch_of_letter hc (of_decide_eq_true hnot)

theorem resolve_word (h : isWord text = true) : resolve text = .str (String.ofList text) := by
  simp only [isWord, Bool.and_eq_true, decide_eq_true_eq] at h
  obtain ⟨⟨⟨hbool, hpoint⟩, hint⟩, hother⟩ := h
  have hfloat : floatRe.rmatch text = false := not_rmatch_of_needs hpoint (by decide)
  unfold resolve
  simp only [not_rmatch_of_any hbool, hfloat, not_rmatch_of_any hint, not_rmatch_of_any hother,
    Bool.false_eq_true, if_false]

end Yaml
