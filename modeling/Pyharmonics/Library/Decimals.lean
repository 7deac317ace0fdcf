import Mathlib.Algebra.Order.Field.Rat
import Mathlib.Data.List.DropRight
import Mathlib.Tactic

/-! Numbers and their decimal texts: integers, and floats the way Python prints them. -/
namespace Decimals

variable {x : ℚ} {n : ℤ} {ds : List Char}

/-- The digits of a number, the most significant first. -/
def digits (n : ℕ) : List Char := Nat.toDigits 10 n

/-- The number of these digits. -/
def value (ds : List Char) : ℕ := Nat.ofDigitChars 10 ds 0

/-- `str(n)` -/
def intText (n : ℤ) : List Char := if n < 0 then '-' :: digits n.natAbs else digits n.natAbs

/-- How many digits a number has behind the point, if they come to an end. -/
def scale (x : ℚ) : ℕ := ((List.range (Nat.log2 x.den + 1)).find? fun k => x.den ∣ 10 ^ k).getD 0

/-- The digits behind the point come to an end, as those of a printed float do. -/
def IsDecimal (x : ℚ) : Prop := x.den ∣ 10 ^ scale x

instance : DecidablePred IsDecimal := fun x => inferInstanceAs (Decidable (x.den ∣ 10 ^ scale x))

/-- The number without its sign and its point. -/
def mantissa (x : ℚ) : ℕ := x.num.natAbs * (10 ^ scale x / x.den)

/-- The sign and at least two digits. -/
def exponentText (e : ℤ) : List Char :=
  let ds := digits e.natAbs
  (if e < 0 then '-' else '+') :: if ds.length < 2 then '0' :: ds else ds

/-- `repr` of a float that is not negative: positional up to sixteen digits and down to four
zeros behind the point, else with an exponent. -/
def reprAbs (x : ℚ) : List Char :=
  let ds := digits (mantissa x)
  let point : ℤ := ds.length - scale x
  if -4 < point ∧ point ≤ 16 then
    if scale x = 0 then ds ++ ['.', '0']
    else if 0 < point then ds.take point.toNat ++ '.' :: ds.drop point.toNat
    else '0' :: '.' :: (List.replicate (-point).toNat '0' ++ ds)
  else
    let significant := ds.rdropWhile (· = '0')
    significant.take 1 ++ (if significant.length ≤ 1 then [] else '.' :: significant.drop 1) ++
      'e' :: exponentText (point - 1)

/-- `repr` of a float. -/
def reprText (x : ℚ) : List Char := if x < 0 then '-' :: reprAbs x else reprAbs x

/-- The number of a text of digits with a point, and an exponent behind them or not. -/
def readAbs (text : List Char) : Option ℚ :=
  let whole := text.takeWhile Char.isDigit
  match text.dropWhile Char.isDigit with
  | '.' :: rest =>
    let frac := rest.takeWhile Char.isDigit
    let m : ℚ := value (whole ++ frac)
    match rest.dropWhile Char.isDigit with
    | [] => some (m * 10 ^ (-(frac.length : ℤ)))
    | 'e' :: '+' :: e => some (m * 10 ^ ((value e : ℤ) - frac.length))
    | 'e' :: '-' :: e => some (m * 10 ^ (-(value e : ℤ) - frac.length))
    | _ => none
  | _ => none

/-- The number of a float text with its sign. -/
def readFloat : List Char → Option ℚ
  | '-' :: text => (readAbs text).map (-·)
  | '+' :: text => readAbs text
  | text => readAbs text

/-- The number of a text of digits with its sign. -/
def readInt : List Char → ℤ
  | '-' :: ds => -value ds
  | '+' :: ds => value ds
  | ds => value ds

@[simp] theorem value_digits (n : ℕ) : value (digits n) = n := Nat.ofDigitChars_ten_toDigits

theorem isDigit_digits {n : ℕ} : ∀ c ∈ digits n, c.isDigit = true :=
  fun _ => Nat.isDigit_of_mem_toDigits (by decide) (by decide)

theorem digits_ne_nil (n : ℕ) : digits n ≠ [] := Nat.toDigits_ne_nil

/-- The first digit of a positive number is not zero. -/
theorem head?_digits {n : ℕ} (h : 0 < n) : (digits n).head? ≠ some '0' := by
  induction n using Nat.strong_induction_on with
  | _ n ih =>
    rw [digits, Nat.toDigits_eq_if (by norm_num)]
    split_ifs with hlt
    · interval_cases n <;> decide
    · have hih := ih (n / 10) (by omega) (by omega)
      rwa [List.head?_append_of_ne_nil _ Nat.toDigits_ne_nil]

theorem value_append (as bs : List Char) :
    value (as ++ bs) = 10 ^ bs.length * value as + value bs := by
  rw [value, Nat.ofDigitChars_append, Nat.ofDigitChars_eq_ofDigitChars_zero]
  rfl

@[simp] theorem value_replicate (k : ℕ) : value (List.replicate k '0') = 0 := by
  simp [value]

/-- The digits in front of something that is no digit. -/
theorem takeWhile_digits {c : Char} {rest : List Char} (h : ∀ a ∈ ds, a.isDigit = true)
    (hc : c.isDigit = false) : (ds ++ c :: rest).takeWhile Char.isDigit = ds := by
  rw [List.takeWhile_append_of_pos h, List.takeWhile_cons_of_neg (by simp [hc]), List.append_nil]

theorem dropWhile_digits {c : Char} {rest : List Char} (h : ∀ a ∈ ds, a.isDigit = true)
    (hc : c.isDigit = false) : (ds ++ c :: rest).dropWhile Char.isDigit = c :: rest := by
  rw [List.dropWhile_append_of_pos h, List.dropWhile_cons_of_neg (by simp [hc])]

theorem takeWhile_all (h : ∀ a ∈ ds, a.isDigit = true) : ds.takeWhile Char.isDigit = ds :=
  List.takeWhile_eq_self_iff.mpr h

theorem dropWhile_all (h : ∀ a ∈ ds, a.isDigit = true) : ds.dropWhile Char.isDigit = [] :=
  List.dropWhile_eq_nil_iff.mpr h

/-- A decimal is its mantissa with the point put in. -/
theorem abs_eq_mantissa (h : IsDecimal x) : |x| = mantissa x * (10 : ℚ) ^ (-(scale x : ℤ)) := by
  have hden : (x.den : ℚ) ≠ 0 := by exact_mod_cast x.den_ne_zero
  have hpow : ((10 ^ scale x / x.den : ℕ) : ℚ) = 10 ^ scale x / x.den := by
    rw [Nat.cast_div h hden]
    push_cast
    rfl
  rw [mantissa, Nat.cast_mul, hpow, zpow_neg, zpow_natCast]
  rw [Nat.cast_natAbs, Int.cast_abs]
  nth_rewrite 1 [← Rat.num_div_den x]
  rw [abs_div, Nat.abs_cast]
  field_simp

/-- Digits on both sides of a point. -/
theorem readAbs_point {whole frac : List Char} (hw : ∀ c ∈ whole, c.isDigit = true)
    (hf : ∀ c ∈ frac, c.isDigit = true) :
    readAbs (whole ++ '.' :: frac) =
      some ((value (whole ++ frac) : ℚ) * 10 ^ (-(frac.length : ℤ))) := by
  unfold readAbs
  simp only [takeWhile_digits hw (by decide : Char.isDigit '.' = false),
    dropWhile_digits hw (by decide : Char.isDigit '.' = false), takeWhile_all hf, dropWhile_all hf]

/-- Digits on both sides of a point, and an exponent. -/
theorem readAbs_exponent {whole frac : List Char} {e : ℤ} (hw : ∀ c ∈ whole, c.isDigit = true)
    (hf : ∀ c ∈ frac, c.isDigit = true) :
    readAbs (whole ++ '.' :: (frac ++ 'e' :: exponentText e)) =
      some ((value (whole ++ frac) : ℚ) * 10 ^ (e - frac.length)) := by
  have hvalue : value (if (digits e.natAbs).length < 2 then '0' :: digits e.natAbs
      else digits e.natAbs) = e.natAbs := by
    split_ifs
    · exact value_digits _
    · exact value_digits _
  unfold readAbs exponentText
  simp only [takeWhile_digits hw (by decide : Char.isDigit '.' = false),
    dropWhile_digits hw (by decide : Char.isDigit '.' = false),
    takeWhile_digits hf (by decide : Char.isDigit 'e' = false),
    dropWhile_digits hf (by decide : Char.isDigit 'e' = false)]
  by_cases he : e < 0
  · simp only [if_pos he, hvalue]
    rw [Int.ofNat_natAbs_of_nonpos he.le, neg_neg]
  · simp only [if_neg he, hvalue]
    rw [Int.natAbs_of_nonneg (not_lt.mp he)]

theorem exists_significant (ds : List Char) :
    ∃ z, ds = ds.rdropWhile (· = '0') ++ List.replicate z '0' := by
  refine ⟨(ds.rtakeWhile (· = '0')).length, ?_⟩
  have hzeros : ds.rtakeWhile (· = '0') =
      List.replicate (ds.rtakeWhile (· = '0')).length '0' := by
    refine List.eq_replicate_of_mem fun c hc => ?_
    simpa using List.mem_rtakeWhile_imp hc
  rw [← hzeros, List.rdropWhile_append_rtakeWhile]

theorem isDigit_zeros {k : ℕ} : ∀ c ∈ List.replicate k '0', c.isDigit = true := by
  intro c hc
  rw [List.eq_of_mem_replicate hc]
  rfl

theorem exponentText_point (e : ℤ) : '.' ∉ exponentText e := by
  have hdigits : '.' ∉ digits e.natAbs := fun h => by simpa using isDigit_digits _ h
  unfold exponentText
  simp only
  split_ifs <;> simp [hdigits]

theorem exponentText_form (e : ℤ) : ∃ s ds, exponentText e = s :: ds ∧ (s = '-' ∨ s = '+') ∧
    ds ≠ [] ∧ ∀ c ∈ ds, c.isDigit = true := by
  refine ⟨if e < 0 then '-' else '+', _, rfl, ?_, ?_, ?_⟩
  · split_ifs <;> simp
  · split_ifs
    · simp
    · exact digits_ne_nil _
  · intro c hc
    split_ifs at hc
    · rcases List.mem_cons.mp hc with rfl | hc
      · rfl
      · exact isDigit_digits c hc
    · exact isDigit_digits c hc

/-- A text with a point has digits before it; digits follow, and an exponent or none. -/
theorem reprAbs_point (hp : '.' ∈ reprAbs x) : ∃ whole frac e,
    reprAbs x = whole ++ '.' :: (frac ++ e) ∧
    whole ≠ [] ∧ (∀ c ∈ whole, c.isDigit = true) ∧ (∀ c ∈ frac, c.isDigit = true) ∧
    (e = [] ∨ ∃ k, e = 'e' :: exponentText k) := by
  have hdigits : ∀ c ∈ digits (mantissa x), c.isDigit = true := isDigit_digits
  unfold reprAbs at hp ⊢
  simp only at hp ⊢
  split_ifs at hp ⊢ with hpos hscale hpoint hlen
  · exact ⟨digits (mantissa x), ['0'], [], rfl, digits_ne_nil _, hdigits, by simp, .inl rfl⟩
  · refine ⟨_, _, [], by rw [List.append_nil], ?_, fun c hc => hdigits c (List.mem_of_mem_take hc),
      fun c hc => hdigits c (List.mem_of_mem_drop hc), .inl rfl⟩
    rw [Ne, List.take_eq_nil_iff, not_or]
    exact ⟨by omega, digits_ne_nil _⟩
  · refine ⟨['0'], _, [], by rw [List.append_nil]; rfl, by simp, by simp, ?_, .inl rfl⟩
    intro c hc
    rcases List.mem_append.mp hc with hc | hc
    · exact isDigit_zeros c hc
    · exact hdigits c hc
  · exfalso
    rw [List.append_nil, List.mem_append, List.mem_cons] at hp
    rcases hp with hp | hp | hp
    · have := hdigits _ ((List.rdropWhile_prefix _ _).subset (List.mem_of_mem_take hp))
      simp at this
    · cases hp
    · exact exponentText_point _ hp
  · have hsub := (List.rdropWhile_prefix (fun c => c = '0') (digits (mantissa x))).subset
    refine ⟨_, _, _, by rw [List.append_assoc]; rfl, ?_,
      fun c hc => hdigits c (hsub (List.mem_of_mem_take hc)),
      fun c hc => hdigits c (hsub (List.mem_of_mem_drop hc)), .inr ⟨_, rfl⟩⟩
    rw [Ne, List.take_eq_nil_iff, not_or, ← List.length_eq_zero_iff]
    exact ⟨by omega, by omega⟩

/-- A text without a point is at most one digit and an exponent. -/
theorem reprAbs_pointless (hp : '.' ∉ reprAbs x) : ∃ d k, reprAbs x = d ++ 'e' :: exponentText k ∧
    ∀ c ∈ d, c.isDigit = true := by
  have hdigits : ∀ c ∈ digits (mantissa x), c.isDigit = true := isDigit_digits
  unfold reprAbs at hp ⊢
  simp only at hp ⊢
  split_ifs at hp ⊢ with hpos hscale hpoint hlen
  · simp at hp
  · simp at hp
  · simp at hp
  · refine ⟨_, _, by rw [List.append_nil], fun c hc => hdigits c ?_⟩
    exact (List.rdropWhile_prefix _ _).subset (List.mem_of_mem_take hc)
  · simp at hp

/-- The significant digits with an exponent stand for all of them with their zeros. -/
theorem readAbs_significant {z k : ℕ} (hds : ∀ c ∈ ds, c.isDigit = true) (hlen : 1 < ds.length) :
    readAbs (ds.take 1 ++ '.' :: (ds.drop 1 ++ 'e' :: exponentText (ds.length + z - k - 1))) =
      some (value (ds ++ List.replicate z '0') * (10 : ℚ) ^ (-(k : ℤ))) := by
  have hten : (10 : ℚ) ≠ 0 := by norm_num
  rw [readAbs_exponent (fun c hc => hds c (List.mem_of_mem_take hc))
    (fun c hc => hds c (List.mem_of_mem_drop hc)), List.take_append_drop, List.length_drop,
    value_append, value_replicate, List.length_replicate, Option.some_inj]
  have hexp : (ds.length + z - k - 1 - (ds.length - 1 : ℕ) : ℤ) = z + -(k : ℤ) := by omega
  rw [hexp, zpow_add₀ hten]
  push_cast
  rw [zpow_natCast]
  ring

/-- The text of a decimal that shows a point is read as the number. -/
theorem readAbs_reprAbs (h : IsDecimal x) (hp : '.' ∈ reprAbs x) :
    readAbs (reprAbs x) = some |x| := by
  have hdigits : ∀ c ∈ digits (mantissa x), c.isDigit = true := isDigit_digits
  rw [abs_eq_mantissa h]
  unfold reprAbs at hp ⊢
  simp only at hp ⊢
  by_cases hpos : -4 < ((digits (mantissa x)).length - scale x : ℤ) ∧
      ((digits (mantissa x)).length - scale x : ℤ) ≤ 16
  · rw [if_pos hpos]
    split_ifs with hscale hpoint
    · -- a whole number
      rw [readAbs_point hdigits (by simp), value_append, value_digits, hscale, Option.some_inj]
      norm_num [value, Nat.ofDigitChars]
      ring
    · -- the point is among the digits
      rw [readAbs_point (fun c hc => hdigits c (List.mem_of_mem_take hc))
        (fun c hc => hdigits c (List.mem_of_mem_drop hc)), List.take_append_drop, value_digits,
        List.length_drop]
      congr 4
      omega
    · -- zeros stand between the point and the digits
      have hall : ∀ c ∈ List.replicate (-((digits (mantissa x)).length - scale x : ℤ)).toNat '0' ++
          digits (mantissa x), c.isDigit = true := by
        intro c hc
        rcases List.mem_append.mp hc with hc | hc
        · exact isDigit_zeros c hc
        · exact hdigits c hc
      have hzero : ∀ c ∈ ['0'], c.isDigit = true := by simp
      have hread := readAbs_point hzero hall
      rw [List.singleton_append] at hread
      have hvalue : value ('0' :: (List.replicate
          (-((digits (mantissa x)).length - scale x : ℤ)).toNat '0' ++ digits (mantissa x))) =
          mantissa x := by
        rw [← List.cons_append, ← List.replicate_succ, value_append, value_replicate, mul_zero,
          zero_add, value_digits]
      rw [hread, List.singleton_append, hvalue, List.length_append, List.length_replicate]
      congr 4
      omega
  · rw [if_neg hpos] at hp ⊢
    obtain ⟨z, hz⟩ := exists_significant (digits (mantissa x))
    generalize hsig : (digits (mantissa x)).rdropWhile (· = '0') = sig at hp hz ⊢
    have hsigdigits : ∀ c ∈ sig, c.isDigit = true := fun c hc => hdigits c (by rw [hz]; simp [hc])
    have hlen : 1 < sig.length := by
      by_contra hle
      rw [if_pos (by omega), List.append_nil, List.mem_append, List.mem_cons] at hp
      rcases hp with hp | hp | hp
      · simpa using hsigdigits _ (List.mem_of_mem_take hp)
      · cases hp
      · exact exponentText_point _ hp
    have hread := readAbs_significant (z := z) (k := scale x) hsigdigits hlen
    rw [← hz, value_digits] at hread
    have hlength := congrArg List.length hz
    rw [List.length_append, List.length_replicate] at hlength
    have hexp : ((digits (mantissa x)).length - scale x - 1 : ℤ) =
        sig.length + z - scale x - 1 := by omega
    rw [if_neg (by omega), ← hread, hexp, List.append_assoc]
    rfl

end Decimals
