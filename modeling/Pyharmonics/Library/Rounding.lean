import Mathlib.Data.Rat.Floor
import Mathlib.Tactic

/-! Rounding of exact rationals to decimals, ties to even, and their fixed-point text. -/
namespace Rounding

variable {x y : ℚ} {g : ℤ} {n : ℕ}

/-- The nearest integer, ties to the even one. -/
def halfEven (x : ℚ) : ℤ :=
  let f := ⌊x⌋
  if x - f < 1 / 2 then f
  else if 1 / 2 < x - f then f + 1
  else if f % 2 = 0 then f else f + 1

/-- The nearest multiple of `10 ^ -n`, ties to even. -/
def roundTo (n : ℕ) (x : ℚ) : ℚ := halfEven (x * 10 ^ n) / 10 ^ n

theorem halfEven_cases (x : ℚ) :
    (halfEven x = ⌊x⌋ ∧ x - ⌊x⌋ < 1 / 2) ∨ (halfEven x = ⌊x⌋ + 1 ∧ 1 / 2 < x - ⌊x⌋) ∨
      (x - ⌊x⌋ = 1 / 2 ∧ halfEven x % 2 = 0) := by
  unfold halfEven
  by_cases h : x - ⌊x⌋ < 1 / 2
  · exact Or.inl ⟨if_pos h, h⟩
  · by_cases h' : 1 / 2 < x - ⌊x⌋
    · refine Or.inr (Or.inl ⟨?_, h'⟩)
      simp only [if_neg h, if_pos h']
    · refine Or.inr (Or.inr ⟨le_antisymm (not_lt.mp h') (not_lt.mp h), ?_⟩)
      simp only [if_neg h, if_neg h']
      split_ifs with he <;> omega

theorem halfEven_near (x : ℚ) : |(halfEven x : ℚ) - x| ≤ 1 / 2 := by
  have h0 := Int.floor_le x
  have h1 := Int.lt_floor_add_one x
  rw [abs_le]
  rcases halfEven_cases x with ⟨h, hl⟩ | ⟨h, hl⟩ | ⟨h, -⟩
  · rw [h]
    constructor <;> linarith
  · rw [h]
    push_cast
    constructor <;> linarith
  · unfold halfEven
    simp only [h, lt_irrefl, if_false]
    split_ifs
    · constructor <;> linarith
    · push_cast
      constructor <;> linarith

/-- Rounding reaches an even integer from half a unit below it on. -/
theorem le_halfEven_iff (hg : g % 2 = 0) : g ≤ halfEven x ↔ (g : ℚ) - 1 / 2 ≤ x := by
  have hn := abs_le.mp (halfEven_near x)
  constructor
  · intro h
    have : (g : ℚ) ≤ halfEven x := by exact_mod_cast h
    linarith [hn.2]
  · intro h
    by_contra hlt
    have hle : (halfEven x : ℚ) ≤ g - 1 := by
      have : halfEven x ≤ g - 1 := by omega
      exact_mod_cast this
    have hx : x = g - 1 / 2 := le_antisymm (by linarith [hn.1]) h
    have hf : ⌊x⌋ = g - 1 := by
      rw [Int.floor_eq_iff, hx]
      push_cast
      constructor <;> linarith
    rcases halfEven_cases x with ⟨-, hl⟩ | ⟨-, hl⟩ | ⟨hl, he⟩
    · rw [hf, hx] at hl
      push_cast at hl
      linarith
    · rw [hf, hx] at hl
      push_cast at hl
      linarith
    · have : halfEven x = g - 1 := by
        have hge : (g : ℚ) - 1 ≤ halfEven x := by linarith [hn.1]
        have : g - 1 ≤ halfEven x := by exact_mod_cast hge
        omega
      omega

/-- A decimal with an even last digit is reached from half a unit of that digit below it on. -/
theorem le_roundTo_iff (hg : g % 2 = 0) :
    (g : ℚ) / 10 ^ n ≤ roundTo n x ↔ (g : ℚ) / 10 ^ n - 1 / (2 * 10 ^ n) ≤ x := by
  have hp : (0 : ℚ) < 10 ^ n := by positivity
  rw [roundTo, div_le_div_iff_of_pos_right hp, Int.cast_le, le_halfEven_iff hg, ← sub_nonneg,
    ← sub_nonneg (b := (g : ℚ) / 10 ^ n - 1 / (2 * 10 ^ n))]
  have : x - ((g : ℚ) / 10 ^ n - 1 / (2 * 10 ^ n)) = (x * 10 ^ n - (g - 1 / 2)) / 10 ^ n := by
    field_simp
  rw [this, le_div_iff₀ hp, zero_mul]

theorem halfEven_pos_iff (x : ℚ) : 0 < halfEven x ↔ 1 / 2 < x := by
  have hle := Int.floor_le x
  have hnear := abs_le.mp (halfEven_near x)
  rcases halfEven_cases x with ⟨h, hl⟩ | ⟨h, hl⟩ | ⟨hl, he⟩
  · rw [h]
    constructor
    · intro hpos
      have : (1 : ℚ) ≤ ⌊x⌋ := by exact_mod_cast hpos
      linarith
    · intro hx
      have : (0 : ℚ) < ⌊x⌋ := by linarith
      exact_mod_cast this
  · rw [h]
    constructor
    · intro hpos
      have : (0 : ℚ) ≤ ⌊x⌋ := by exact_mod_cast Int.lt_add_one_iff.mp hpos
      linarith
    · intro hx
      have : 0 ≤ ⌊x⌋ := Int.floor_nonneg.mpr (by linarith)
      omega
  · constructor
    · intro hpos
      have : (2 : ℚ) ≤ halfEven x := by
        have : 2 ≤ halfEven x := by omega
        exact_mod_cast this
      linarith [hnear.2]
    · intro hx
      have : (0 : ℚ) < halfEven x := by linarith [hnear.1]
      exact_mod_cast this

/-- A number rounds to a positive decimal from more than half a unit of the last digit on. -/
theorem roundTo_pos_iff : 0 < roundTo n x ↔ 1 / (2 * 10 ^ n) < x := by
  have hp : (0 : ℚ) < 10 ^ n := by positivity
  rw [roundTo, div_pos_iff_of_pos_right hp, Int.cast_pos, halfEven_pos_iff, ← div_div,
    div_lt_iff₀ hp]

/-- A positive decimal is at least a unit of its last digit. -/
theorem unit_le_roundTo (h : 0 < roundTo n x) : 1 / 10 ^ n ≤ roundTo n x := by
  have hp : (0 : ℚ) < 10 ^ n := by positivity
  rw [roundTo, div_pos_iff_of_pos_right hp, Int.cast_pos] at h
  have : (1 : ℚ) ≤ halfEven (x * 10 ^ n) := by exact_mod_cast h
  exact div_le_div_of_nonneg_right this hp.le

/-- A number that reaches a positive decimal does not round to zero. -/
theorem roundTo_pos_of_le (h : 0 < roundTo n y) (hle : roundTo n y ≤ x) : 0 < roundTo n x := by
  have hp : (0 : ℚ) < 10 ^ n := by positivity
  rw [roundTo_pos_iff]
  refine lt_of_lt_of_le ?_ ((unit_le_roundTo h).trans hle)
  rw [div_lt_div_iff₀ (by positivity) hp]
  linarith

/-- Rounding goes to the floor or to the integer behind it. -/
theorem halfEven_floor (x : ℚ) : ⌊x⌋ ≤ halfEven x ∧ halfEven x ≤ ⌊x⌋ + 1 := by
  unfold halfEven
  simp only
  split_ifs <;> omega

theorem halfEven_mono (h : x ≤ y) : halfEven x ≤ halfEven y := by
  rcases (Int.floor_mono h).lt_or_eq with hlt | heq
  · have hx := (halfEven_floor x).2
    have hy := (halfEven_floor y).1
    omega
  · unfold halfEven
    simp only [heq]
    split_ifs <;> first | omega | (exfalso; linarith)

theorem roundTo_mono (h : x ≤ y) : roundTo n x ≤ roundTo n y := by
  have hp : (0 : ℚ) < 10 ^ n := by positivity
  unfold roundTo
  rw [div_le_div_iff_of_pos_right hp, Int.cast_le]
  exact halfEven_mono (mul_le_mul_of_nonneg_right h hp.le)

/-- An integer is rounded to itself. -/
theorem roundTo_intCast (n : ℕ) (g : ℤ) : roundTo n g = g := by
  have hself : halfEven ((g : ℚ) * 10 ^ n) = g * 10 ^ n := by
    have hfloor : ⌊(g : ℚ) * 10 ^ n⌋ = g * 10 ^ n := by exact_mod_cast Int.floor_intCast (g * 10 ^ n)
    unfold halfEven
    rw [hfloor]
    exact if_pos (by push_cast; norm_num)
  rw [roundTo, hself]
  push_cast
  field_simp

/-- What lies between two integers stays between them. -/
theorem roundTo_between {g' : ℤ} (h : (g : ℚ) ≤ x) (h' : x ≤ g') :
    (g : ℚ) ≤ roundTo n x ∧ roundTo n x ≤ g' :=
  ⟨(roundTo_intCast n g).ge.trans (roundTo_mono h), (roundTo_mono h').trans (roundTo_intCast n g').le⟩

/-! Text of numbers. -/

/-- The decimal digits of `n`, at least `width` of them. -/
def padded (width n : ℕ) : String :=
  let s := toString n
  String.ofList (List.replicate (width - s.length) '0') ++ s

/-- `f"{x:.{digits}f}"`. -/
def fixedText (digits : ℕ) (x : ℚ) : String :=
  let n := (halfEven (x * 10 ^ digits)).natAbs
  let body := if digits = 0 then toString n
    else toString (n / 10 ^ digits) ++ "." ++ padded digits (n % 10 ^ digits)
  if x < 0 then "-" ++ body else body

/-- `f"{x:.0%}"`. -/
def percentText (x : ℚ) : String := fixedText 0 (x * 100) ++ "%"

/-- The last of the fractional digits that is not a zero, and those before it. -/
def stripZeros (s : List Char) : List Char := (s.reverse.dropWhile (· = '0')).reverse

/-- `str(x)` of a number with at most four fractional digits. -/
def shortText (x : ℚ) : String :=
  let n := (halfEven (x * 10 ^ 4)).natAbs
  let frac := stripZeros (padded 4 (n % 10 ^ 4)).toList
  let body := toString (n / 10 ^ 4) ++ "." ++ (if frac = [] then "0" else String.ofList frac)
  if x < 0 then "-" ++ body else body

end Rounding
