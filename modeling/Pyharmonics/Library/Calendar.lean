import Mathlib.Tactic

/-! The Gregorian calendar in days since the start of 1970, and its quarters. -/
namespace Calendar

variable {y : ℤ} {q : ℕ}

def Leap (y : ℤ) : Prop := y % 4 = 0 ∧ y % 100 ≠ 0 ∨ y % 400 = 0

instance : Decidable (Leap y) := inferInstanceAs (Decidable (_ ∨ _))

/-- The first day of a year. -/
def yearStart (y : ℤ) : ℤ :=
  365 * (y - 1) + (y - 1) / 4 - (y - 1) / 100 + (y - 1) / 400 - 719162

/-- The days of a year before a month. -/
def daysBefore (y : ℤ) (month : ℕ) : ℤ :=
  [0, 31, 59, 90, 120, 151, 181, 212, 243, 273, 304, 334].getD (month - 1) 0 +
    if 2 < month ∧ Leap y then 1 else 0

/-- The first day of a month. -/
def monthStart (y : ℤ) (month : ℕ) : ℤ := yearStart y + daysBefore y month

/-- The first day of a quarter. -/
def quarterStart (y : ℤ) (q : ℕ) : ℤ := monthStart y ((q - 1) * 3 + 1)

/-- The quarter behind a quarter. -/
def nextQuarter (y : ℤ) (q : ℕ) : ℤ × ℕ := if 4 ≤ q then (y + 1, 1) else (y, q + 1)

/-- The last day of a quarter. -/
def quarterEnd (y : ℤ) (q : ℕ) : ℤ := quarterStart (nextQuarter y q).1 (nextQuarter y q).2 - 1

theorem yearStart_succ (y : ℤ) : yearStart (y + 1) = yearStart y + if Leap y then 366 else 365 := by
  unfold yearStart Leap
  split_ifs with h <;> omega

/-- A quarter has ninety to ninety-two days. -/
theorem quarterStart_next (h₁ : 1 ≤ q) (h₄ : q ≤ 4) :
    quarterStart y q + 90 ≤ quarterStart (nextQuarter y q).1 (nextQuarter y q).2 := by
  have hyear := yearStart_succ y
  have hcases : q = 1 ∨ q = 2 ∨ q = 3 ∨ q = 4 := by omega
  rcases hcases with rfl | rfl | rfl | rfl <;>
    simp [quarterStart, nextQuarter, monthStart, daysBefore] <;> split_ifs at hyear ⊢ <;> omega

theorem quarterStart_le_end (h₁ : 1 ≤ q) (h₄ : q ≤ 4) : quarterStart y q ≤ quarterEnd y q := by
  have := quarterStart_next (y := y) h₁ h₄
  unfold quarterEnd
  omega

/-- The first quarter of 2024 runs from day 19723 to day 19813. -/
example : quarterStart 2024 1 = 19723 ∧ quarterEnd 2024 1 = 19813 := by decide

end Calendar
