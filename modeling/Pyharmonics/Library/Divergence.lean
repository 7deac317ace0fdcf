import Mathlib.InformationTheory.KullbackLeibler.KLFun

/-! The divergence of two coins, and how far the counts of two lists can differ. -/
namespace Divergence

open InformationTheory

variable {p q : ℝ}

/-- The Kullback–Leibler divergence of two coins. -/
noncomputable def binary (p q : ℝ) : ℝ :=
  p * Real.log (p / q) + (1 - p) * Real.log ((1 - p) / (1 - q))

/-- Both sides of the coin by the one convex function. -/
theorem binary_eq (hq : 0 < q) (hq' : q < 1) :
    binary p q = q * klFun (p / q) + (1 - q) * klFun ((1 - p) / (1 - q)) := by
  have hq1 : 1 - q ≠ 0 := (sub_pos.mpr hq').ne'
  rw [klFun_apply, klFun_apply, binary]
  field_simp
  ring

theorem binary_nonneg (hp : 0 ≤ p) (hp' : p ≤ 1) (hq : 0 < q) (hq' : q < 1) : 0 ≤ binary p q := by
  have hq1 : 0 < 1 - q := sub_pos.mpr hq'
  rw [binary_eq hq hq']
  have hfirst := klFun_nonneg (div_nonneg hp hq.le)
  have hsecond := klFun_nonneg (div_nonneg (sub_nonneg.mpr hp') hq1.le)
  positivity

/-- Only equal coins have no divergence. -/
theorem binary_eq_zero_iff (hp : 0 ≤ p) (hp' : p ≤ 1) (hq : 0 < q) (hq' : q < 1) :
    binary p q = 0 ↔ p = q := by
  have hq1 : 0 < 1 - q := sub_pos.mpr hq'
  have hfirst := klFun_nonneg (div_nonneg hp hq.le)
  have hsecond := klFun_nonneg (div_nonneg (sub_nonneg.mpr hp') hq1.le)
  rw [binary_eq hq hq', add_eq_zero_iff_of_nonneg (mul_nonneg hq.le hfirst)
    (mul_nonneg hq1.le hsecond), mul_eq_zero_iff_left hq.ne', mul_eq_zero_iff_left hq1.ne',
    klFun_eq_zero_iff (div_nonneg hp hq.le),
    klFun_eq_zero_iff (div_nonneg (sub_nonneg.mpr hp') hq1.le), div_eq_one_iff_eq hq.ne',
    div_eq_one_iff_eq hq1.ne']
  constructor
  · exact fun h => h.1
  · exact fun h => ⟨h, by rw [h]⟩

/-- The places at which two lists differ. -/
def differing (a b : List Bool) : ℕ := (a.zip b).countP fun e => e.1 ≠ e.2

theorem differing_cons {a b : List Bool} {x y : Bool} :
    differing (x :: a) (y :: b) = differing a b + if x = y then 0 else 1 := by
  rw [differing, List.zip_cons_cons, List.countP_cons]
  cases x <;> cases y <;> rfl

theorem differing_eq_zero_iff {a b : List Bool} (h : a.length = b.length) :
    differing a b = 0 ↔ a = b := by
  induction a generalizing b with
  | nil => simp [differing, List.length_eq_zero_iff.mp h.symm]
  | cons x a ih =>
    cases b with
    | nil => cases h
    | cons y b =>
      rw [differing_cons, Nat.add_eq_zero_iff, ih (Nat.succ_injective h), List.cons.injEq]
      simp [and_comm]

theorem differing_le {a b : List Bool} : differing a b ≤ a.length :=
  List.countP_le_length.trans (by rw [List.length_zip]; exact Nat.min_le_left _ _)

/-- Two lists cannot differ less often than in how many are true. -/
theorem count_sub_le {a b : List Bool} (h : a.length = b.length) :
    |(a.count true : ℝ) - b.count true| ≤ differing a b := by
  induction a generalizing b with
  | nil => simp [differing, List.length_eq_zero_iff.mp h.symm]
  | cons x a ih =>
    cases b with
    | nil => cases h
    | cons y b =>
      have hrest := abs_le.mp (ih (Nat.succ_injective h))
      rw [differing_cons, abs_le]
      cases x <;> cases y <;> simp <;> constructor <;> linarith

end Divergence
