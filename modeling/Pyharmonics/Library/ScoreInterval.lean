import Mathlib.Algebra.Order.Field.Basic
import Mathlib.Tactic

/-! The interval of the proportions that a score test does not tell from an observed one. -/
namespace ScoreInterval

variable {ν : Type*} [Field ν] [LinearOrder ν] {k p q r x l u l' u' : ν}

/-- The observed proportion lies within the score of `x`: `k` is the squared quantile over the
number of trials. -/
def Within (k p x : ν) : Prop := (x - p) ^ 2 ≤ k * (x * (1 - x))

/-- The proportions within the score are those from `l` to `u`. -/
def Bounds (k p l u : ν) : Prop := ∀ x, Within k p x ↔ l ≤ x ∧ x ≤ u

/-- Both proportions mirrored, the score is the same. -/
theorem within_mirror : Within k (1 - p) (1 - x) ↔ Within k p x := by
  unfold Within
  rw [show (1 - x - (1 - p)) ^ 2 = (x - p) ^ 2 by ring,
    show (1 - x) * (1 - (1 - x)) = x * (1 - x) by ring]

theorem Bounds.within_lower (h : Bounds k p l u) (hlu : l ≤ u) : Within k p l :=
  (h l).mpr ⟨le_refl l, hlu⟩

theorem Bounds.within_upper (h : Bounds k p l u) (hlu : l ≤ u) : Within k p u :=
  (h u).mpr ⟨hlu, le_refl u⟩

theorem Bounds.unique (h : Bounds k p l u) (h' : Bounds k p l' u') (hlu : l ≤ u) :
    l = l' ∧ u = u' := by
  have hl := (h' l).mp (h.within_lower hlu)
  have hu := (h' u).mp (h.within_upper hlu)
  have hlu' : l' ≤ u' := hl.1.trans hl.2
  have hl' := (h l').mp (h'.within_lower hlu')
  have hu' := (h u').mp (h'.within_upper hlu')
  exact ⟨le_antisymm hl'.1 hl.1, le_antisymm hu.2 hu'.2⟩

variable [IsStrictOrderedRing ν]

theorem within_self (hk : 0 ≤ k) (h0 : 0 ≤ p) (h1 : p ≤ 1) : Within k p p := by
  rw [Within, sub_self, zero_pow two_ne_zero]
  exact mul_nonneg hk (mul_nonneg h0 (sub_nonneg.mpr h1))

/-- Only proportions of the unit interval are within a score. -/
theorem Within.unit (hk : 0 < k) (h : Within k p x) : 0 ≤ x ∧ x ≤ 1 := by
  have hprod : 0 ≤ x * (1 - x) := nonneg_of_mul_nonneg_right ((sq_nonneg _).trans h) hk
  constructor
  · by_contra hx
    nlinarith [not_le.mp hx]
  · by_contra hx
    nlinarith [not_le.mp hx]

/-- Completing the square: the bounds are the center less and plus the root. -/
theorem bounds_of_root (hk : 0 ≤ k) (hr : 0 ≤ r) (hroot : r * r = k * (p * (1 - p)) + k * k / 4) :
    Bounds k p ((p + k / 2 - r) / (1 + k)) ((p + k / 2 + r) / (1 + k)) := by
  intro x
  have hpos : 0 < 1 + k := by linarith
  have hsquare : ((1 + k) * x - (p + k / 2)) ^ 2 - r ^ 2 =
      (1 + k) * ((x - p) ^ 2 - k * (x * (1 - x))) := by
    rw [pow_two r, hroot]
    ring
  have hwithin : Within k p x ↔ ((1 + k) * x - (p + k / 2)) ^ 2 ≤ r ^ 2 := by
    rw [Within, ← sub_nonpos, ← mul_le_mul_iff_right₀ hpos, mul_zero, ← hsquare, sub_nonpos]
  rw [hwithin, sq_le_sq, abs_of_nonneg hr, abs_le, div_le_iff₀ hpos, le_div_iff₀ hpos]
  constructor
  · rintro ⟨hl, hu⟩
    constructor <;> linarith
  · rintro ⟨hl, hu⟩
    constructor <;> linarith

theorem Bounds.contains (h : Bounds k p l u) (hk : 0 ≤ k) (h0 : 0 ≤ p) (h1 : p ≤ 1) :
    l ≤ p ∧ p ≤ u := (h p).mp (within_self hk h0 h1)

theorem Bounds.mirror (h : Bounds k p l u) : Bounds k (1 - p) (1 - u) (1 - l) := by
  intro x
  have hx : Within k (1 - p) x ↔ Within k p (1 - x) := by
    rw [← within_mirror, sub_sub_cancel]
  rw [hx, h]
  constructor
  · rintro ⟨hl, hu⟩
    constructor <;> linarith
  · rintro ⟨hl, hu⟩
    constructor <;> linarith

/-- A proportion above the greater of two observed ones that is within the score for the smaller is
within the score for the greater. -/
theorem Bounds.upper_mono (h : Bounds k p l u) (h' : Bounds k q l' u') (hlu : l ≤ u) (hq : q ≤ u')
    (hpq : p ≤ q) : u ≤ u' := by
  rcases le_total u q with huq | hqu
  · exact huq.trans hq
  · have hcloser : (u - q) ^ 2 ≤ (u - p) ^ 2 :=
      pow_le_pow_left₀ (sub_nonneg.mpr hqu) (sub_le_sub_left hpq u) 2
    exact ((h' u).mp (hcloser.trans (h.within_upper hlu))).2

theorem Bounds.lower_mono (h : Bounds k p l u) (h' : Bounds k q l' u') (hlu : l' ≤ u') (hp : l ≤ p)
    (hpq : p ≤ q) : l ≤ l' := by
  have hmirror := h'.mirror.upper_mono h.mirror (sub_le_sub_left hlu 1) (sub_le_sub_left hp 1)
    (sub_le_sub_left hpq 1)
  linarith

end ScoreInterval
