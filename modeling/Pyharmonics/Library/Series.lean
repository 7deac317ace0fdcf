import Mathlib.Algebra.Order.Field.Rat
import Mathlib.Algebra.Order.BigOperators.Group.List
import Mathlib.Tactic

/-! Series of numbers: windows, means and exponentially weighted means. -/
namespace Series

variable {α : Type*} {xs ys : List α} {n m : ℤ}

/-- `xs.tail(n)`: the last `n`, or for a negative `n` all but the first `-n`. -/
def tail (n : ℤ) (xs : List α) : List α :=
  if 0 ≤ n then xs.drop (xs.length - n.toNat) else xs.drop (-n).toNat

def mean (xs : List ℚ) : ℚ := xs.sum / xs.length

/-- The mean square deviation, over `length - ddof`. -/
def variance (ddof : ℕ) (xs : List ℚ) : ℚ :=
  (xs.map fun x => (x - mean xs) ^ 2).sum / ((xs.length : ℚ) - ddof)

/-- The largest of a series that is not empty. -/
def maximum (xs : List ℚ) : ℚ := xs.foldl max (xs.headD 0)

/-- The smallest of a series that is not empty. -/
def minimum (xs : List ℚ) : ℚ := xs.foldl min (xs.headD 0)

/-- `f` of each value and the one before it. -/
def paired {β : Type*} (f : α → α → β) : List α → List β
  | [] => []
  | x :: xs => List.zipWith f (x :: xs) xs

/-- `xs.diff()` without its undefined first value. -/
def diff (xs : List ℚ) : List ℚ := paired (fun a b => b - a) xs

/-- `xs.ewm(alpha=alpha, adjust=False).mean()`. -/
def ewm (alpha : ℚ) : List ℚ → List ℚ
  | [] => []
  | x :: xs => xs.scanl (fun m y => (1 - alpha) * m + alpha * y) x

/-- `xs.ewm(span=span, adjust=False).mean()`. -/
def ewmSpan (span : ℕ) (xs : List ℚ) : List ℚ := ewm (2 / (span + 1)) xs

/-- How often `p` holds. -/
def count (p : α → Prop) [DecidablePred p] (xs : List α) : ℕ := (xs.filter fun x => p x).length

theorem tail_nonneg (h : 0 ≤ n) : tail n xs = xs.drop (xs.length - n.toNat) := if_pos h

theorem length_tail (h : 0 ≤ n) : (tail n xs).length = min n.toNat xs.length := by
  rw [tail_nonneg h, List.length_drop]
  omega

theorem paired_eq_zipWith {β : Type*} (f : α → α → β) (xs : List α) :
    paired f xs = List.zipWith f xs xs.tail := by
  cases xs <;> rfl

theorem paired_map_range {β : Type*} (f : α → α → β) (g : ℕ → α) (n : ℕ) :
    paired f ((List.range (n + 1)).map g) = (List.range n).map fun k => f (g k) (g (k + 1)) := by
  rw [paired_eq_zipWith]
  apply List.ext_getElem
  · simp
  · intro k h₁ h₂
    simp

theorem tail_map_range (g : ℕ → α) (n : ℕ) :
    tail n ((List.range (n + 1)).map g) = (List.range n).map fun k => g (k + 1) := by
  rw [tail_nonneg (by omega), List.range_succ_eq_map]
  simp

theorem tail_all (h : (xs.length : ℤ) ≤ n) : tail n xs = xs := by
  rw [tail_nonneg (by omega), Nat.sub_eq_zero_of_le (by omega), List.drop_zero]

theorem exists_of_mem_zipWith {β γ : Type*} {f : α → β → γ} {zs : List β} {c : γ}
    (h : c ∈ List.zipWith f xs zs) : ∃ a ∈ xs, ∃ b ∈ zs, f a b = c := by
  rw [← List.map_uncurry_zip_eq_zipWith] at h
  obtain ⟨⟨a, b⟩, hab, hc⟩ := List.mem_map.mp h
  obtain ⟨ha, hb⟩ := List.of_mem_zip hab
  exact ⟨a, ha, b, hb, hc⟩

theorem scanl_nonneg {op : ℚ → ℚ → ℚ} (hop : ∀ a b, 0 ≤ a → 0 ≤ b → 0 ≤ op a b) {xs : List ℚ} {a : ℚ}
    (ha : 0 ≤ a) (h : ∀ x ∈ xs, 0 ≤ x) : ∀ m ∈ xs.scanl op a, 0 ≤ m := by
  induction xs generalizing a with
  | nil => simpa using ha
  | cons x xs ih =>
    intro m hm
    rw [List.scanl_cons, List.mem_cons] at hm
    rcases hm with rfl | hm
    · exact ha
    · exact ih (hop a x ha (h x (by simp))) (fun y hy => h y (by simp [hy])) m hm

/-- Weighted means of values that are not negative are not negative. -/
theorem ewm_nonneg {alpha : ℚ} {xs : List ℚ} (h0 : 0 ≤ alpha) (h1 : alpha ≤ 1)
    (h : ∀ x ∈ xs, 0 ≤ x) : ∀ m ∈ ewm alpha xs, 0 ≤ m := by
  cases xs with
  | nil => simp [ewm]
  | cons x xs =>
    refine scanl_nonneg ?_ (h x (by simp)) (fun y hy => h y (by simp [hy]))
    intro a b ha hb
    have := sub_nonneg.mpr h1
    positivity

/-- One new value is weighed against the mean of the ones before it. -/
theorem foldl_weighted_pos_iff {alpha x : ℚ} {xs : List ℚ} (h0 : 0 < alpha) (h1 : alpha < 1)
    (hx : 0 ≤ x) (h : ∀ y ∈ xs, 0 ≤ y) :
    0 < xs.foldl (fun m y => (1 - alpha) * m + alpha * y) x ↔ 0 < x ∨ ∃ y ∈ xs, 0 < y := by
  induction xs generalizing x with
  | nil => simp
  | cons y ys ih =>
    have hy := h y (by simp)
    have hw : 0 < 1 - alpha := sub_pos.mpr h1
    have hstep : 0 < (1 - alpha) * x + alpha * y ↔ 0 < x ∨ 0 < y := by
      constructor
      · intro hpos
        by_contra! hzero
        obtain rfl := le_antisymm hzero.1 hx
        obtain rfl := le_antisymm hzero.2 hy
        simp at hpos
      · rintro (hpos | hpos)
        · have := mul_pos hw hpos
          positivity
        · have := mul_pos h0 hpos
          positivity
    rw [List.foldl_cons, ih (by positivity) fun z hz => h z (by simp [hz]), hstep]
    simp [or_assoc]

theorem getLast?_ewm {alpha x : ℚ} {xs : List ℚ} : (ewm alpha (x :: xs)).getLast? =
    some (xs.foldl (fun m y => (1 - alpha) * m + alpha * y) x) :=
  List.getLast?_scanl

/-- The last mean of values that are not negative forgets none of the positive ones. -/
theorem ewm_last_pos_iff {alpha m : ℚ} {xs : List ℚ} (h0 : 0 < alpha) (h1 : alpha < 1)
    (h : ∀ x ∈ xs, 0 ≤ x) (hm : (ewm alpha xs).getLast? = some m) :
    0 < m ↔ ∃ x ∈ xs, 0 < x := by
  cases xs with
  | nil => simp [ewm] at hm
  | cons x xs =>
    rw [getLast?_ewm, Option.some_inj] at hm
    rw [← hm, foldl_weighted_pos_iff h0 h1 (h x (by simp)) fun y hy => h y (by simp [hy])]
    simp

/-- With all the weight on the new value the means are the values. -/
theorem ewm_one (xs : List ℚ) : ewm 1 xs = xs := by
  cases xs with
  | nil => rfl
  | cons x xs =>
    unfold ewm
    induction xs generalizing x with
    | nil => rfl
    | cons y ys ih => simpa using ih y

theorem getLast?_zipWith {β γ : Type*} {f : α → β → γ} {zs : List β} {a : α} {b : β}
    (hlen : xs.length = zs.length) (ha : xs.getLast? = some a) (hb : zs.getLast? = some b) :
    (List.zipWith f xs zs).getLast? = some (f a b) := by
  rw [List.getLast?_eq_getElem?] at ha hb ⊢
  rw [List.length_zipWith, hlen, min_self, List.getElem?_zipWith, ← hlen, ha, hlen, hb]

theorem count_eq_zero {p : α → Prop} [DecidablePred p] (h : ∀ x ∈ xs, ¬ p x) : count p xs = 0 := by
  rw [count, List.length_eq_zero_iff, List.filter_eq_nil_iff]
  simpa using h

theorem count_eq_length {p : α → Prop} [DecidablePred p] (h : ∀ x ∈ xs, p x) :
    count p xs = xs.length := by
  rw [count, List.filter_eq_self.mpr (by simpa using h)]

theorem count_map_lt (c n : ℕ) :
    count (· = true) ((List.range n).map fun k => decide (k < c)) = min c n := by
  induction n with
  | zero => simp [count]
  | succ n ih =>
    rw [List.range_succ, List.map_append, count, List.filter_append, List.length_append]
    change count (· = true) _ + _ = _
    rw [ih]
    by_cases h : n < c
    · simp [h]
      omega
    · simp [h]
      omega

end Series
