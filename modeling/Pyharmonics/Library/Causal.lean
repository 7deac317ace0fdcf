import Pyharmonics.Library.Series

/-! Causal operators: what they make of the first values does not depend on the later ones. -/
namespace Series

variable {α β γ : Type*} {f : List α → List β} {xs ys : List α} {k i : ℕ}

/-- The first `k` results are the results of the first `k` values. -/
def Causal (f : List α → List β) : Prop := ∀ k xs, f (xs.take k) = (f xs).take k

/-- `xs.shift(1)` -/
def shift (xs : List α) : List (Option α) := (none :: xs.map some).take xs.length

/-- What `g` makes of the values up to and including each position. -/
def atEach (g : List α → β) (xs : List α) : List β :=
  (List.range xs.length).map fun i => g (xs.take (i + 1))

/-- `xs.rolling(window).mean()`; NA until the window is full. -/
def rollingMean (window : ℕ) : List ℚ → List (Option ℚ) :=
  atEach fun xs => if xs.length < window then none else some (mean (tail window xs))

@[simp] theorem length_shift (xs : List α) : (shift xs).length = xs.length := by simp [shift]

@[simp] theorem length_atEach (g : List α → β) (xs : List α) : (atEach g xs).length = xs.length := by
  simp [atEach]

@[simp] theorem length_rollingMean (window : ℕ) (xs : List ℚ) :
    (rollingMean window xs).length = xs.length := length_atEach _ xs

@[simp] theorem length_ewm (alpha : ℚ) (xs : List ℚ) : (ewm alpha xs).length = xs.length := by
  cases xs <;> simp [ewm]

@[simp] theorem length_diff (xs : List ℚ) : (diff xs).length = xs.length - 1 := by
  cases xs <;> simp [diff, paired]

theorem Causal.id : Causal fun xs : List α => xs := fun _ _ => rfl

theorem Causal.map (hf : Causal f) (g : β → γ) : Causal fun xs => (f xs).map g := by
  intro k xs
  simp only [hf k xs, List.map_take]

theorem Causal.comp {g : List β → List γ} (hg : Causal g) (hf : Causal f) :
    Causal fun xs => g (f xs) := by
  intro k xs
  simp only [hf k xs, hg k (f xs)]

theorem Causal.zipWith {δ : Type*} {g : List α → List γ} (op : β → γ → δ) (hf : Causal f)
    (hg : Causal g) : Causal fun xs => List.zipWith op (f xs) (g xs) := by
  intro k xs
  simp only [hf k xs, hg k xs, List.take_zipWith]

theorem Causal.atEach (g : List α → β) : Causal (atEach g) := by
  intro k xs
  unfold Series.atEach
  rw [← List.map_take, List.take_range, List.length_take]
  apply List.map_congr_left
  intro i hi
  have hik : i < k := lt_of_lt_of_le (List.mem_range.mp hi) (min_le_left _ _)
  rw [List.take_take, min_eq_left (by omega)]

theorem Causal.rollingMean (window : ℕ) : Causal (rollingMean window) := Causal.atEach _

theorem Causal.shift : Causal (shift (α := α)) := by
  intro k xs
  unfold Series.shift
  rw [List.length_take, List.take_take]
  cases hm : min k xs.length with
  | zero => rfl
  | succ m =>
    have hmk : m ≤ k := by omega
    rw [List.take_succ_cons, List.take_succ_cons, ← List.map_take, List.take_take, min_eq_left hmk,
      List.map_take]

theorem Causal.ewm (alpha : ℚ) : Causal (ewm alpha) := by
  intro k xs
  cases xs with
  | nil => simp [Series.ewm]
  | cons x xs =>
    cases k with
    | zero => rfl
    | succ k => exact (List.take_scanl _ _ _).symm

/-- Of `k + 1` values there are `k` pairs. -/
theorem paired_take (op : α → α → β) (k : ℕ) (xs : List α) :
    paired op (xs.take (k + 1)) = (paired op xs).take k := by
  induction k generalizing xs with
  | zero => cases xs <;> simp [paired]
  | succ k ih =>
    cases xs with
    | nil => simp [paired]
    | cons x xs =>
      cases xs with
      | nil => simp [paired]
      | cons y ys => exact congrArg (op x y :: ·) (ih (y :: ys))

/-- A first value without a predecessor in front of what the later ones make of theirs. -/
theorem Causal.cons {g : List α → List β} (b : β)
    (hg : ∀ k xs, g (xs.take (k + 1)) = (g xs).take k) :
    Causal fun xs => if xs = [] then [] else b :: g xs := by
  intro k xs
  cases k with
  | zero => simp
  | succ k =>
    cases xs with
    | nil => simp
    | cons x xs => simpa using hg k (x :: xs)

/-- A value before the cut is the one of the whole series. -/
theorem Causal.getElem? (hf : Causal f) (hi : i < k) : (f (xs.take k))[i]? = (f xs)[i]? := by
  rw [hf, List.getElem?_take_of_lt hi]

/-- A scan over the positions from `start` on, restricted to those before a cut. -/
theorem filterMap_range'_cut {g h : ℕ → Option β} {index : β → ℕ} {start n k : ℕ}
    (hg : ∀ i b, h i = some b → index b = i) (hk : k ≤ n) (heq : ∀ i < k, g i = h i) :
    (List.range' start (k - start)).filterMap g =
      ((List.range' start (n - start)).filterMap h).filter fun b => index b < k := by
  obtain hlt | hle := lt_or_ge k start
  · rw [Nat.sub_eq_zero_of_le hlt.le]
    symm
    simp only [List.range'_zero, List.filterMap_nil, List.filter_eq_nil_iff, decide_eq_true_eq]
    intro b hb
    obtain ⟨i, hi, hb⟩ := List.mem_filterMap.mp hb
    rw [hg i b hb]
    have := (List.mem_range'_1.mp hi).1
    omega
  · have hsplit : n - start = (k - start) + (n - k) := by omega
    rw [hsplit, ← List.range'_append_1, List.filterMap_append, List.filter_append]
    have hleft : ((List.range' start (k - start)).filterMap h).filter (fun b => index b < k) =
        (List.range' start (k - start)).filterMap h := by
      apply List.filter_eq_self.mpr
      intro b hb
      obtain ⟨i, hi, hb⟩ := List.mem_filterMap.mp hb
      have := (List.mem_range'_1.mp hi).2
      rw [hg i b hb, decide_eq_true_eq]
      omega
    have hright : ((List.range' (start + (k - start)) (n - k)).filterMap h).filter
        (fun b => index b < k) = [] := by
      apply List.filter_eq_nil_iff.mpr
      intro b hb
      obtain ⟨i, hi, hb⟩ := List.mem_filterMap.mp hb
      have := (List.mem_range'_1.mp hi).1
      rw [hg i b hb, decide_eq_true_eq]
      omega
    rw [hleft, hright, List.append_nil]
    apply List.filterMap_congr
    intro i hi
    have := (List.mem_range'_1.mp hi).2
    exact heq i (by omega)

end Series
