import Mathlib.Tactic

/-! Lists cut into pieces of one size. -/
namespace Chunks

variable {α : Type*} {l : List α} {k n : ℕ}

/-- The starts `0, k, 2k, …` below `n`: `range(0, n, k)`. -/
def starts (n k : ℕ) : List ℕ := (List.range ((n + k - 1) / k)).map (· * k)

/-- `[l[i : i + k] for i in range(0, len(l), k)]` -/
def chunks (k : ℕ) (l : List α) : List (List α) :=
  (starts l.length k).map fun i => (l.drop i).take k

theorem flatten_pieces (m : ℕ) :
    ((List.range m).map fun i => (l.drop (i * k)).take k).flatten = l.take (m * k) := by
  induction m with
  | zero => simp
  | succ m ih =>
    rw [List.range_succ, List.map_append, List.flatten_append, ih, Nat.succ_mul, List.take_add]
    simp

theorem flatten_chunks (hk : 0 < k) : (chunks k l).flatten = l := by
  have hmap : chunks k l =
      (List.range ((l.length + k - 1) / k)).map fun i => (l.drop (i * k)).take k := by
    simp [chunks, starts, Function.comp_def]
  rw [hmap, flatten_pieces]
  apply List.take_of_length_le
  have h := Nat.lt_div_mul_add (a := l.length + k - 1) hk
  omega

end Chunks
