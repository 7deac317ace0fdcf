import Mathlib.Algebra.BigOperators.Group.List.Basic
import Mathlib.Algebra.Order.Group.Int
import Mathlib.Tactic

/-! Tables: lists of rows with a key, updated and deleted by key. -/
namespace Rows

variable {α κ : Type*} [DecidableEq κ] {key : α → κ} {f : α → α} {l : List α} {a b : α} {k : κ}

/-- `UPDATE … WHERE key = k` -/
def update (key : α → κ) (k : κ) (f : α → α) (l : List α) : List α :=
  l.map fun a => if key a = k then f a else a

/-- `DELETE … WHERE key = k` -/
def delete (key : α → κ) (k : κ) (l : List α) : List α := l.filter fun a => key a ≠ k

theorem keys_update (hf : ∀ a, key (f a) = key a) : (update key k f l).map key = l.map key := by
  rw [update, List.map_map]
  apply List.map_congr_left
  intro a _
  by_cases h : key a = k <;> simp [h, hf]

theorem update_of_notMem (h : k ∉ l.map key) : update key k f l = l := by
  refine (List.map_congr_left ?_).trans (List.map_id l)
  intro a ha
  exact if_neg fun he : key a = k => h (he ▸ List.mem_map_of_mem ha)

theorem mem_update_of_ne (ha : a ∈ l) (h : key a ≠ k) : a ∈ update key k f l :=
  List.mem_map.mpr ⟨a, ha, if_neg h⟩

theorem mem_update_of_eq (ha : a ∈ l) (h : key a = k) : f a ∈ update key k f l :=
  List.mem_map.mpr ⟨a, ha, if_pos h⟩

/-- A row after an update is an untouched row or the image of one with the key. -/
theorem mem_update (h : b ∈ update key k f l) :
    (b ∈ l ∧ key b ≠ k) ∨ ∃ a ∈ l, key a = k ∧ b = f a := by
  obtain ⟨a, ha, rfl⟩ := List.mem_map.mp h
  by_cases hk : key a = k
  · right
    exact ⟨a, ha, hk, if_pos hk⟩
  · left
    rw [if_neg hk]
    exact ⟨ha, hk⟩

omit [DecidableEq κ] in
/-- The rows of a table of distinct keys are told apart by them. -/
theorem eq_of_key (hn : (l.map key).Nodup) (ha : a ∈ l) (hb : b ∈ l) (h : key a = key b) :
    a = b := List.inj_on_of_nodup_map hn ha hb h

omit [DecidableEq κ] in
/-- A row put behind a table of distinct keys needs a new key. -/
theorem nodup_keys_concat :
    ((l ++ [a]).map key).Nodup ↔ key a ∉ l.map key ∧ (l.map key).Nodup := by
  rw [List.map_append, List.map_singleton, ← List.concat_eq_append, List.nodup_concat]

/-- An update of one row changes a sum by what it changes in that row. -/
theorem sum_update {g : α → ℤ} (hn : (l.map key).Nodup) (ha : a ∈ l) :
    ((update key (key a) f l).map g).sum = (l.map g).sum + (g (f a) - g a) := by
  induction l with
  | nil => simp at ha
  | cons b l ih =>
    obtain ⟨hb, hl⟩ := List.nodup_cons.mp hn
    rcases List.mem_cons.mp ha with rfl | ha
    · have hrest : update key (key a) f l = l := update_of_notMem hb
      simp only [update] at hrest
      simp only [update, List.map_cons, if_true, hrest, List.sum_cons]
      omega
    · have hne : key b ≠ key a := fun he => hb (he ▸ List.mem_map_of_mem ha)
      have := ih hl ha
      simp only [update] at this
      simp only [update, List.map_cons, if_neg hne, List.sum_cons, this]
      omega

end Rows
