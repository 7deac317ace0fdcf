import Mathlib.Order.Monotone.Basic
import Mathlib.Tactic

/-! Descent by trial: from a point to the first of its candidates that does not raise the loss. -/
namespace Descent

variable {Θ ν : Type*} [Preorder ν] [DecidableLE ν] (loss : Θ → ν) (candidates : Θ → List Θ)
  (settled : Θ → Prop) [DecidablePred settled]

/-- The first candidate that does not raise the loss. -/
def advance (θ : Θ) : Option Θ := (candidates θ).find? fun θ' => loss θ' ≤ loss θ

/-- At most so many steps; a settled point ends them, and one with no such candidate. -/
def descend : ℕ → Θ → Θ
  | 0, θ => θ
  | n + 1, θ =>
    if settled θ then θ
    else
      match advance loss candidates θ with
      | some θ' => descend n θ'
      | none => θ

variable {loss candidates settled} {θ θ' : Θ} {m n : ℕ}

theorem loss_advance_le (h : advance loss candidates θ = some θ') : loss θ' ≤ loss θ := by
  have hle := List.find?_some h
  exact of_decide_eq_true hle

/-- Where the descent stands still it stays. -/
theorem descend_of_stops (h : settled θ ∨ advance loss candidates θ = none) :
    descend loss candidates settled n θ = θ := by
  cases n with
  | zero => rfl
  | succ n =>
    rw [descend]
    by_cases hsettled : settled θ
    · rw [if_pos hsettled]
    · rw [if_neg hsettled, h.resolve_left hsettled]

theorem descend_add : descend loss candidates settled (m + n) θ =
    descend loss candidates settled n (descend loss candidates settled m θ) := by
  induction m generalizing θ with
  | zero => rw [Nat.zero_add, descend]
  | succ m ih =>
    rw [Nat.succ_add, descend, descend]
    by_cases hsettled : settled θ
    · rw [if_pos hsettled, if_pos hsettled, descend_of_stops (.inl hsettled)]
    · rw [if_neg hsettled, if_neg hsettled]
      cases hadvance : advance loss candidates θ with
      | none => exact (descend_of_stops (.inr hadvance)).symm
      | some θ' => exact ih

theorem loss_descend_le : loss (descend loss candidates settled n θ) ≤ loss θ := by
  induction n generalizing θ with
  | zero => exact le_rfl
  | succ n ih =>
    rw [descend]
    by_cases hsettled : settled θ
    · rw [if_pos hsettled]
    · rw [if_neg hsettled]
      cases hadvance : advance loss candidates θ with
      | none => exact le_rfl
      | some θ' => exact ih.trans (loss_advance_le hadvance)

/-- More steps end no higher. -/
theorem loss_descend_antitone : Antitone fun n => loss (descend loss candidates settled n θ) := by
  intro m n h
  obtain ⟨k, rfl⟩ := Nat.exists_eq_add_of_le h
  change loss (descend loss candidates settled (m + k) θ) ≤ _
  rw [descend_add]
  exact loss_descend_le

end Descent
