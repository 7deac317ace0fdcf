import Pyharmonics.CalibrationError
import Pyharmonics.Library.Descent

/-! The fit for labels that are any integers, and that it ends no worse than it starts. -/
namespace Pyharmonics.Loop.AnyLabel

variable {ν : Type} [Field ν] [LinearOrder ν]

/-- The loss at one pair, whose probability is kept off 0 and 1. -/
def lossAt (E : Elementary ν) (θ : ν × ν) (pair : ν × ℤ) : ν :=
  let least : ν := 1 / (10 ^ 12 : ℕ)
  let p := max (min (sigmoid E (θ.1 * pair.1 + θ.2)) (1 - least)) least
  0 - ((pair.2 : ν) * E.log p + (1 - (pair.2 : ν)) * E.log (1 - p))

/-- `_log_loss` -/
def logLoss (E : Elementary ν) (θ : ν × ν) (pairs : List (ν × ℤ)) : ν :=
  (pairs.map (lossAt E θ)).sum / max (pairs.length : ν) 1

/-- `_grad` -/
def grad (E : Elementary ν) (θ : ν × ν) (pairs : List (ν × ℤ)) : ν × ν :=
  let err := fun (pair : ν × ℤ) => sigmoid E (θ.1 * pair.1 + θ.2) - (pair.2 : ν)
  let n : ν := max (pairs.length : ν) 1
  ((pairs.map fun pair => err pair * pair.1).sum / n, (pairs.map err).sum / n)

/-- The gradient's norm is below the tolerance. -/
def Flat (E : Elementary ν) (pairs : List (ν × ℤ)) (tol : ν) (θ : ν × ν) : Prop :=
  let g := grad E θ pairs
  E.sqrt (g.1 * g.1 + g.2 * g.2) < tol

instance (E : Elementary ν) (pairs : List (ν × ℤ)) (tol : ν) (θ : ν × ν) :
    Decidable (Flat E pairs tol θ) := inferInstanceAs (Decidable (_ < _))

section

variable [FloorRing ν]

/-- The points the inner loop tries: one step down the gradient, the step halved each time. -/
def tried (E : Elementary ν) (pairs : List (ν × ℤ)) (lr : ν) (θ : ν × ν) : List (ν × ν) :=
  (List.range (halvings lr)).map fun k =>
    let step : ν := lr / (2 ^ k : ℕ)
    (θ.1 - step * (grad E θ pairs).1, θ.2 - step * (grad E θ pairs).2)

/-- `_fit_platt` -/
def fitPlatt (E : Elementary ν) (pairs : List (ν × ℤ)) (maxIter : ℤ) (lr tol : ν) : ν × ν :=
  Descent.descend (fun θ => logLoss E θ pairs) (tried E pairs lr) (Flat E pairs tol) maxIter.toNat
    (1, 0)

end

/-- The labels as integers. -/
def withInts (pairs : List (ν × Bool)) : List (ν × ℤ) :=
  pairs.map fun pair => (pair.1, if pair.2 then 1 else 0)

variable {E : Elementary ν} {pairs : List (ν × Bool)} {θ : ν × ν} {lr tol : ν} {n : ℕ}

omit [LinearOrder ν] in
theorem cast_label (label : Bool) :
    ((if label then 1 else 0 : ℤ) : ν) = labelValue label := by
  cases label <;> simp [labelValue]

theorem logLoss_withInts : logLoss E θ (withInts pairs) = Loop.logLoss E θ pairs := by
  have hloss : lossAt E θ ∘ (fun pair : ν × Bool => (pair.1, if pair.2 then (1 : ℤ) else 0)) =
      Loop.lossAt E θ := by
    funext pair
    simp only [Function.comp_apply, lossAt, Loop.lossAt, cast_label, Nat.cast_pow, Nat.cast_ofNat]
  rw [logLoss, Loop.logLoss, withInts, List.map_map, List.length_map, hloss]

theorem grad_withInts : grad E θ (withInts pairs) = Loop.grad E θ pairs := by
  simp only [grad, Loop.grad, withInts, List.map_map, List.length_map, Function.comp_def,
    cast_label]

section

variable [FloorRing ν]

/-- On zeros and ones it is the fit of `calibrate`. -/
theorem fitPlatt_withInts :
    fitPlatt E (withInts pairs) n lr tol = Loop.fitPlatt E pairs n lr tol := by
  have hrun : ∀ (n : ℕ) (θ : ν × ν), Descent.descend (fun θ => logLoss E θ (withInts pairs))
      (tried E (withInts pairs) lr) (Flat E (withInts pairs) tol) n θ =
        Loop.descend E pairs lr tol n θ := by
    intro n
    induction n with
    | zero => exact fun _ => rfl
    | succ n ih =>
      intro θ
      have hflat : Flat E (withInts pairs) tol θ ↔ Loop.Flat E pairs tol θ := by
        simp only [Flat, Loop.Flat, grad_withInts]
      have hadvance : Descent.advance (fun θ => logLoss E θ (withInts pairs))
          (tried E (withInts pairs) lr) θ = Loop.backtrack E pairs θ lr := by
        simp only [Descent.advance, tried, Loop.backtrack, Loop.stepTo, logLoss_withInts,
          grad_withInts, Nat.cast_pow, Nat.cast_ofNat]
      rw [Descent.descend, Loop.descend, hadvance]
      by_cases h : Loop.Flat E pairs tol θ
      · rw [if_pos h, if_pos (hflat.mpr h)]
      · rw [if_neg h, if_neg (mt hflat.mp h)]
        cases Loop.backtrack E pairs θ lr with
        | none => rfl
        | some θ' => exact ih θ'
  exact hrun n (1, 0)

/-- The fit ends with a loss no greater than that of the identity, whatever the labels, the limit,
the rate and the tolerance. -/
theorem logLoss_fitPlatt_le (E : Elementary ν) (pairs : List (ν × ℤ)) (maxIter : ℤ) (lr tol : ν) :
    logLoss E (fitPlatt E pairs maxIter lr tol) pairs ≤ logLoss E (1, 0) pairs :=
  @Descent.loss_descend_le _ _ _ _ (fun θ => logLoss E θ pairs) _ _ _ _ _

/-- A greater limit ends no higher. -/
theorem logLoss_fitPlatt_antitone {pairs : List (ν × ℤ)} {k l : ℤ} (h : k ≤ l) :
    logLoss E (fitPlatt E pairs l lr tol) pairs ≤ logLoss E (fitPlatt E pairs k lr tol) pairs :=
  @Descent.loss_descend_antitone _ _ _ _ (fun θ => logLoss E θ pairs) _ _ _ _ _ _
    (Int.toNat_le_toNat h)

end

section

variable [IsStrictOrderedRing ν] [FloorRing ν]

/-- The inner loop's steps are the halved ones that are still above `1e-6`. -/
theorem mem_tried {pairs : List (ν × ℤ)} {θ' : ν × ν} : θ' ∈ tried E pairs lr θ ↔
    ∃ k, 1 / 10 ^ 6 < lr / 2 ^ k ∧
      (θ.1 - lr / 2 ^ k * (grad E θ pairs).1, θ.2 - lr / 2 ^ k * (grad E θ pairs).2) = θ' := by
  simp only [tried, List.mem_map, List.mem_range, lt_halvings_iff, Nat.cast_pow, Nat.cast_ofNat]

/-- A calibration that is returned has no greater loss on its pairs than the identity. -/
theorem logLoss_calibrate_le {maxIter : ℕ} {params : CalibrationParams ν}
    (h : calibrate E pairs maxIter = .ok params) :
    Loop.logLoss E (params.a, params.b) pairs ≤ Loop.logLoss E (1, 0) pairs := by
  by_cases hraises : OneSided pairs ∨ ¬ ∀ pair ∈ pairs, IsScore pair.1
  · obtain ⟨m, got, herror⟩ := @calibrate_error _ _ _ _ E pairs maxIter hraises
    rw [herror] at h
    cases h
  · rw [not_or, not_not] at hraises
    obtain ⟨params', hok, hfit, -⟩ := @calibrate_ok _ _ _ _ _ E pairs maxIter hraises.1 hraises.2
    rw [h] at hok
    cases hok
    rw [hfit, ← fitPlatt_withInts, ← logLoss_withInts, ← logLoss_withInts]
    exact @Descent.loss_descend_le _ _ _ _ (fun θ => logLoss E θ (withInts pairs)) _ _ _ _ _

end

end Pyharmonics.Loop.AnyLabel
