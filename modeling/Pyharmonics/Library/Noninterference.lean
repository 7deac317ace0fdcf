import Pyharmonics.Library.Machines

/-! Noninterference: what a machine answers to one party does not show what the others asked. -/
namespace Machines

variable {σ ι ω : Type*} {step : σ → ι → σ × ω} {mine : ι → Prop} [DecidablePred mine]
  {G : σ → ι → Prop} {R : σ → σ → Prop} {s t : σ} {xs : List ι}

/-- The answers of a run to the inputs of one party. -/
def answersTo (step : σ → ι → σ × ω) (mine : ι → Prop) [DecidablePred mine] : σ → List ι → List ω
  | _, [] => []
  | s, x :: xs =>
    if mine x then (step s x).2 :: answersTo step mine (step s x).1 xs
    else answersTo step mine (step s x).1 xs

/-- The unwinding of noninterference: `R` relates the states of a run to those of the run of the
party's own inputs alone, in which those inputs are answered alike; the inputs of the others keep a
state related to the same one. -/
theorem answersTo_eq_purged
    (hown : ∀ s t x, R s t → G s x → mine x →
      (step s x).2 = (step t x).2 ∧ R (step s x).1 (step t x).1)
    (hothers : ∀ s t x, R s t → G s x → ¬ mine x → R (step s x).1 t)
    (h : R s t) (hg : Along step G s xs) :
    answersTo step mine s xs = outputs step t (xs.filter fun x => mine x) := by
  induction xs generalizing s t with
  | nil => rfl
  | cons x xs ih =>
    by_cases hx : mine x
    · obtain ⟨hanswer, hnext⟩ := hown s t x h hg.1 hx
      rw [answersTo, if_pos hx, List.filter_cons_of_pos (by simpa using hx), outputs, hanswer,
        ih hnext hg.2]
    · rw [answersTo, if_neg hx, List.filter_cons_of_neg (by simpa using hx),
        ih (hothers s t x h hg.1 hx) hg.2]

end Machines
