import Mathlib.Tactic

/-! Machines that answer every input: their runs, what runs keep, and two machines side by side. -/
namespace Machines

variable {σ τ ι ω : Type*}

/-- The state a run ends in. -/
def final (step : σ → ι → σ × ω) : σ → List ι → σ
  | s, [] => s
  | s, x :: xs => final step (step s x).1 xs

/-- The answers of a run, in order. -/
def outputs (step : σ → ι → σ × ω) : σ → List ι → List ω
  | _, [] => []
  | s, x :: xs => (step s x).2 :: outputs step (step s x).1 xs

/-- `P` holds of every state of a run and the input it meets. -/
def Along (step : σ → ι → σ × ω) (P : σ → ι → Prop) : σ → List ι → Prop
  | _, [] => True
  | s, x :: xs => P s x ∧ Along step P (step s x).1 xs

variable {step : σ → ι → σ × ω} {step' : τ → ι → τ × ω} {P Q F G : σ → ι → Prop} {I B : σ → Prop}
  {R : σ → τ → Prop} {s : σ} {t : τ} {x : ι} {xs ys : List ι}

@[simp] theorem final_nil : final step s [] = s := rfl

@[simp] theorem final_cons : final step s (x :: xs) = final step (step s x).1 xs := rfl

theorem final_append : final step s (xs ++ ys) = final step (final step s xs) ys := by
  induction xs generalizing s with
  | nil => rfl
  | cons x xs ih => exact ih

@[simp] theorem along_nil : Along step P s [] := trivial

@[simp] theorem along_cons : Along step P s (x :: xs) ↔ P s x ∧ Along step P (step s x).1 xs :=
  Iff.rfl

theorem along_append :
    Along step P s (xs ++ ys) ↔ Along step P s xs ∧ Along step P (final step s xs) ys := by
  induction xs generalizing s with
  | nil => simp
  | cons x xs ih => simp [ih, and_assoc]

theorem along_true : Along step (fun _ _ => True) s xs := by
  induction xs generalizing s with
  | nil => trivial
  | cons x xs ih => exact ⟨trivial, ih⟩

theorem along_and :
    Along step (fun s x => P s x ∧ Q s x) s xs ↔ Along step P s xs ∧ Along step Q s xs := by
  induction xs generalizing s with
  | nil => simp
  | cons x xs ih =>
    simp only [along_cons, ih]
    exact and_and_and_comm

/-- What holds of every answer holds of the answer of every step. -/
theorem forall_outputs_iff {Q : ω → Prop} :
    (∀ o ∈ outputs step s xs, Q o) ↔ Along step (fun s x => Q (step s x).2) s xs := by
  induction xs generalizing s with
  | nil => simp [outputs]
  | cons x xs ih => simp [outputs, ih]

instance [h : ∀ s x, Decidable (P s x)] : Decidable (Along step P s xs) := by
  induction xs generalizing s with
  | nil => exact isTrue trivial
  | cons x xs ih => exact decidable_of_iff _ along_cons.symm

/-- A relation that every step respects holds between any two states of a run. -/
theorem along_iff_related {S : σ → σ → Prop} (hrefl : ∀ s, S s s)
    (htrans : ∀ a b c, S a b → S b c → S a c) :
    Along step (fun s x => S s (step s x).1) s xs ↔
      ∀ ys zs, ys ++ zs <+: xs → S (final step s ys) (final step s (ys ++ zs)) := by
  constructor
  · intro h ys zs hp
    obtain ⟨ws, rfl⟩ := hp
    rw [along_append, along_append] at h
    have hzs := h.1.2
    rw [final_append]
    generalize final step s ys = u at hzs ⊢
    clear h
    induction zs generalizing u with
    | nil => exact hrefl u
    | cons z zs ih => exact htrans _ _ _ hzs.1 (ih _ hzs.2)
  · intro h
    induction xs generalizing s with
    | nil => trivial
    | cons x xs ih =>
      refine ⟨h [] [x] (by simp), ih ?_⟩
      intro ys zs hp
      exact h (x :: ys) zs (by simpa using hp)

/-- What a guarded step keeps, a guarded run keeps. -/
theorem final_of_along (hstep : ∀ s x, I s → G s x → I (step s x).1) (hs : I s)
    (hg : Along step G s xs) : I (final step s xs) := by
  induction xs generalizing s with
  | nil => exact hs
  | cons x xs ih => exact ih (hstep s x hs hg.1) hg.2

theorem final_inv (hstep : ∀ s x, I s → I (step s x).1) (hs : I s) : I (final step s xs) := by
  induction xs generalizing s with
  | nil => exact hs
  | cons x xs ih => exact ih (hstep s x hs)

/-- What no step brings about held before the run. -/
theorem of_final (hstep : ∀ s x, I (step s x).1 → I s) (h : I (final step s xs)) : I s := by
  induction xs generalizing s with
  | nil => exact h
  | cons x xs ih => exact hstep s x (ih h)

/-- A property of steps that amounts to a guard amounts to it on runs, under an invariant that is
kept as long as the guard holds. -/
theorem along_congr_guarded
    (hstep : ∀ s x, I s → (P s x ↔ Q s x) ∧ (Q s x → I (step s x).1)) (hs : I s) :
    Along step P s xs ↔ Along step Q s xs := by
  induction xs generalizing s with
  | nil => exact Iff.rfl
  | cons x xs ih =>
    obtain ⟨hpq, hi⟩ := hstep s x hs
    rw [along_cons, along_cons, hpq]
    exact and_congr_right fun hq => ih (hi hq)

/-- As `along_congr_guarded`, where every step keeps the invariant. -/
theorem along_congr (hstep : ∀ s x, I s → (P s x ↔ Q s x) ∧ I (step s x).1) (hs : I s) :
    Along step P s xs ↔ Along step Q s xs :=
  along_congr_guarded (fun s x h => ⟨(hstep s x h).1, fun _ => (hstep s x h).2⟩) hs

/-- An unguarded step leaves a mark that no later step removes. -/
theorem bad_of_not_along (hgood : ∀ s x, I s → F s x → G s x → I (step s x).1)
    (hbad : ∀ s x, I s → F s x → ¬ G s x → B (step s x).1)
    (hkeep : ∀ s x, F s x → B s → B (step s x).1) (hs : I s) (hf : Along step F s xs)
    (hg : ¬ Along step G s xs) : B (final step s xs) := by
  induction xs generalizing s with
  | nil => exact absurd trivial hg
  | cons x xs ih =>
    by_cases h : G s x
    · exact ih (hgood s x hs hf.1 h) hf.2 fun ha => hg ⟨h, ha⟩
    · rw [final_cons]
      exact final_of_along (fun s x hs hf => hkeep s x hf hs) (hbad s x hs hf.1 h) hf.2

/-- Guarded steps keep `I`, an unguarded one leaves a mark for good: a state that shows which of
the two the run was is reached as `I` shows it exactly by guarded runs. -/
theorem good_iff_along {Good : Prop} (hgood : ∀ s x, I s → F s x → G s x → I (step s x).1)
    (hbad : ∀ s x, I s → F s x → ¬ G s x → B (step s x).1)
    (hkeep : ∀ s x, F s x → B s → B (step s x).1) (hs : I s) (hf : Along step F s xs)
    (hshows : I (final step s xs) → Good) (hmarks : B (final step s xs) → ¬ Good) :
    Good ↔ Along step G s xs := by
  constructor
  · intro h
    by_contra hg
    exact hmarks (bad_of_not_along hgood hbad hkeep hs hf hg) h
  · intro hg
    refine hshows (final_of_along (G := fun s x => F s x ∧ G s x) ?_ hs (along_and.mpr ⟨hf, hg⟩))
    exact fun s x hi h => hgood s x hi h.1 h.2

/-- Two machines that answer alike exactly under a guard, and stay in step under it, give the
same answers exactly on guarded runs. -/
theorem outputs_eq_iff
    (hstep : ∀ s t x, R s t → F s x → ((step s x).2 = (step' t x).2 ↔ G s x) ∧
      (G s x → R (step s x).1 (step' t x).1)) (h : R s t) (hf : Along step F s xs) :
    outputs step s xs = outputs step' t xs ↔ Along step G s xs := by
  induction xs generalizing s t with
  | nil => simp [outputs]
  | cons x xs ih =>
    obtain ⟨ho, hr⟩ := hstep s t x h hf.1
    simp only [outputs, List.cons.injEq, along_cons, ho]
    constructor
    · rintro ⟨hg, heq⟩
      exact ⟨hg, (ih (hr hg) hf.2).mp heq⟩
    · rintro ⟨hg, ha⟩
      exact ⟨hg, (ih (hr hg) hf.2).mpr ha⟩

/-- A machine whose every step answers like the step of another, from states related to its own:
their runs answer alike and end in related states. -/
theorem simulates {F : τ → ι → Prop}
    (hstep : ∀ s t x, R s t → F t x →
      (step s x).2 = (step' t x).2 ∧ R (step s x).1 (step' t x).1)
    (h : R s t) (hf : Along step' F t xs) :
    outputs step s xs = outputs step' t xs ∧ R (final step s xs) (final step' t xs) := by
  induction xs generalizing s t with
  | nil => exact ⟨rfl, h⟩
  | cons x xs ih =>
    obtain ⟨hanswer, hr⟩ := hstep s t x h hf.1
    obtain ⟨houtputs, hfinal⟩ := ih hr hf.2
    exact ⟨by rw [outputs, outputs, hanswer, houtputs], hfinal⟩

/-- What holds at first holds after every part of a run exactly when each step from where it holds
keeps it. -/
theorem forall_isPrefix_iff {Good : List ι → Prop} {G : List ι → ι → Prop} (hnil : Good [])
    (hstep : ∀ run x, Good run → (G run x ↔ Good (run ++ [x]))) :
    (∀ run x, run ++ [x] <+: xs → G run x) ↔ ∀ run, run <+: xs → Good run := by
  constructor
  · intro h run
    induction run using List.reverseRecOn with
    | nil => exact fun _ => hnil
    | append_singleton run x ih =>
      intro hp
      have hgood : Good run := ih ((List.prefix_append run [x]).trans hp)
      exact (hstep run x hgood).mp (h run x hp)
  · intro h run x hp
    have hgood : Good run := h run ((List.prefix_append run [x]).trans hp)
    exact (hstep run x hgood).mpr (h _ hp)

/-- When one party has moved it is where it went, and the others are where they were. -/
theorem moved_iff {κ α : Type*} [DecidableEq κ] {f : κ → α} {i j : κ} {a b : α} :
    Function.update f i a j = b ↔ j = i ∧ a = b ∨ j ≠ i ∧ f j = b := by
  by_cases h : j = i
  · subst h
    simp
  · simp [h]

end Machines
