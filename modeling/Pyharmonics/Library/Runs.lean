import Mathlib.Tactic

/-! Runs of a deterministic step function that may raise and that emits outputs. -/
namespace Runs

variable {σ ι ω ε α : Type*}

/-- The whole run: the last state and every output in order, or the first exception. -/
def run (step : σ → ι → Except ε (σ × List ω)) : σ → List ι → Except ε (σ × List ω)
  | s, [] => .ok (s, [])
  | s, x :: xs =>
    match step s x with
    | .error e => .error e
    | .ok (u, as) =>
      match run step u xs with
      | .error e => .error e
      | .ok (t, bs) => .ok (t, as ++ bs)

/-- No step raises, and `P` relates each state, input, successor and output of the run. -/
def Along (step : σ → ι → Except ε (σ × List ω)) (P : σ → ι → σ → List ω → Prop) :
    σ → List ι → Prop
  | _, [] => True
  | s, x :: xs => ∃ u as, step s x = .ok (u, as) ∧ P s x u as ∧ Along step P u xs

/-- `G` holds of every state and the input it meets, as far as the run gets. -/
def Guarded (step : σ → ι → Except ε (σ × List ω)) (G : σ → ι → Prop) : σ → List ι → Prop
  | _, [] => True
  | s, x :: xs => G s x ∧ ∀ u as, step s x = .ok (u, as) → Guarded step G u xs

variable {σ' ι' ω' : Type*}

/-- Two steps that raise alike, or lead to related states with outputs that are images. -/
def Alike (R : σ → σ' → Prop) (g : ω → ω') :
    Except ε (σ × List ω) → Except ε (σ' × List ω') → Prop
  | .ok (t, as), .ok (t', bs) => R t t' ∧ bs = as.map g
  | .error e, .error e' => e = e'
  | _, _ => False

/-- Two runs side by side, alike at every input and its image. -/
def Lockstep (step : σ → ι → Except ε (σ × List ω)) (step' : σ' → ι' → Except ε (σ' × List ω'))
    (R : σ → σ' → Prop) (f : ι → ι') (g : ω → ω') : σ → σ' → List ι → Prop
  | _, _, [] => True
  | s, s', x :: xs => Alike R g (step s x) (step' s' (f x)) ∧
      ∀ t as t' bs, step s x = .ok (t, as) → step' s' (f x) = .ok (t', bs) →
        Lockstep step step' R f g t t' xs

variable {step : σ → ι → Except ε (σ × List ω)} {P Q : σ → ι → σ → List ω → Prop}
  {G : σ → ι → Prop} {I : σ → Prop} {F : ι → Prop} {s t u : σ} {x : ι} {xs ys : List ι}
  {as bs : List ω}

@[simp] theorem run_nil : run step s [] = .ok (s, []) := rfl

theorem run_cons_ok : run step s (x :: xs) = .ok (t, bs) ↔
    ∃ u as cs, step s x = .ok (u, as) ∧ run step u xs = .ok (t, cs) ∧ bs = as ++ cs := by
  constructor
  · intro h
    simp only [run] at h
    cases hs : step s x with
    | error e => simp [hs] at h
    | ok p =>
      obtain ⟨u, as⟩ := p
      cases hr : run step u xs with
      | error e => simp [hs, hr] at h
      | ok q =>
        obtain ⟨v, cs⟩ := q
        simp only [hs, hr, Except.ok.injEq, Prod.mk.injEq] at h
        exact ⟨u, as, cs, rfl, by rw [hr, h.1], h.2.symm⟩
  · rintro ⟨u, as, cs, hs, hr, rfl⟩
    simp [run, hs, hr]

/-- A step that keeps an invariant and never raises gives a run that does both. -/
theorem run_total (hstep : ∀ s x, I s → F x → ∃ u as, step s x = .ok (u, as) ∧ I u)
    (hs : I s) (hx : ∀ x ∈ xs, F x) : ∃ t bs, run step s xs = .ok (t, bs) ∧ I t := by
  induction xs generalizing s with
  | nil => exact ⟨s, [], rfl, hs⟩
  | cons x xs ih =>
    obtain ⟨u, as, hu, hi⟩ := hstep s x hs (hx x (by simp))
    obtain ⟨t, bs, ht, hit⟩ := ih hi (fun y hy => hx y (by simp [hy]))
    exact ⟨t, as ++ bs, run_cons_ok.mpr ⟨u, as, bs, hu, ht, rfl⟩, hit⟩

/-- Under an invariant, a step property that amounts to a guard amounts to it on whole runs. -/
theorem along_iff_guarded
    (hstep : ∀ s x, I s → F x →
      ∃ u as, step s x = .ok (u, as) ∧ I u ∧ (P s x u as ↔ G s x))
    (hs : I s) (hx : ∀ x ∈ xs, F x) : Along step P s xs ↔ Guarded step G s xs := by
  induction xs generalizing s with
  | nil => simp [Along, Guarded]
  | cons x xs ih =>
    obtain ⟨u, as, hu, hi, hp⟩ := hstep s x hs (hx x (by simp))
    have ht := ih hi (fun y hy => hx y (by simp [hy]))
    simp only [Along, Guarded, hu, Except.ok.injEq, Prod.mk.injEq]
    constructor
    · rintro ⟨u', as', ⟨rfl, rfl⟩, hP, hA⟩
      refine ⟨hp.mp hP, ?_⟩
      rintro _ _ ⟨rfl, rfl⟩
      exact ht.mp hA
    · rintro ⟨hG, hA⟩
      exact ⟨u, as, ⟨rfl, rfl⟩, hp.mpr hG, ht.mpr (hA u as ⟨rfl, rfl⟩)⟩

theorem along_of_inv
    (hstep : ∀ s x, I s → F x → ∃ u as, step s x = .ok (u, as) ∧ I u ∧ P s x u as)
    (hs : I s) (hx : ∀ x ∈ xs, F x) : Along step P s xs := by
  induction xs generalizing s with
  | nil => trivial
  | cons x xs ih =>
    obtain ⟨u, as, hu, hi, hp⟩ := hstep s x hs (hx x (by simp))
    exact ⟨u, as, hu, hp, ih hi (fun y hy => hx y (by simp [hy]))⟩

/-- What an observer makes of the outputs stays in step with the state, run by run. -/
theorem run_simulates {obs : α → ω → α} {R : σ → α → Prop}
    (hstep : ∀ s x u as a, I s → F x → R s a → step s x = .ok (u, as) →
      I u ∧ R u (as.foldl obs a))
    {a : α} (hs : I s) (hx : ∀ x ∈ xs, F x) (ha : R s a)
    (hr : run step s xs = .ok (t, bs)) : R t (bs.foldl obs a) := by
  induction xs generalizing s a bs with
  | nil =>
    simp only [run_nil, Except.ok.injEq, Prod.mk.injEq] at hr
    obtain ⟨rfl, rfl⟩ := hr
    exact ha
  | cons x xs ih =>
    obtain ⟨u, as, cs, hu, ht, rfl⟩ := run_cons_ok.mp hr
    obtain ⟨hi, hR⟩ := hstep s x u as a hs (hx x (by simp)) ha hu
    rw [List.foldl_append]
    exact ih hi (fun y hy => hx y (by simp [hy])) hR ht

theorem lockstep_of_alike {step' : σ' → ι' → Except ε (σ' × List ω')} {R : σ → σ' → Prop}
    {f : ι → ι'} {g : ω → ω'} {s' : σ'}
    (hstep : ∀ s s' x, R s s' → Alike R g (step s x) (step' s' (f x))) (hs : R s s') :
    Lockstep step step' R f g s s' xs := by
  induction xs generalizing s s' with
  | nil => trivial
  | cons x xs ih =>
    refine ⟨hstep s s' x hs, fun t as t' bs ht ht' => ?_⟩
    have halike := hstep s s' x hs
    rw [ht, ht'] at halike
    exact ih halike.1

end Runs
