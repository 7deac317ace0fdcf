import Mathlib.Tactic

/-! Programs of calls that return or raise: their handlers, their paths, and one step at a time. -/
namespace Programs

/-- A program over calls `C` with answers `A`: it is done, raises, or makes a call and goes on with
what comes back. A call raises an `ε`, the program an `η`. -/
inductive Program (C : Type) (A : C → Type) (ε η α : Type)
  | done (a : α)
  | raise (x : η)
  | call (c : C) (next : Except ε (A c) → Program C A ε η α)

/-- A call and what came back. -/
structure Event (C : Type) (A : C → Type) (ε : Type) where
  call : C
  answer : Except ε (A call)

/-- The call raised. -/
def Event.Raised {C : Type} {A : C → Type} {ε : Type} (v : Event C A ε) (e : ε) : Prop :=
  v.answer = .error e

variable {C : Type} {A : C → Type} {ε η η' α β σ : Type}

namespace Program

def bind : Program C A ε η α → (α → Program C A ε η β) → Program C A ε η β
  | done a, f => f a
  | raise x, _ => raise x
  | call c next, f => call c fun r => (next r).bind f

instance monadProgram : Monad (Program C A ε η) where
  pure := done
  bind := bind

/-- `try: p except: h(x)` -/
def handle : Program C A ε η α → (η → Program C A ε η' α) → Program C A ε η' α
  | done a, _ => done a
  | raise x, h => h x
  | call c next, h => call c fun r => (next r).handle h

/-- `try: p finally: q` -/
def always (p : Program C A ε η α) (q : Program C A ε η Unit) : Program C A ε η α :=
  (p.handle fun x => q.bind fun _ => raise x).bind fun a => q.bind fun _ => done a

/-- One call; what it raises is raised as `g` says. -/
def perform (g : ε → η) (c : C) : Program C A ε η (A c) :=
  call c fun
    | .ok a => done a
    | .error e => raise (g e)

/-- One step: the state serves the next call. -/
def advance (serve : σ → (c : C) → Except ε (A c) → σ × Except ε (A c)) (s : σ)
    (p : Program C A ε η α) (reply : (c : C) → Except ε (A c)) : σ × Program C A ε η α :=
  match p with
  | done a => (s, done a)
  | raise x => (s, raise x)
  | call c next => ((serve s c (reply c)).1, next (serve s c (reply c)).2)

/-- The calls of the program and its outcome, when each call is answered in one way. -/
def exec (reply : (c : C) → Except ε (A c)) : Program C A ε η α → List (Event C A ε) × Except η α
  | done a => ([], .ok a)
  | raise x => ([], .error x)
  | call c next =>
      (⟨c, reply c⟩ :: ((next (reply c)).exec reply).1, ((next (reply c)).exec reply).2)

/-- The program makes these calls, with these answers, and then returns or raises. -/
inductive Path : Program C A ε η α → List (Event C A ε) → Except η α → Prop
  | done (a : α) : Path (done a) [] (.ok a)
  | raise (x : η) : Path (raise x) [] (.error x)
  | call (c : C) (next : Except ε (A c) → Program C A ε η α) (r : Except ε (A c))
      {t : List (Event C A ε)} {o : Except η α} (h : Path (next r) t o) :
      Path (call c next) (⟨c, r⟩ :: t) o

/-- Every call of the program is one of `S`, whatever comes back. -/
def Only (S : C → Prop) : Program C A ε η α → Prop
  | done _ => True
  | raise _ => True
  | call c next => S c ∧ ∀ r, (next r).Only S

/-- What the program returns is one of `Q`. -/
def Yields (Q : α → Prop) : Program C A ε η α → Prop
  | done a => Q a
  | raise _ => True
  | call _ next => ∀ r, (next r).Yields Q

variable {p : Program C A ε η α} {q : Program C A ε η Unit} {f : α → Program C A ε η β}
  {h : η → Program C A ε η' α} {g : ε → η} {t : List (Event C A ε)} {o : Except η α}
  {o' : Except η β} {a : α} {x : η} {e : ε} {c : C} {v : Event C A ε} {S S' : C → Prop}

theorem path_done : Path (done a : Program C A ε η α) t o ↔ t = [] ∧ o = .ok a := by
  constructor
  · rintro ⟨⟩
    exact ⟨rfl, rfl⟩
  · rintro ⟨rfl, rfl⟩
    exact .done a

theorem path_raise : Path (raise x : Program C A ε η α) t o ↔ t = [] ∧ o = .error x := by
  constructor
  · rintro ⟨⟩
    exact ⟨rfl, rfl⟩
  · rintro ⟨rfl, rfl⟩
    exact .raise x

theorem path_call {next : Except ε (A c) → Program C A ε η α} :
    Path (call c next) t o ↔ ∃ r t', t = ⟨c, r⟩ :: t' ∧ Path (next r) t' o := by
  constructor
  · rintro (_ | _ | ⟨_, _, r, h⟩)
    exact ⟨r, _, rfl, h⟩
  · rintro ⟨r, t', rfl, h⟩
    exact .call c next r h

theorem path_exec {reply : (c : C) → Except ε (A c)} : Path p (p.exec reply).1 (p.exec reply).2 := by
  induction p with
  | done a => exact .done a
  | raise x => exact .raise x
  | call c next ih => exact .call c next (reply c) (ih (reply c))

theorem answer_of_mem_exec {reply : (c : C) → Except ε (A c)} (hv : v ∈ (p.exec reply).1) :
    v.answer = reply v.call := by
  induction p with
  | done a => cases hv
  | raise x => cases hv
  | call c next ih =>
    rcases List.mem_cons.mp hv with rfl | hv
    · rfl
    · exact ih (reply c) hv

/-- A call returns what came back, or raises what it raised. -/
theorem path_perform {o : Except η (A c)} : Path (perform g c) t o ↔
    (∃ a, t = [⟨c, .ok a⟩] ∧ o = .ok a) ∨ ∃ e, t = [⟨c, .error e⟩] ∧ o = .error (g e) := by
  rw [perform, path_call]
  constructor
  · rintro ⟨r, t', rfl, h⟩
    cases r with
    | ok a =>
      obtain ⟨rfl, rfl⟩ := path_done.mp h
      exact .inl ⟨a, rfl, rfl⟩
    | error e =>
      obtain ⟨rfl, rfl⟩ := path_raise.mp h
      exact .inr ⟨e, rfl, rfl⟩
  · rintro (⟨a, rfl, rfl⟩ | ⟨e, rfl, rfl⟩)
    · exact ⟨.ok a, [], rfl, .done a⟩
    · exact ⟨.error e, [], rfl, .raise (g e)⟩

/-- A path through two programs in sequence goes through both, or ends with what the first
raises. -/
theorem path_bind : Path (p.bind f) t o' ↔
    (∃ a t₁ t₂, t = t₁ ++ t₂ ∧ Path p t₁ (.ok a) ∧ Path (f a) t₂ o') ∨
      ∃ x, o' = .error x ∧ Path p t (.error x) := by
  induction p generalizing t with
  | done a =>
    simp [bind, path_done]
  | raise x =>
    simp only [bind, path_raise]
    constructor
    · rintro ⟨rfl, rfl⟩
      exact .inr ⟨x, rfl, rfl, rfl⟩
    · rintro (⟨a, t₁, t₂, -, ⟨-, h⟩, -⟩ | ⟨x', rfl, rfl, h⟩)
      · cases h
      · cases h
        exact ⟨rfl, rfl⟩
  | call c next ih =>
    simp only [bind, path_call]
    constructor
    · rintro ⟨r, t', rfl, h⟩
      rcases (ih r).mp h with ⟨a, t₁, t₂, rfl, h₁, h₂⟩ | ⟨x, rfl, h₁⟩
      · exact .inl ⟨a, ⟨c, r⟩ :: t₁, t₂, rfl, ⟨r, t₁, rfl, h₁⟩, h₂⟩
      · exact .inr ⟨x, rfl, r, t', rfl, h₁⟩
    · rintro (⟨a, _, t₂, rfl, ⟨r, t₁, rfl, h₁⟩, h₂⟩ | ⟨x, rfl, r, t', rfl, h⟩)
      · exact ⟨r, t₁ ++ t₂, rfl, (ih r).mpr (.inl ⟨a, t₁, t₂, rfl, h₁, h₂⟩)⟩
      · exact ⟨r, t', rfl, (ih r).mpr (.inr ⟨x, rfl, h⟩)⟩

/-- A path through a call and what follows it. -/
theorem path_perform_bind {f : A c → Program C A ε η β} : Path (perform g c >>= f) t o' ↔
    (∃ a t', t = ⟨c, .ok a⟩ :: t' ∧ Path (f a) t' o') ∨
      ∃ e, t = [⟨c, .error e⟩] ∧ o' = .error (g e) := by
  refine path_bind.trans ?_
  simp only [path_perform]
  constructor
  · rintro (⟨a, _, t₂, rfl, ⟨b, rfl, ⟨⟩⟩ | ⟨e, -, ⟨⟩⟩, h⟩ | ⟨x, rfl, ⟨a, -, ⟨⟩⟩ | ⟨e, rfl, ⟨⟩⟩⟩)
    · exact .inl ⟨a, t₂, rfl, h⟩
    · exact .inr ⟨e, rfl, rfl⟩
  · rintro (⟨a, t', rfl, h⟩ | ⟨e, rfl, rfl⟩)
    · exact .inl ⟨a, [⟨c, .ok a⟩], t', rfl, .inl ⟨a, rfl, rfl⟩, h⟩
    · exact .inr ⟨g e, rfl, .inr ⟨e, rfl, rfl⟩⟩

/-- A path through a handled program returns, or raises and goes through the handler. -/
theorem path_handle {o : Except η' α} : Path (p.handle h) t o ↔
    (∃ a, o = .ok a ∧ Path p t (.ok a)) ∨
      ∃ x t₁ t₂, t = t₁ ++ t₂ ∧ Path p t₁ (.error x) ∧ Path (h x) t₂ o := by
  induction p generalizing t with
  | done a =>
    simp only [handle, path_done]
    constructor
    · rintro ⟨rfl, rfl⟩
      exact .inl ⟨a, rfl, rfl, rfl⟩
    · rintro (⟨a', rfl, rfl, h⟩ | ⟨x, t₁, t₂, -, ⟨-, h⟩, -⟩)
      · cases h
        exact ⟨rfl, rfl⟩
      · cases h
  | raise x =>
    simp [handle, path_raise]
  | call c next ih =>
    simp only [handle, path_call]
    constructor
    · rintro ⟨r, t', rfl, hr⟩
      rcases (ih r).mp hr with ⟨a, rfl, h₁⟩ | ⟨x, t₁, t₂, rfl, h₁, h₂⟩
      · exact .inl ⟨a, rfl, r, t', rfl, h₁⟩
      · exact .inr ⟨x, ⟨c, r⟩ :: t₁, t₂, rfl, ⟨r, t₁, rfl, h₁⟩, h₂⟩
    · rintro (⟨a, rfl, r, t', rfl, h⟩ | ⟨x, _, t₂, rfl, ⟨r, t₁, rfl, h₁⟩, h₂⟩)
      · exact ⟨r, t', rfl, (ih r).mpr (.inl ⟨a, rfl, h⟩)⟩
      · exact ⟨r, t₁ ++ t₂, rfl, (ih r).mpr (.inr ⟨x, t₁, t₂, rfl, h₁, h₂⟩)⟩

/-- What comes last comes after all of the program, however that ended. -/
theorem path_always (h : Path (p.always q) t o) :
    ∃ t₁ t₂ o₁ o₂, t = t₁ ++ t₂ ∧ Path p t₁ o₁ ∧ Path q t₂ o₂ := by
  rcases path_bind.mp h with ⟨a, t₁, t₂, rfl, h₁, h₂⟩ | ⟨x, rfl, h₁⟩
  · rcases path_handle.mp h₁ with ⟨a', -, h₁⟩ | ⟨x, s₁, s₂, -, -, h₁⟩
    · rcases path_bind.mp h₂ with ⟨u, s₁, s₂, rfl, h₂, hdone⟩ | ⟨x, -, h₂⟩
      · rw [(path_done.mp hdone).1, List.append_nil]
        exact ⟨t₁, s₁, _, _, rfl, h₁, h₂⟩
      · exact ⟨t₁, t₂, _, _, rfl, h₁, h₂⟩
    · rcases path_bind.mp h₁ with ⟨u, _, _, _, _, hraise⟩ | ⟨x, hx, -⟩
      · cases (path_raise.mp hraise).2
      · cases hx
  · rcases path_handle.mp h₁ with ⟨a, ha, -⟩ | ⟨x', t₁, t₂, rfl, hp, h₂⟩
    · cases ha
    · rcases path_bind.mp h₂ with ⟨u, s₁, s₂, rfl, hq, hraise⟩ | ⟨x, -, hq⟩
      · rw [(path_raise.mp hraise).1, List.append_nil]
        exact ⟨t₁, s₁, _, _, rfl, hp, hq⟩
      · exact ⟨t₁, t₂, _, _, rfl, hp, hq⟩

@[simp] theorem only_done : Only S (done a : Program C A ε η α) := trivial

@[simp] theorem only_pure : Only S (pure a : Program C A ε η α) := trivial

@[simp] theorem only_raise : Only S (raise x : Program C A ε η α) := trivial

@[simp] theorem only_perform : Only S (perform g c : Program C A ε η (A c)) ↔ S c := by
  rw [perform, Only, and_iff_left_iff_imp]
  intro _ r
  cases r with
  | ok a => trivial
  | error e => trivial

@[simp] theorem only_perform_bind {f : A c → Program C A ε η β} :
    Only S (perform g c >>= f) ↔ S c ∧ ∀ a, Only S (f a) := by
  constructor
  · rintro ⟨hc, hf⟩
    exact ⟨hc, fun a => hf (.ok a)⟩
  · rintro ⟨hc, hf⟩
    refine ⟨hc, ?_⟩
    intro r
    cases r with
    | ok a => exact hf a
    | error e => trivial

theorem Yields.seq {Q : β → Prop} {f : α → Program C A ε η β} (hf : ∀ a, Yields Q (f a)) :
    Yields Q (p >>= f) := by
  induction p with
  | done a => exact hf a
  | raise x => trivial
  | call c next ih => exact ih

theorem Yields.handle {Q : α → Prop} (hp : Yields Q p) (hh : ∀ x, Yields Q (h x)) :
    Yields Q (p.handle h) := by
  induction p with
  | done a => exact hp
  | raise x => exact hh x
  | call c next ih => exact fun r => ih r (hp r)

theorem Yields.map {Q : α → Prop} {Q' : β → Prop} {g : α → β} (hp : Yields Q p)
    (hg : ∀ a, Q a → Q' (g a)) :
    Yields Q' (p.bind fun a => done (g a)) := by
  induction p with
  | done a => exact hg a hp
  | raise x => trivial
  | call c next ih => exact fun r => ih r (hp r)

/-- What follows a program need keep to `S` only for what the program returns. -/
theorem Only.seq_of_yields {Q : α → Prop} {f : α → Program C A ε η β} (hp : Only S p)
    (hq : Yields Q p) (hf : ∀ a, Q a → Only S (f a)) : Only S (p >>= f) := by
  induction p with
  | done a => exact hf a hq
  | raise x => trivial
  | call c next ih => exact ⟨hp.1, fun r => ih r (hp.2 r) (hq r)⟩

theorem Only.bind (hp : Only S p) (hf : ∀ a, Only S (f a)) : Only S (p.bind f) := by
  induction p with
  | done a => exact hf a
  | raise x => trivial
  | call c next ih => exact ⟨hp.1, fun r => ih r (hp.2 r)⟩

theorem Only.seq (hp : Only S p) (hf : ∀ a, Only S (f a)) : Only S (p >>= f) := hp.bind hf

theorem Only.handle (hp : Only S p) (hh : ∀ x, Only S (h x)) : Only S (p.handle h) := by
  induction p with
  | done a => trivial
  | raise x => exact hh x
  | call c next ih => exact ⟨hp.1, fun r => ih r (hp.2 r)⟩

theorem Only.always (hp : Only S p) (hq : Only S q) : Only S (p.always q) :=
  (hp.handle fun _ => hq.bind fun _ => only_raise).bind fun _ => hq.bind fun _ => only_done

theorem Only.mono (hS : ∀ c, S c → S' c) (hp : Only S p) : Only S' p := by
  induction p with
  | done a => trivial
  | raise x => trivial
  | call c next ih => exact ⟨hS c hp.1, fun r => ih r (hp.2 r)⟩

theorem Only.on_path (hp : Only S p) (h : Path p t o) : ∀ v ∈ t, S v.call := by
  induction h with
  | done a => simp
  | raise x => simp
  | call c next r h ih =>
    intro v hv
    rcases List.mem_cons.mp hv with rfl | hv
    · exact hp.1
    · exact ih (hp.2 r) v hv

theorem Only.advance {serve : σ → (c : C) → Except ε (A c) → σ × Except ε (A c)} {s : σ}
    {reply : (c : C) → Except ε (A c)} (hp : Only S p) : Only S (p.advance serve s reply).2 := by
  cases p with
  | done a => trivial
  | raise x => trivial
  | call c next => exact hp.2 _

/-- Every call is one of `S`; what one raises that `Ends` the program, the program raises, and on
its own it raises only what `Own` allows. -/
structure Covered (S : C → Prop) (Ends : C → ε → Prop) (Own : ε → Prop) (tag : η → ε)
    (p : Program C A ε η α) : Prop where
  only : Only S p
  passes : ∀ t o, Path p t o → ∀ v ∈ t, ∀ e, v.Raised e → Ends v.call e →
    ∃ x, o = .error x ∧ tag x = e
  raises : ∀ t x, Path p t (.error x) →
    Own (tag x) ∨ ∃ v ∈ t, v.Raised (tag x) ∧ Ends v.call (tag x)

variable {Ends : C → ε → Prop} {Own : ε → Prop} {tag : η → ε}

theorem covered_done : Covered S Ends Own tag (done a : Program C A ε η α) := by
  constructor
  · exact only_done
  · intro t o h
    simp [(path_done.mp h).1]
  · intro t x h
    cases (path_done.mp h).2

theorem covered_pure : Covered S Ends Own tag (pure a : Program C A ε η α) := covered_done

theorem covered_raise (hx : Own (tag x)) : Covered S Ends Own tag (raise x : Program C A ε η α) := by
  constructor
  · exact only_raise
  · intro t o h
    simp [(path_raise.mp h).1]
  · intro t x' h
    cases (path_raise.mp h).2
    exact .inl hx

theorem covered_perform (hS : S c) (hc : ∀ e, Ends c e) (hg : ∀ e, tag (g e) = e) :
    Covered S Ends Own tag (perform g c : Program C A ε η (A c)) := by
  constructor
  · exact only_perform.mpr hS
  · intro t o h v hv e he _
    rcases path_perform.mp h with ⟨a, rfl, rfl⟩ | ⟨e', rfl, rfl⟩
    · rw [List.mem_singleton] at hv
      subst hv
      cases he
    · rw [List.mem_singleton] at hv
      subst hv
      cases he
      exact ⟨_, rfl, hg _⟩
  · intro t x h
    rcases path_perform.mp h with ⟨a, -, hx⟩ | ⟨e, rfl, hx⟩
    · cases hx
    · cases hx
      rw [hg]
      exact .inr ⟨_, List.mem_singleton.mpr rfl, rfl, hc e⟩

theorem Covered.bind (hp : Covered S Ends Own tag p) (hf : ∀ a, Covered S Ends Own tag (f a)) :
    Covered S Ends Own tag (p.bind f) := by
  constructor
  · exact hp.only.bind fun a => (hf a).only
  · intro t o h v hv e he hends
    rcases path_bind.mp h with ⟨a, t₁, t₂, rfl, h₁, h₂⟩ | ⟨x, rfl, h₁⟩
    · rcases List.mem_append.mp hv with hv | hv
      · obtain ⟨x, hx, -⟩ := hp.passes _ _ h₁ v hv e he hends
        cases hx
      · exact (hf a).passes _ _ h₂ v hv e he hends
    · obtain ⟨x', hx, htag⟩ := hp.passes _ _ h₁ v hv e he hends
      cases hx
      exact ⟨x, rfl, htag⟩
  · intro t x h
    rcases path_bind.mp h with ⟨a, t₁, t₂, rfl, h₁, h₂⟩ | ⟨x', heq, h₁⟩
    · refine ((hf a).raises _ _ h₂).imp_right ?_
      rintro ⟨v, hv, he⟩
      exact ⟨v, List.mem_append_right _ hv, he⟩
    · cases heq
      exact hp.raises _ _ h₁

theorem Covered.seq (hp : Covered S Ends Own tag p) (hf : ∀ a, Covered S Ends Own tag (f a)) :
    Covered S Ends Own tag (p >>= f) := hp.bind hf

end Program

end Programs
