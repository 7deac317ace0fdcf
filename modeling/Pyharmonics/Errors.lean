import Mathlib.Data.List.Forall2
import Mathlib.Data.Rat.Defs

/-! Exceptions of the source, the `icontract` checks that raise them, and argument binding. -/
namespace Pyharmonics

/-- `ErrorCode` of the API. -/
inductive ErrorCode
  | invalidParams | marketDataUnavailable | noPatternsFound | detectionError | modelError
  | chartError | internalError | quotaExceeded | unauthorized | notImplemented
  | duplicateSymbol | watchlistLimitReached | watchlistUnknownSymbol | notFound | forbidden
  deriving DecidableEq

/-- What a call can raise. Numbers printed by an f-string follow its text as arguments. -/
inductive PyError
  | violation (message : String)
  | valueError (message : String) (got : List ℚ)
  | typeError (message : String)
  | attributeError (message : String)
  | assertionError
  | appError (code : ErrorCode) (message : String) (retryable : Bool)
  | other (message : String)
  deriving DecidableEq

/-- `@require` and `@ensure`: the check passes or the call raises `ViolationError`. -/
def require (p : Prop) [Decidable p] (message : String) : Except PyError Unit :=
  if p then .ok () else .error (.violation message)

@[simp] theorem require_ok {p : Prop} [Decidable p] {message : String} :
    require p message = .ok () ↔ p := by
  simp [require]

variable {ε : Type*} {α β : Type}

/-- A call that returned: its first part returned, and so did the rest. -/
theorem bind_ok {x : Except ε α} {f : α → Except ε β} {b : β} :
    (x >>= f) = .ok b ↔ ∃ a, x = .ok a ∧ f a = .ok b := by
  cases x with
  | error e => simp [bind, Except.bind]
  | ok a => simp [bind, Except.bind]

/-- A check that passed in front of the rest of a call. -/
theorem require_bind_ok {p : Prop} [Decidable p] {message : String} {f : Unit → Except PyError α}
    {b : α} : (require p message >>= f) = .ok b ↔ p ∧ f () = .ok b := by
  rw [bind_ok]
  constructor
  · rintro ⟨_, h, hf⟩
    exact ⟨require_ok.mp h, hf⟩
  · rintro ⟨h, hf⟩
    exact ⟨(), require_ok.mpr h, hf⟩

/-- The call returns a value. -/
def Returns (x : Except ε α) : Prop := ∃ a, x = .ok a

@[simp] theorem returns_ok {a : α} : Returns (Except.ok a : Except ε α) := ⟨a, rfl⟩

@[simp] theorem returns_pure {a : α} : Returns (pure a : Except ε α) := ⟨a, rfl⟩

@[simp] theorem not_returns_error {e : ε} : ¬ Returns (Except.error e : Except ε α) := by
  rintro ⟨a, h⟩
  cases h

theorem toOption_eq_some {x : Except ε α} {a : α} : x.toOption = some a ↔ x = .ok a := by
  cases x <;> simp [Except.toOption]

theorem returns_bind {x : Except ε α} {f : α → Except ε β} :
    Returns (x >>= f) ↔ ∃ a, x = .ok a ∧ Returns (f a) := by
  unfold Returns
  simp only [bind_ok]
  constructor
  · rintro ⟨b, a, ha, hb⟩
    exact ⟨a, ha, b, hb⟩
  · rintro ⟨a, ha, b, hb⟩
    exact ⟨b, a, ha, hb⟩

/-- A check in front of the rest of a call. -/
theorem returns_require {p : Prop} [Decidable p] {message : String}
    {f : Unit → Except PyError β} : Returns (require p message >>= f) ↔ p ∧ Returns (f ()) := by
  simp only [Returns, require_bind_ok, exists_and_left]

/-- An early return in front of the rest of a call. -/
theorem returns_ite {p : Prop} [Decidable p] {a : α} {x : Except ε α} :
    Returns (if p then pure a else x) ↔ (¬ p → Returns x) := by
  by_cases h : p
  · simp [h]
  · simp [h]

/-- An early `return None` was not taken by a call that returned a value. -/
theorem unless_none_ok {p : Prop} [Decidable p] {x : Except ε (Option α)} {a : α} :
    (if p then pure none else x) = .ok (some a) ↔ ¬ p ∧ x = .ok (some a) := by
  by_cases h : p <;> simp [h, pure, Except.pure]

/-- What a projection of a result shows about the result. -/
theorem exists_of_view {β : Type} {x : Except ε (Option α)} {f : α → β} {b : β}
    (h : x.toOption.join.map f = some b) : ∃ a, x = .ok (some a) ∧ f a = b := by
  cases x with
  | error e => simp [Except.toOption] at h
  | ok o =>
    cases o with
    | none => simp [Except.toOption] at h
    | some a => exact ⟨a, rfl, by simpa [Except.toOption] using h⟩

@[simp] theorem ok_bind {a : α} {f : α → Except ε β} : (Except.ok a >>= f) = f a := rfl

@[simp] theorem error_bind {e : ε} {f : α → Except ε β} :
    ((Except.error e : Except ε α) >>= f) = .error e := rfl

/-- Over a list: what the call returns, element by element. -/
theorem mapM_eq_ok {β γ : Type} {f : β → Except PyError γ} {l : List β} {r : List γ} :
    l.mapM f = .ok r ↔ List.Forall₂ (fun b c => f b = .ok c) l r := by
  induction l generalizing r with
  | nil =>
    rw [List.mapM_nil, List.forall₂_nil_left_iff]
    exact ⟨fun h => by cases h; rfl, fun h => by rw [h]; rfl⟩
  | cons b l ih =>
    rw [List.mapM_cons, List.forall₂_cons_left_iff, bind_ok]
    constructor
    · rintro ⟨c, hc, h⟩
      obtain ⟨cs, hcs, h⟩ := bind_ok.mp h
      cases h
      exact ⟨c, cs, hc, ih.mp hcs, rfl⟩
    · rintro ⟨c, cs, hc, hcs, rfl⟩
      refine ⟨c, hc, bind_ok.mpr ⟨cs, ih.mpr hcs, rfl⟩⟩

theorem exists_of_mapM_ok {β γ : Type} {f : β → Except PyError γ} {l : List β} {r : List γ}
    (h : l.mapM f = .ok r) : ∀ b ∈ l, ∃ c ∈ r, f b = .ok c := by
  induction l generalizing r with
  | nil => simp
  | cons b l ih =>
    rw [List.mapM_cons] at h
    obtain ⟨c, hc, h⟩ := bind_ok.mp h
    obtain ⟨cs, hcs, h⟩ := bind_ok.mp h
    cases h
    rw [List.forall_mem_cons]
    refine ⟨⟨c, by simp, hc⟩, fun b' hb' => ?_⟩
    obtain ⟨c', hc', hfc'⟩ := ih hcs b' hb'
    exact ⟨c', List.mem_cons_of_mem c hc', hfc'⟩

/-- Over a list: the call returns when it does for each element. -/
theorem returns_mapM {α β : Type} {f : α → Except PyError β} {l : List α} :
    Returns (l.mapM f) ↔ ∀ a ∈ l, Returns (f a) := by
  induction l with
  | nil => exact iff_of_true returns_pure (by simp)
  | cons a l ih =>
    rw [List.mapM_cons, List.forall_mem_cons, ← ih]
    constructor
    · rintro ⟨bs, h⟩
      obtain ⟨b, hb, h⟩ := bind_ok.mp h
      obtain ⟨bs', hbs, -⟩ := bind_ok.mp h
      exact ⟨⟨b, hb⟩, ⟨bs', hbs⟩⟩
    · rintro ⟨⟨b, hb⟩, ⟨bs, hbs⟩⟩
      rw [hb, ok_bind, hbs]
      exact returns_pure

theorem mapM_ok {α β : Type} {f : α → Except PyError β} {g : α → β} {l : List α}
    (h : ∀ a ∈ l, f a = .ok (g a)) : l.mapM f = .ok (l.map g) := by
  induction l with
  | nil => rfl
  | cons a l ih =>
    rw [List.mapM_cons, h a (by simp), ok_bind, ih fun b hb => h b (List.mem_cons_of_mem _ hb)]
    rfl

/-- Over a list: a call that is undone by `g`. -/
theorem mapM_section_iff {α β : Type} {f : β → Except PyError α} {g : α → β} {l : List β}
    {as : List α} (h : ∀ b a, f b = .ok a ↔ b = g a) : l.mapM f = .ok as ↔ l = as.map g := by
  simp only [mapM_eq_ok, h, ← List.forall₂_eq_eq_eq, List.forall₂_map_right_iff]

theorem mapM_error {α β : Type} {f : α → Except PyError β} {P : PyError → Prop} {l : List α}
    (h : ∀ a ∈ l, ∀ e, f a = .error e → P e) : ∀ e, l.mapM f = .error e → P e := by
  induction l with
  | nil => nofun
  | cons a l ih =>
    intro e he
    rw [List.mapM_cons] at he
    cases hfa : f a with
    | error e' =>
      rw [hfa, error_bind] at he
      cases he
      exact h a (by simp) e hfa
    | ok b =>
      rw [hfa, ok_bind] at he
      cases hl : l.mapM f with
      | error e' =>
        rw [hl, error_bind] at he
        cases he
        exact ih (fun a ha => h a (List.mem_cons_of_mem _ ha)) e hl
      | ok bs =>
        rw [hl, ok_bind] at he
        cases he

end Pyharmonics
