import Mathlib.Data.Rat.Defs
import Mathlib.Algebra.Order.Group.Unbundled.Abs
import Mathlib.Algebra.Order.Ring.Rat
import Pyharmonics.Errors

/-! Parsed JSON as Python holds it, and its conversion to floats. -/
namespace Pyharmonics

/-- A float: a number, an infinity, or what compares with nothing. -/
inductive PyFloat
  | num (x : ℚ) | inf | negInf | nan
  deriving DecidableEq

/-- A value of parsed JSON; the keys of a `dict` are looked up in order. -/
inductive Json
  | null
  | bool (b : Bool)
  | int (n : ℤ)
  | float (x : PyFloat)
  | str (s : String)
  | list (items : List Json)
  | dict (entries : List (String × Json))

/-- What Python makes of a text read as a float, of a value other than a text printed (nothing where
an integer has too many digits), and of a text hashed. -/
structure Builtins where
  float : String → Option PyFloat
  str : Json → Option String
  sha256 : String → List (Fin 256)

namespace Json

/-- `d.get(k)` -/
def get (d : List (String × Json)) (k : String) : Json := (d.lookup k).getD null

/-- `isinstance(v, int | float)` -/
def isNumber : Json → Bool
  | bool _ | int _ | float _ => true
  | _ => false

/-- `type(v).__name__` -/
def typeName : Json → String
  | null => "NoneType"
  | bool _ => "bool"
  | int _ => "int"
  | float _ => "float"
  | str _ => "str"
  | list _ => "list"
  | dict _ => "dict"

/-- `bool(v)` -/
def truthy : Json → Bool
  | null => false
  | bool b => b
  | int n => n ≠ 0
  | float x => x ≠ .num 0
  | str s => s ≠ ""
  | list items => !items.isEmpty
  | dict entries => !entries.isEmpty

/-- `str(v)` -/
def text (B : Builtins) : Json → Except PyError String
  | str s => .ok s
  | j =>
    match B.str j with
    | some s => .ok s
    | none =>
      .error (.valueError "Exceeds the limit (4300 digits) for integer string conversion" [])

/-- From here on an integer rounds to more than the largest float. -/
def floatLimit : ℤ := 2 ^ 1024 - 2 ^ 970

/-- `float(v)` -/
def toFloat (B : Builtins) : Json → Except PyError PyFloat
  | bool b => .ok (.num (if b then 1 else 0))
  | int n =>
    if |n| < floatLimit then .ok (.num n)
    else .error (.other "OverflowError: int too large to convert to float")
  | float x => .ok x
  | str s =>
    match B.float s with
    | some x => .ok x
    | none => .error (.valueError ("could not convert string to float: " ++ s) [])
  | j => .error (.typeError
      ("float() argument must be a string or a real number, not '" ++ j.typeName ++ "'"))

def asDict : Json → Except PyError (List (String × Json))
  | .dict d => .ok d
  | j => .error (.attributeError ("'" ++ j.typeName ++ "' object has no attribute 'get'"))

def asList : Json → Except PyError (List Json)
  | .list l => .ok l
  | j => .error (.typeError ("'" ++ j.typeName ++ "' object is not a list"))

def asText : Json → Except PyError String
  | .str s => .ok s
  | j => .error (.typeError ("'" ++ j.typeName ++ "' object is not a text"))

/-- `d[k]` -/
def item (d : List (String × Json)) (k : String) : Except PyError Json :=
  match d.lookup k with
  | some j => .ok j
  | none => .error (.other ("KeyError: " ++ k))

/-- `{k: float(v) for k, v in d.items()}` -/
def floatValues (B : Builtins) (d : List (String × Json)) :
    Except PyError (List (String × PyFloat)) :=
  d.mapM fun e => do return (e.1, ← e.2.toFloat B)

theorem asList_eq_ok (j : Json) (l : List Json) : j.asList = .ok l ↔ j = .list l := by
  cases j <;> simp [asList]

theorem asText_eq_ok (j : Json) (s : String) : j.asText = .ok s ↔ j = .str s := by
  cases j <;> simp [asText]

/-- An integer too large for a float. -/
def Huge : Json → Prop
  | int n => floatLimit ≤ |n|
  | _ => False

/-- The first of the conversions to fail overflows. -/
def Overflows (B : Builtins) (values : List Json) : Prop :=
  ∃ before j after, values = before ++ j :: after ∧ (∀ i ∈ before, Returns (i.toFloat B)) ∧ j.Huge

end Json

/-- `except (ValueError, TypeError): return None` -/
def caught {α : Type} (x : Except PyError α) : Except PyError (Option α) :=
  match x with
  | .ok a => .ok (some a)
  | .error (.valueError _ _) | .error (.typeError _) => .ok none
  | .error e => .error e

/-- The call raises what `caught` lets through. -/
def Uncaught {α : Type} (x : Except PyError α) : Prop := ¬ Returns (caught x)

section

variable {α β : Type} {x : Except PyError α} {f : α → Except PyError β} {a : α} {B : Builtins}
  {j : Json} {values : List Json}

@[simp] theorem uncaught_ok : ¬ Uncaught (Except.ok a : Except PyError α) := by
  simp [Uncaught, caught]

@[simp] theorem uncaught_valueError {m : String} {got : List ℚ} :
    ¬ Uncaught (.error (.valueError m got) : Except PyError α) := by
  simp [Uncaught, caught]

@[simp] theorem uncaught_typeError {m : String} :
    ¬ Uncaught (.error (.typeError m) : Except PyError α) := by
  simp [Uncaught, caught]

/-- What is let through of two calls: the first raised it, or it returned and the second did. -/
theorem uncaught_bind :
    Uncaught (x >>= f) ↔ Uncaught x ∨ ∃ a, x = .ok a ∧ Uncaught (f a) := by
  cases x with
  | ok a => simp
  | error e =>
    simp only [error_bind, reduceCtorEq, false_and, exists_false, or_false]
    unfold Uncaught caught
    cases e <;> simp

/-- As `uncaught_bind`, for a rest that raises whatever the first call returned. -/
theorem uncaught_bind_const {p : Prop} (h : ∀ a, Uncaught (f a) ↔ p) :
    Uncaught (x >>= f) ↔ Uncaught x ∨ Returns x ∧ p := by
  simp only [uncaught_bind, h, exists_and_right]
  rfl

theorem uncaught_return {g : α → β} : Uncaught (do return g (← x)) ↔ Uncaught x := by
  rw [uncaught_bind]
  simp [pure, Except.pure]

theorem returns_return {g : α → β} : Returns (do return g (← x)) ↔ Returns x := by
  rw [returns_bind]
  simp [Returns, pure, Except.pure]

theorem uncaught_mapM_cons {f : α → Except PyError β} {a : α} {l : List α} :
    Uncaught ((a :: l).mapM f) ↔ Uncaught (f a) ∨ Returns (f a) ∧ Uncaught (l.mapM f) := by
  rw [List.mapM_cons]
  exact uncaught_bind_const fun b => uncaught_return

theorem uncaught_mapM {f : α → Except PyError β} {l : List α} : Uncaught (l.mapM f) ↔
    ∃ before a after, l = before ++ a :: after ∧ (∀ b ∈ before, Returns (f b)) ∧
      Uncaught (f a) := by
  induction l with
  | nil => simp [pure, Except.pure]
  | cons b l ih =>
    rw [uncaught_mapM_cons, ih]
    constructor
    · rintro (h | ⟨hb, before, a, after, rfl, hbefore, ha⟩)
      · exact ⟨[], b, l, rfl, nofun, h⟩
      · exact ⟨b :: before, a, after, rfl, List.forall_mem_cons.mpr ⟨hb, hbefore⟩, ha⟩
    · rintro ⟨before, a, after, hl, hbefore, ha⟩
      cases before with
      | nil =>
        cases hl
        exact .inl ha
      | cons c before =>
        cases hl
        obtain ⟨hc, hbefore⟩ := List.forall_mem_cons.mp hbefore
        exact .inr ⟨hc, before, a, after, rfl, hbefore, ha⟩

namespace Json

theorem uncaught_toFloat : Uncaught (j.toFloat B) ↔ j.Huge := by
  cases j with
  | int n =>
    rw [toFloat, Huge, ← not_lt]
    split_ifs with h
    · simp [h]
    · simp [h, Uncaught, caught]
  | str s =>
    rw [toFloat]
    split <;> simp [Huge]
  | _ => simp [toFloat, Huge]

/-- Conversions one after another let through the overflow of the first that fails. -/
theorem overflows_iff : Overflows B values ↔ Uncaught (values.mapM (toFloat B)) := by
  simp only [uncaught_mapM, uncaught_toFloat, Overflows]

theorem overflows_cons : Overflows B (j :: values) ↔
    j.Huge ∨ Returns (j.toFloat B) ∧ Overflows B values := by
  rw [overflows_iff, uncaught_mapM_cons, uncaught_toFloat, overflows_iff]

theorem overflows_append {values' : List Json} : Overflows B (values ++ values') ↔
    Overflows B values ∨ (∀ v ∈ values, Returns (v.toFloat B)) ∧ Overflows B values' := by
  induction values with
  | nil => simp [overflows_iff, pure, Except.pure]
  | cons j values ih =>
    rw [List.cons_append, overflows_cons, overflows_cons, ih, List.forall_mem_cons]
    tauto

variable {d : List (String × Json)}

theorem uncaught_floatValues : Uncaught (floatValues B d) ↔ Overflows B (d.map Prod.snd) := by
  induction d with
  | nil => simp [floatValues, overflows_iff, pure, Except.pure]
  | cons e d ih =>
    have hfirst : Uncaught (do return (e.1, ← e.2.toFloat B)) ↔ e.2.Huge := by
      rw [uncaught_return, uncaught_toFloat]
    rw [List.map_cons, overflows_cons, ← ih, ← hfirst, ← returns_return]
    exact uncaught_mapM_cons

theorem returns_floatValues : Returns (floatValues B d) ↔
    ∀ v ∈ d.map Prod.snd, Returns (v.toFloat B) := by
  rw [floatValues, returns_mapM, List.forall_mem_map]
  simp only [returns_return]

end Json

end

end Pyharmonics
