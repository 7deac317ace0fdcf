import Mathlib.Data.List.Nodup

/-! Binding the arguments of a call to the parameters of a function, as Python does. -/
namespace Calls

variable {α : Type*}

/-- The parameters of a function in order, those with a default last. -/
structure Signature where
  name : String
  required : List String
  optional : List String := []
  nodup : (required ++ optional).Nodup

inductive BindError
  | unexpectedKeyword (keyword : String)
  | multipleValues (keyword : String)
  | tooManyPositional (given : ℕ)
  | missing (parameters : List String)
  deriving DecidableEq

namespace Signature

variable {s : Signature} {positional : List α} {keywords : List (String × α)}
  {slots : List (Option α)}

def params (s : Signature) : List String := s.required ++ s.optional

/-- What a call gives a parameter. -/
def argument (s : Signature) (positional : List α) (keywords : List (String × α)) (p : String) :
    Option α :=
  positional[s.params.idxOf p]?.or ((keywords.find? fun k => k.1 = p).map Prod.snd)

/-- The error a keyword argument makes after `given` positional ones. -/
def keywordError (s : Signature) (given : ℕ) (k : String × α) : Option BindError :=
  if k.1 ∉ s.params then some (.unexpectedKeyword k.1)
  else if s.params.idxOf k.1 < given then some (.multipleValues k.1)
  else none

/-- The slots of a call in the order of the parameters; an empty one takes its default. -/
def bind (s : Signature) (positional : List α) (keywords : List (String × α)) :
    Except BindError (List (Option α)) :=
  match keywords.findSome? (s.keywordError positional.length) with
  | some e => .error e
  | none =>
    if s.params.length < positional.length then .error (.tooManyPositional positional.length)
    else
      match s.required.filter fun p => (s.argument positional keywords p).isNone with
      | [] => .ok (s.params.map (s.argument positional keywords))
      | missing => .error (.missing missing)

/-- A call that binds gives every required parameter an argument. -/
theorem bind_required (h : s.bind positional keywords = .ok slots) :
    ∀ p ∈ s.required, (s.argument positional keywords p).isSome := by
  intro p hp
  unfold bind at h
  split at h
  · simp at h
  · split_ifs at h
    split at h
    · next hnone =>
      have hkept := List.filter_eq_nil_iff.mp hnone p hp
      simpa [Option.isNone_iff_eq_none, Option.isSome_iff_ne_none] using hkept
    · simp at h

/-- Without keywords the positional arguments reach every required parameter. -/
theorem bind_positional (h : s.bind positional [] = .ok slots) :
    ∀ p ∈ s.required, s.params.idxOf p < positional.length := by
  intro p hp
  have hsome := bind_required h p hp
  simp only [argument, List.find?_nil, Option.map_none, Option.or_none] at hsome
  simpa using hsome

end Signature

end Calls
