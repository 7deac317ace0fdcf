import Pyharmonics.Signals

/-! Candidates from the raw assessment that a detection result carries. -/
namespace Pyharmonics

/-- An entry of `pattern.x`: `int` reads a position, only `pd.Timestamp` a time, or neither does. -/
inductive IndexLabel
  | position (i : ℤ) | timestamp (seconds : ℤ) | unreadable
  deriving DecidableEq

/-- `getattr(pattern, "x", None) or ()`; the truth value of a longer array is an error. -/
inductive PatternX
  | labels (xs : List IndexLabel) | notIterable | ambiguous
  deriving DecidableEq

/-- A pattern object of the library; an attribute is `none` where reading or converting it fails. -/
structure Pattern where
  y : Option (List ℚ)
  completionMinPrice : Option ℚ
  completionMaxPrice : Option ℚ
  name : Option String
  bullish : Option Bool
  x : PatternX := .labels []
  direction : Option String := none
  htfTrend : Option String := none
  deriving DecidableEq

/-- The families of a search and the patterns of each. -/
abbrev PatternGroups := Dict String (Option (List Pattern))

/-- The value stored under `raw_assessment`. -/
structure RawAssessment where
  patterns : Option PatternGroups := none
  forming : Option PatternGroups := none

/-- A pattern with the family and the group it was found in. -/
structure Found where
  family : String
  formed : Bool
  pattern : Pattern
  deriving DecidableEq

variable {closeTimes : Option (List ℤ)} {f : Found} {fs : List Found} {c : Candidate}
  {cs : List Candidate}

/-- `int(t)` -/
def IndexLabel.toInt? : IndexLabel → Option ℤ
  | .position i => some i
  | _ => none

/-- The close time at a bar position, else the time of the label itself. -/
def IndexLabel.closeTime? (closeTimes : List ℤ) : IndexLabel → Option ℤ
  | .position i => if 0 ≤ i then closeTimes[i.toNat]? else none
  | .timestamp seconds => some seconds
  | .unreadable => none

/-- `_extract_times`: the times of the labels and their bar positions. -/
def extractTimes (x : PatternX) (closeTimes : Option (List ℤ)) :
    Except PyError (List ℤ × List ℤ) :=
  match x with
  | .ambiguous => .error (.valueError "The truth value is ambiguous" [])
  | .notIterable => .ok ([], [])
  | .labels xs =>
    let indices := xs.filterMap IndexLabel.toInt?
    match closeTimes with
    | none => .ok ((xs.mapM IndexLabel.toInt?).getD [], indices)
    | some times => .ok (xs.filterMap (IndexLabel.closeTime? times), indices)

/-- `_to_candidate` -/
def toCandidate (closeTimes : Option (List ℤ)) (f : Found) : Except PyError (Option Candidate) :=
  match f.pattern.y, f.pattern.completionMinPrice, f.pattern.completionMaxPrice, f.pattern.name,
    f.pattern.bullish with
  | some points, some cMin, some cMax, some name, some bullish =>
    if points.length < 3 ∨ cMin ≤ 0 ∨ cMax ≤ 0 then .ok none
    else do
      let (times, indices) ← extractTimes f.pattern.x closeTimes
      return some {
        family := f.family
        name := name
        bullish := bullish
        formed := f.formed
        points := points
        completionMin := cMin
        completionMax := cMax
        times := times
        indices := indices }
  | _, _, _, _, _ => .ok none

/-- One group's patterns in the order of its families. -/
def foundIn (formed : Bool) (group : Option PatternGroups) : List Found :=
  (group.getD Dict.empty).entries.flatMap fun e => (e.2.getD []).map fun p => ⟨e.1, formed, p⟩

/-- The patterns in the order of the loops: formed before forming. -/
def RawAssessment.found (raw : RawAssessment) : List Found :=
  foundIn true raw.patterns ++ foundIn false raw.forming

/-- The loop over the patterns, which skips what is no candidate. -/
def candidatesOf (closeTimes : Option (List ℤ)) : List Found → Except PyError (List Candidate)
  | [] => .ok []
  | f :: fs => do
    let c ← toCandidate closeTimes f
    let rest ← candidatesOf closeTimes fs
    return c.toList ++ rest

/-- `extract_candidates` of a detection result with this `raw_assessment`. -/
def extractCandidates (raw : Option RawAssessment) (closeTimes : Option (List ℤ)) :
    Except PyError (List Candidate) :=
  candidatesOf closeTimes (raw.getD {}).found

/-- What a candidate keeps of its pattern. -/
structure PatternKey where
  family : String
  formed : Bool
  points : List ℚ
  completionMin : ℚ
  completionMax : ℚ
  deriving DecidableEq

def Candidate.key (c : Candidate) : PatternKey :=
  ⟨c.family, c.formed, c.points, c.completionMin, c.completionMax⟩

/-- The key of a pattern with three numeric points and a positive zone. -/
def Found.key? (f : Found) : Option PatternKey :=
  match f.pattern.y, f.pattern.completionMinPrice, f.pattern.completionMaxPrice with
  | some points, some cMin, some cMax =>
    if 3 ≤ points.length ∧ 0 < cMin ∧ 0 < cMax then some ⟨f.family, f.formed, points, cMin, cMax⟩
    else none
  | _, _, _ => none

/-- Every qualifying pattern gives exactly one candidate, and no candidate comes from elsewhere. -/
def Agrees (fs : List Found) (cs : List Candidate) : Prop :=
  (cs.map Candidate.key).Perm (fs.filterMap Found.key?)

/-- A pattern that carries a name and a direction, as those of the library do. -/
def Found.Named (f : Found) : Prop := f.pattern.name.isSome ∧ f.pattern.bullish.isSome

theorem toCandidate_key {o : Option Candidate} (hn : f.Named)
    (h : toCandidate closeTimes f = .ok o) : o.map Candidate.key = f.key? := by
  obtain ⟨name, hname⟩ := Option.isSome_iff_exists.mp hn.1
  obtain ⟨bullish, hbullish⟩ := Option.isSome_iff_exists.mp hn.2
  unfold toCandidate at h
  unfold Found.key?
  cases hy : f.pattern.y with
  | none => simp_all
  | some points =>
    cases hmin : f.pattern.completionMinPrice with
    | none => simp_all
    | some cMin =>
      cases hmax : f.pattern.completionMaxPrice with
      | none => simp_all
      | some cMax =>
        simp only [hy, hmin, hmax, hname, hbullish] at h ⊢
        by_cases hq : 3 ≤ points.length ∧ 0 < cMin ∧ 0 < cMax
        · rw [if_neg (by rintro (h | h | h) <;> [omega; linarith; linarith])] at h
          obtain ⟨⟨times, indices⟩, -, ho⟩ := bind_ok.mp h
          obtain rfl := Except.ok.inj ho
          rw [if_pos hq]
          rfl
        · have hskip : points.length < 3 ∨ cMin ≤ 0 ∨ cMax ≤ 0 := by
            by_contra hno
            push Not at hno
            exact hq hno
          rw [if_pos hskip] at h
          obtain rfl := Except.ok.inj h
          rw [if_neg hq]
          rfl

/-- The candidates are the qualifying patterns in their order. -/
theorem candidatesOf_keys (hn : ∀ f ∈ fs, f.Named) (h : candidatesOf closeTimes fs = .ok cs) :
    cs.map Candidate.key = fs.filterMap Found.key? := by
  induction fs generalizing cs with
  | nil => simp_all [candidatesOf]
  | cons f fs ih =>
    obtain ⟨o, ho, h⟩ := bind_ok.mp h
    obtain ⟨rest, hrest, h⟩ := bind_ok.mp h
    obtain rfl := Except.ok.inj h
    have hkey := toCandidate_key (hn f (by simp)) ho
    rw [List.map_append, ih (fun f hf => hn f (by simp [hf])) hrest, List.filterMap_cons, ← hkey]
    cases o <;> rfl

/-- A producer that stores what it found agrees with `extract_candidates`. -/
theorem extractCandidates_agrees {raw : RawAssessment} (hn : ∀ f ∈ raw.found, f.Named)
    (h : extractCandidates raw closeTimes = .ok cs) : Agrees raw.found cs :=
  .of_eq (candidatesOf_keys hn h)

@[simp] theorem extractCandidates_none : extractCandidates none closeTimes = .ok [] := rfl

theorem agrees_nil_iff : Agrees fs [] ↔ ∀ f ∈ fs, f.key? = none := by
  rw [Agrees, List.map_nil, List.nil_perm, List.filterMap_eq_nil_iff]

end Pyharmonics
