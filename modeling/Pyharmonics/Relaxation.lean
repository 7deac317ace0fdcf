import Pyharmonics.DetectPatterns
import Pyharmonics.SignalEngine

/-! Signal extraction of the backtest: the live filters are relaxed around the engine call. -/
namespace Pyharmonics.Backtest

variable {N : Numerics} {w : Process} {df : Frame} {interval : String} {relax : Bool}

/-- What the relaxation overwrites, with the value to put back. -/
inductive Saved
  | maxPrzDistanceAtr (value : ℚ)
  | maxDAgeBars (value : ℚ)
  | rejectionReason (value : RejectionReasonBinding)
  | tuningScope

/-- `_maybe_relax_filters`: the process it leaves and the entries that restore it. -/
def maybeRelaxFilters (relax : Bool) (w : Process) : Process × Except PyError (List Saved) :=
  if relax then
    let patched : Process :=
      { w with maxPrzDistanceAtr := 10 ^ 9, maxDAgeBars := 10 ^ 9, rejectionReason := .noop }
    match fromDict { minCandles := some 30 } with
    | .ok t => (patched.enter t, .ok [.maxPrzDistanceAtr w.maxPrzDistanceAtr,
        .maxDAgeBars w.maxDAgeBars, .rejectionReason w.rejectionReason, .tuningScope])
    | .error e => (patched, .error e)
  else (w, .ok [])

def Saved.restore (w : Process) : Saved → Process
  | .maxPrzDistanceAtr value => { w with maxPrzDistanceAtr := value }
  | .maxDAgeBars value => { w with maxDAgeBars := value }
  | .rejectionReason value => { w with rejectionReason := value }
  | .tuningScope => w.exit

/-- `_restore_filters` -/
def restoreFilters (saved : List Saved) (w : Process) : Process := saved.foldl Saved.restore w

/-- The detection dict of a window; an empty value is `none`. -/
structure WindowDetection where
  rawAssessment : Option RawAssessment := none
  divergences : Option Divergences := none
  patterns : Option String := none

variable {d : WindowDetection}

/-- `FIB_TOLERANCE` -/
def fibTolerance : ℚ := 1 / 10

/-- `detect_window`; `none` is an exception of the library. -/
def detectWindow (lib : PatternLibrary) (df : Frame) (symbol interval : String) :
    Option WindowDetection := do
  let scan := if interval ∈ ["1d", "1w", "4h"] then some (4 / 5) else none
  let found ← lib.search ⟨df, symbol, interval⟩ fibTolerance 5 scan
  return {
    rawAssessment := some found.assessment
    divergences := some (found.divergences.mapValues fun ds => ds.getLast?.toList.map (·.toDict))
    patterns := found.best.map Prod.fst }

/-- The detection of the backtest keeps its findings where `extract_candidates` reads them. -/
theorem detectWindow_agrees {lib : PatternLibrary} {symbol : String} {found : Findings}
    {closeTimes : Option (List ℤ)} {cs : List Candidate}
    (hs : lib.search ⟨df, symbol, interval⟩ fibTolerance 5
      (if interval ∈ ["1d", "1w", "4h"] then some (4 / 5) else none) = some found)
    (hn : ∀ f ∈ found.assessment.found, f.Named)
    (hd : detectWindow lib df symbol interval = some d)
    (hc : extractCandidates d.rawAssessment closeTimes = .ok cs) :
    Agrees found.assessment.found cs := by
  simp only [detectWindow, hs, Option.bind_eq_bind, Option.bind_some, Option.pure_def,
    Option.some.injEq] at hd
  subst hd
  exact extractCandidates_agrees hn hc

/-- One run of `extract_signal`: its outcome, the process its engine call saw, and the process
it leaves. -/
structure Extraction where
  result : Except PyError (Option Signal)
  engine : Option Process
  after : Process

/-- The part of `extract_signal` before the filters are touched. -/
def prepare (df : Frame) (d : WindowDetection) :
    Except PyError (Option (Frame × List Candidate)) :=
  if d.patterns.isNone ∧ d.rawAssessment.isNone then .ok none
  else
    match df.closeTimes? with
    | none => .error (.other "close_time")
    | some times => do
      let df := if times.Pairwise (· ≤ ·) then df else df.sortIndex
      let candidates ← extractCandidates d.rawAssessment df.closeTimes?
      return if candidates = [] then none else some (df, candidates)

/-- A contract violation of the engine drops the signal. -/
def dropViolation : Except PyError (Option Signal) → Except PyError (Option Signal)
  | .error (.violation _) => .ok none
  | r => r

/-- `extract_signal` -/
def extractSignal (N : Numerics) (w : Process) (df : Frame) (interval : String)
    (d : WindowDetection) (relax : Bool := true) : Extraction :=
  match prepare df d with
  | .error e => ⟨.error e, none, w⟩
  | .ok none => ⟨.ok none, none, w⟩
  | .ok (some (df, candidates)) =>
    match maybeRelaxFilters relax w with
    | (w', .error e) => ⟨.error e, none, w'⟩
    | (w', .ok saved) =>
      let input : BuildInput :=
        { df := some df, interval := interval, candidates := candidates
          divergences := d.divergences }
      ⟨dropViolation (buildSignal N w' input), some w', restoreFilters saved w'⟩

/-- The tuning `from_dict({"min_candles": 30})` builds: the defaults, whatever is in force. -/
def relaxedTuning : TuningConstants := ⟨{ minCandles := 30 }, by decide +kernel⟩

/-- The process inside the relaxation. -/
def relaxed (w : Process) : Process :=
  Process.enter { w with maxPrzDistanceAtr := 10 ^ 9, maxDAgeBars := 10 ^ 9
                         rejectionReason := .noop } relaxedTuning

theorem fromDict_relaxed : fromDict { minCandles := some 30 } = .ok relaxedTuning :=
  build_of_valid relaxedTuning.valid

theorem maybeRelaxFilters_true : maybeRelaxFilters true w =
    (relaxed w, .ok [.maxPrzDistanceAtr w.maxPrzDistanceAtr, .maxDAgeBars w.maxDAgeBars,
      .rejectionReason w.rejectionReason, .tuningScope]) := by
  rw [maybeRelaxFilters, if_pos rfl, fromDict_relaxed]
  rfl

/-- Restoring puts back every value and closes the scope. -/
theorem restore_maybeRelaxFilters {w' : Process} {saved : List Saved}
    (h : maybeRelaxFilters relax w = (w', .ok saved)) : restoreFilters saved w' = w := by
  cases relax with
  | true =>
    rw [maybeRelaxFilters_true] at h
    obtain ⟨rfl, rfl⟩ := by simpa only [Prod.mk.injEq, Except.ok.injEq] using h
    rfl
  | false =>
    obtain ⟨rfl, rfl⟩ := by simpa [maybeRelaxFilters] using h
    rfl

/-- The window has candidates to ask the engine about. -/
def reaches (df : Frame) (d : WindowDetection) : Bool :=
  match prepare df d with
  | .ok (some _) => true
  | _ => false

theorem extractSignal_after : (extractSignal N w df interval d relax).after = w := by
  unfold extractSignal
  match prepare df d with
  | .error e => rfl
  | .ok none => rfl
  | .ok (some (df, candidates)) =>
    match h : maybeRelaxFilters relax w with
    | (w', .ok saved) => exact restore_maybeRelaxFilters h
    | (w', .error e) =>
      cases relax with
      | true => simp [maybeRelaxFilters_true] at h
      | false => simp [maybeRelaxFilters] at h

/-- The engine is called in the relaxed process, and only when there are candidates. -/
theorem extractSignal_engine : (extractSignal N w df interval d).engine =
    if reaches df d then some (relaxed w) else none := by
  unfold extractSignal reaches
  match prepare df d with
  | .error e => rfl
  | .ok none => rfl
  | .ok (some (df, candidates)) =>
    simp only [maybeRelaxFilters_true]
    rfl

/-- The tuning in force with `min_candles` lowered is the relaxed one. -/
def RelaxesTo (t : TuningFields) : Prop :=
  { t with minCandles := 30 } = relaxedTuning.toTuningFields

/-- Every engine call sees the tuning in force with only `min_candles` replaced, and the process
is afterwards what it was. -/
structure KeepsTuning (w : Process) (engines : List Process) (after : Process) : Prop where
  engine : ∀ p ∈ engines,
    p.getTuning.toTuningFields = { w.getTuning.toTuningFields with minCandles := 30 }
  after : after = w

theorem keepsTuning_relaxed_iff {engines : List Process} (h : ∀ p ∈ engines, p = relaxed w) :
    KeepsTuning w engines w ↔ (engines ≠ [] → RelaxesTo w.getTuning.toTuningFields) := by
  constructor
  · intro hk hne
    obtain ⟨p, ps, rfl⟩ := List.exists_cons_of_ne_nil hne
    have hp := hk.engine p (by simp)
    rw [h p (by simp)] at hp
    exact hp.symm
  · intro hr
    refine ⟨fun p hp => ?_, rfl⟩
    rw [h p hp]
    exact (hr (List.ne_nil_of_mem hp)).symm

/-- Relaxing keeps the tuning exactly when it is that of the defaults but for `min_candles`. -/
theorem extractSignal_keeps_iff :
    KeepsTuning w (extractSignal N w df interval d).engine.toList
        (extractSignal N w df interval d).after ↔
      (reaches df d → RelaxesTo w.getTuning.toTuningFields) := by
  rw [extractSignal_after, extractSignal_engine, keepsTuning_relaxed_iff]
  · cases reaches df d <;> simp
  · cases reaches df d <;> simp

end Pyharmonics.Backtest
