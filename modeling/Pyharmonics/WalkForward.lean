import Pyharmonics.ForwardSimulation
import Pyharmonics.LiveTuning
import Pyharmonics.Relaxation

/-! The walk-forward backtest and the weight search that runs it once for each set of weights. -/
namespace Pyharmonics.Backtest

inductive EntryMode
  | market | prz
  deriving DecidableEq

inductive SignalTimeOffset
  | close | nextOpen
  deriving DecidableEq

/-- The keyword arguments of `walk_forward`. -/
structure WalkOptions where
  window : ℕ
  step : ℕ
  horizon : ℕ
  signalTimeOffset : SignalTimeOffset := .close
  entryMode : EntryMode := .market
  minGrade : Option String := none
  windowPos : 0 < window
  stepPos : 0 < step

/-- One detected signal and the forward trade of it, if any; `tp1` is `none` for NaN. -/
structure BacktestSignalRecord where
  stepIndex : ℕ
  signalTime : Option ℤ
  direction : DirectionWord
  grade : Grade
  patternName : String
  family : String
  formed : Bool
  entryPrice : ℚ
  stopLoss : ℚ
  tp1 : Option ℚ
  rr1 : ℚ
  entryReference : ℚ
  entryZone : ℚ × ℚ
  horizon : ℕ
  result : ForwardOutcome
  rMultiple : ℚ
  exitTime : Option ℤ
  barsHeld : Option ℤ
  deriving DecidableEq

/-- One run over windows: its records, the process of every engine call, the process it leaves. -/
structure WalkRun where
  records : Except PyError (List BacktestSignalRecord)
  engines : List Process
  after : Process

/-- `detect(w, s, i)` on a window, which may raise. -/
abbrev Detect := Frame → Except PyError WindowDetection

variable {N : Numerics} {w v : Process} {df : Frame} {interval : String} {detect : Detect}
  {o : WalkOptions} {e : ℕ} {es : List ℕ}

/-- `range(window - 1, n - horizon, step)`, empty for a frame that is too short. -/
def windowEnds (n : ℕ) (o : WalkOptions) : List ℕ :=
  if n < o.window + o.horizon + 1 then []
  else
    let span := n - o.horizon - (o.window - 1)
    List.range' (o.window - 1) ((span + o.step - 1) / o.step) o.step

def windowAt (df : Frame) (o : WalkOptions) (e : ℕ) : Frame := df.slice (e + 1 - o.window) (e + 1)

def forwardAt (df : Frame) (o : WalkOptions) (e : ℕ) : Frame :=
  df.slice (e + 1) (e + 1 + o.horizon + 1)

/-- `grade_rank` of `walk_forward`. -/
def gradeWordRank (word : String) : ℕ :=
  if word = "A" then 3 else if word = "B" then 2 else if word = "C(参考)" then 1 else 0

def gradeWord : Grade → String
  | .a => "A"
  | .b => "B"
  | .c => "C"
  | .reference => "C(参考)"

/-- The signal is below the lowest grade asked for. -/
def belowGrade (o : WalkOptions) (s : Signal) : Bool :=
  match o.minGrade with
  | some least => decide (gradeWordRank (gradeWord s.grade) < gradeWordRank least)
  | none => false

/-- `df.index[end_idx]`, or the label of the bar after it. -/
def signalTime (df : Frame) (o : WalkOptions) (e : ℕ) : Option ℤ :=
  match o.signalTimeOffset with
  | .close => df.rows[e]?.map Row.index
  | .nextOpen => (df.rows[if e + 1 < df.length then e + 1 else e]?).map Row.index

/-- The record of a window's signal. -/
def recordOf (df : Frame) (o : WalkOptions) (e : ℕ) (s : Signal) : BacktestSignalRecord :=
  let currentPrice := ((windowAt df o e).rows.getLast?.map Row.close).getD 0
  let przEntry := if o.entryMode = .prz then some s.entryReference else none
  let r := simulateOne (forwardAt df o e) (some s)
    { currentPrice := some currentPrice, entryPrice := przEntry }
  { stepIndex := e
    signalTime := signalTime df o e
    direction := s.direction
    grade := s.grade
    patternName := s.patternName
    family := s.family
    formed := s.formed
    entryPrice := currentPrice
    stopLoss := s.stopLoss
    tp1 := s.targets.head?.map SignalTarget.price
    rr1 := s.netRrTp1
    entryReference := s.entryReference
    entryZone := s.entryZone
    horizon := o.horizon
    result := r.result
    rMultiple := r.rMultiple
    exitTime := r.exitTime
    barsHeld := r.barsHeld }

/-- The records of a window: none without a signal or below the lowest grade. -/
def recordsOf (df : Frame) (o : WalkOptions) (e : ℕ) (s : Option Signal) :
    List BacktestSignalRecord :=
  (s.filter fun s => !belowGrade o s).toList.map (recordOf df o e)

/-- The loop over the windows. -/
def walkSteps (N : Numerics) (df : Frame) (interval : String) (detect : Detect) (o : WalkOptions) :
    List ℕ → Process → WalkRun
  | [], w => ⟨.ok [], [], w⟩
  | e :: es, w =>
    match detect (windowAt df o e) with
    | .error err => ⟨.error err, [], w⟩
    | .ok d =>
      let x := extractSignal N w (windowAt df o e) interval d
      match x.result with
      | .error err => ⟨.error err, x.engine.toList, x.after⟩
      | .ok s =>
        let rest := walkSteps N df interval detect o es x.after
        ⟨rest.records.map (recordsOf df o e s ++ ·), x.engine.toList ++ rest.engines, rest.after⟩

/-- `walk_forward` -/
def walkForward (N : Numerics) (w : Process) (df : Frame) (interval : String) (detect : Detect)
    (o : WalkOptions) : WalkRun :=
  walkSteps N df interval detect o (windowEnds df.length o) w

/-- Some window before the first failing one has candidates for the engine. -/
def walkReaches (df : Frame) (detect : Detect) (o : WalkOptions) : List ℕ → Bool
  | [] => false
  | e :: es =>
    match detect (windowAt df o e) with
    | .error _ => false
    | .ok d =>
      match prepare (windowAt df o e) d with
      | .error _ => false
      | .ok none => walkReaches df detect o es
      | .ok (some _) => true

theorem walkSteps_after : (walkSteps N df interval detect o es w).after = w := by
  induction es with
  | nil => rfl
  | cons e es ih =>
    unfold walkSteps
    split
    · rfl
    · dsimp only
      split
      · exact extractSignal_after
      · rw [extractSignal_after]
        exact ih

/-- Every engine call of a walk runs in the relaxed process. -/
theorem walkSteps_engines :
    ∀ p ∈ (walkSteps N df interval detect o es w).engines, p = relaxed w := by
  have hcall : ∀ {df d}, ∀ p ∈ (extractSignal N w df interval d).engine.toList, p = relaxed w := by
    intro df d p hp
    rw [extractSignal_engine] at hp
    split at hp
    · simpa using hp
    · simp at hp
  induction es with
  | nil =>
    intro p hp
    cases hp
  | cons e es ih =>
    unfold walkSteps
    split
    · simp
    · dsimp only
      split
      · exact hcall
      · intro p hp
        rw [extractSignal_after] at hp
        rcases List.mem_append.mp hp with hp | hp
        · exact hcall p hp
        · exact ih p hp

theorem extractSignal_result_of_none {d : WindowDetection} (h : prepare df d = .ok none) :
    extractSignal N w df interval d = ⟨.ok none, none, w⟩ := by
  rw [extractSignal, h]

theorem walkSteps_engines_ne_nil :
    (walkSteps N df interval detect o es w).engines ≠ [] ↔ walkReaches df detect o es := by
  induction es with
  | nil => simp [walkSteps, walkReaches]
  | cons e es ih =>
    unfold walkSteps walkReaches
    match detect (windowAt df o e) with
    | .error err => simp
    | .ok d =>
      dsimp only
      have hcall : (extractSignal N w (windowAt df o e) interval d).engine =
          if reaches (windowAt df o e) d then some (relaxed w) else none :=
        extractSignal_engine
      match hp : prepare (windowAt df o e) d with
      | .ok none =>
        rw [extractSignal_result_of_none hp]
        simpa using ih
      | .error err => simp [extractSignal, hp]
      | .ok (some x) =>
        have hr : reaches (windowAt df o e) d = true := by rw [reaches, hp]
        rw [hr] at hcall
        split <;> simp [hcall]

/-- The law of the walk: the engine sees the tuning in force with only `min_candles` lowered, and
nothing is left behind. -/
theorem walkForward_keeps_iff : KeepsTuning w (walkForward N w df interval detect o).engines
      (walkForward N w df interval detect o).after ↔
    (walkReaches df detect o (windowEnds df.length o) → RelaxesTo w.getTuning.toTuningFields) := by
  unfold walkForward
  rw [walkSteps_after, keepsTuning_relaxed_iff walkSteps_engines, walkSteps_engines_ne_nil]

/-! The weight search. -/

/-- What the search reports of one set of weights. -/
structure GridOutcome where
  weights : Dict String ℚ
  winRate : ℚ
  avgR : ℚ
  n : ℕ

/-- One search: what it reports, each walk with the process it started in, the process it leaves. -/
structure GridRun where
  outcomes : Except PyError (List GridOutcome)
  walks : List (Process × WalkRun)
  after : Process

structure GridResult where
  bestWeights : Dict String ℚ
  results : List GridOutcome

def gridOutcome (records : List BacktestSignalRecord) (weights : Dict String ℚ) : GridOutcome :=
  let wins := records.countP (·.result = .traded .win)
  let losses := records.countP (·.result = .traded .loss)
  let n := wins + losses
  { weights := weights
    winRate := if n = 0 then 0 else wins / n
    avgR := if n = 0 then 0 else (records.map (·.rMultiple)).sum / n
    n := n }

/-- `dataclasses.replace(TUNING, confluence_weights=weights)` -/
def tunedWith (w : Process) (weights : Dict String ℚ) : Except PyError TuningConstants :=
  { w.tuning.toTuningFields with confluenceWeights := weights }.build

/-- The evaluations of the candidates, each under its own scope. -/
def gridSteps (N : Numerics) (df : Frame) (interval : String) (detect : Detect) (o : WalkOptions) :
    List (Dict String ℚ) → Process → GridRun
  | [], w => ⟨.ok [], [], w⟩
  | weights :: rest, w =>
    match tunedWith w weights with
    | .error err => ⟨.error err, [], w⟩
    | .ok tuned =>
      let run := walkForward N (w.enter tuned) df interval detect o
      match run.records with
      | .error err => ⟨.error err, [(w.enter tuned, run)], run.after.exit⟩
      | .ok records =>
        let next := gridSteps N df interval detect o rest run.after.exit
        ⟨next.outcomes.map (gridOutcome records weights :: ·), (w.enter tuned, run) :: next.walks,
          next.after⟩

/-- The key of the maximum. -/
def GridOutcome.key (a : GridOutcome) : ℚ := a.winRate * (4 / 10) + a.avgR * (6 / 10)

/-- `max(scored, key=…)`: the first of the greatest. -/
def bestOutcome (best : GridOutcome) : List GridOutcome → GridOutcome
  | [] => best
  | a :: rest => bestOutcome (if best.key < a.key then a else best) rest

/-- `grid_search_weights` -/
def gridSearchWeights (N : Numerics) (w : Process) (df : Frame) (interval : String)
    (detect : Detect) (o : WalkOptions) (candidates : List (Dict String ℚ)) :
    Except PyError GridResult := do
  let outcomes ← (gridSteps N df interval detect o candidates w).outcomes
  match outcomes.filter (5 ≤ ·.n), candidates with
  | a :: scored, _ => return ⟨(bestOutcome a scored).weights, outcomes⟩
  | [], first :: _ => return ⟨first, outcomes⟩
  | [], [] => .error (.other "list index out of range")

/-- Relaxed processes of one set of committed defaults differ in nothing the engine reads. -/
theorem relaxed_sameReads (h : w.tuning = v.tuning) : SameReads N (relaxed w) (relaxed v) := by
  have ht : (relaxed w).tuning = (relaxed v).tuning := h
  exact ⟨rfl, rfl, fun _ _ _ _ => by rw [ht], fun _ => by rw [ht], fun _ => by rw [ht]; rfl⟩

theorem extractSignal_result_eq {d : WindowDetection} (h : w.tuning = v.tuning) :
    (extractSignal N w df interval d).result = (extractSignal N v df interval d).result := by
  unfold extractSignal
  match prepare df d with
  | .error e => rfl
  | .ok none => rfl
  | .ok (some (df, candidates)) =>
    simp only [maybeRelaxFilters_true, (relaxed_sameReads h).buildSignal_eq]

/-- The tuning in force does not reach the records of a walk. -/
theorem walkSteps_records_eq (h : w.tuning = v.tuning) :
    (walkSteps N df interval detect o es w).records =
      (walkSteps N df interval detect o es v).records := by
  induction es with
  | nil => rfl
  | cons e es ih =>
    unfold walkSteps
    match detect (windowAt df o e) with
    | .error err => rfl
    | .ok d =>
      have hx : (extractSignal N w (windowAt df o e) interval d).result =
          (extractSignal N v (windowAt df o e) interval d).result := extractSignal_result_eq h
      dsimp only
      rw [← hx]
      match (extractSignal N w (windowAt df o e) interval d).result with
      | .error err => rfl
      | .ok s =>
        dsimp only
        rw [extractSignal_after, extractSignal_after, ih]

theorem walkForward_enter (t : TuningConstants) :
    (walkForward N (w.enter t) df interval detect o).records =
      (walkForward N w df interval detect o).records :=
  walkSteps_records_eq rfl

variable {weights : Dict String ℚ} {candidates : List (Dict String ℚ)}

theorem walkForward_exit (t : TuningConstants) :
    (walkForward N (w.enter t) df interval detect o).after.exit = w := by
  rw [walkForward, walkSteps_after, Process.exit_enter]

/-- Every scope of the search is closed. -/
theorem gridSteps_after : (gridSteps N df interval detect o candidates w).after = w := by
  induction candidates with
  | nil => rfl
  | cons weights rest ih =>
    unfold gridSteps
    split
    · rfl
    · dsimp only
      split
      · exact walkForward_exit _
      · rw [walkForward_exit]
        exact ih

theorem gridSteps_walks : ∀ x ∈ (gridSteps N df interval detect o candidates w).walks,
    x.2 = walkForward N x.1 df interval detect o := by
  induction candidates with
  | nil =>
    intro x hx
    cases hx
  | cons weights rest ih =>
    unfold gridSteps
    split
    · simp
    · dsimp only
      split
      · simp
      · rw [walkForward_exit]
        simpa using ih

/-- The law of `extract_signal`, of the walk over it and of the walks of a search: the engine sees
the tuning in force with only `min_candles` lowered, and nothing is left behind. -/
theorem relaxation_keeps_iff (d : WindowDetection) (candidates : List (Dict String ℚ)) :
    (KeepsTuning w (extractSignal N w df interval d).engine.toList
          (extractSignal N w df interval d).after ↔
        (reaches df d → RelaxesTo w.getTuning.toTuningFields)) ∧
      (KeepsTuning w (walkForward N w df interval detect o).engines
          (walkForward N w df interval detect o).after ↔
        (walkReaches df detect o (windowEnds df.length o) →
          RelaxesTo w.getTuning.toTuningFields)) ∧
      (gridSteps N df interval detect o candidates w).after = w ∧
      ∀ x ∈ (gridSteps N df interval detect o candidates w).walks,
        KeepsTuning x.1 x.2.engines x.2.after ↔
          (walkReaches df detect o (windowEnds df.length o) →
            RelaxesTo x.1.getTuning.toTuningFields) := by
  refine ⟨extractSignal_keeps_iff, walkForward_keeps_iff, gridSteps_after, ?_⟩
  intro x hx
  rw [gridSteps_walks x hx]
  exact walkForward_keeps_iff

/-- Every evaluation reports the records of the same walk. -/
theorem gridSteps_outcomes {os : List GridOutcome}
    (h : (gridSteps N df interval detect o candidates w).outcomes = .ok os) :
    candidates = [] ∨ ∃ records, (walkForward N w df interval detect o).records = .ok records ∧
      os = candidates.map (gridOutcome records) := by
  induction candidates generalizing os with
  | nil => exact Or.inl rfl
  | cons weights rest ih =>
    right
    unfold gridSteps at h
    match ht : tunedWith w weights with
    | .error err => simp [ht] at h
    | .ok tuned =>
      simp only [ht, walkForward_enter] at h
      match hr : (walkForward N w df interval detect o).records with
      | .error err => simp [hr] at h
      | .ok records =>
        simp only [hr, walkForward_exit] at h
        match hn : (gridSteps N df interval detect o rest w).outcomes with
        | .error err => simp [hn, Except.map] at h
        | .ok os' =>
          simp only [hn, Except.map, Except.ok.injEq] at h
          refine ⟨records, rfl, ?_⟩
          rcases ih hn with rfl | ⟨records', hr', hos⟩
          · obtain rfl : [] = os' := Except.ok.inj hn
            exact h.symm
          · obtain rfl := Except.ok.inj (hr.symm.trans hr')
            rw [← h, hos, List.map_cons]

theorem bestOutcome_eq {best : GridOutcome} {scored : List GridOutcome}
    (h : ∀ a ∈ scored, a.key = best.key) : bestOutcome best scored = best := by
  induction scored with
  | nil => rfl
  | cons a rest ih =>
    rw [bestOutcome, if_neg (by rw [h a (by simp)]; exact lt_irrefl _)]
    exact ih fun a ha => h a (by simp [ha])

/-- The search returns the weights it was given first, whatever the market. -/
theorem gridSearch_first {r : GridResult}
    (h : gridSearchWeights N w df interval detect o (weights :: candidates) = .ok r) :
    r.bestWeights = weights := by
  obtain ⟨outcomes, ho, h⟩ := bind_ok.mp h
  rcases gridSteps_outcomes ho with hnil | ⟨records, -, rfl⟩
  · simp at hnil
  by_cases hn : 5 ≤ (gridOutcome records weights).n
  · have hall : (weights :: candidates).map (gridOutcome records) =
        ((weights :: candidates).map (gridOutcome records)).filter (5 ≤ ·.n) := by
      rw [eq_comm, List.filter_eq_self]
      intro a ha
      obtain ⟨x, -, rfl⟩ := List.mem_map.mp ha
      exact decide_eq_true hn
    rw [← hall, List.map_cons] at h
    obtain rfl := Except.ok.inj h
    have hbest : bestOutcome (gridOutcome records weights) (candidates.map (gridOutcome records)) =
        gridOutcome records weights := by
      refine bestOutcome_eq ?_
      intro a ha
      obtain ⟨x, -, rfl⟩ := List.mem_map.mp ha
      rfl
    exact congrArg GridOutcome.weights hbest
  · have hnone : ((weights :: candidates).map (gridOutcome records)).filter (5 ≤ ·.n) = [] := by
      rw [List.filter_eq_nil_iff]
      intro a ha
      obtain ⟨x, -, rfl⟩ := List.mem_map.mp ha
      exact fun hd => hn (of_decide_eq_true hd)
    rw [hnone] at h
    obtain rfl := Except.ok.inj h
    rfl

/-! A search over weights other than the default ones. -/

/-- The default weights with five points moved from the funding to the trend. -/
def trendWeights : Dict String ℚ :=
  ⟨[("price_action", 25), ("htf_trend", 30), ("rsi", 15), ("structure", 15), ("macd", 10),
    ("funding", 5)], by decide⟩

/-- A process inside the scope of those weights. -/
def trendProcess : Process :=
  defaultProcess.enter ⟨{ confluenceWeights := trendWeights }, by decide +kernel⟩

def batDetection : WindowDetection :=
  { rawAssessment := some { patterns := some (.single "XABCD" (some [bat])) }
    patterns := some "XABCD" }

/-- The engine is run with the default weights while the scope asks for others. -/
theorem trendWeights_lost : ¬ KeepsTuning trendProcess
    (extractSignal plainNumerics trendProcess alternatingFrame "4h" batDetection).engine.toList
    (extractSignal plainNumerics trendProcess alternatingFrame "4h" batDetection).after := by
  rw [extractSignal_keeps_iff]
  intro h
  have hlost := congrArg TuningFields.confluenceWeights (h (by decide +kernel))
  exact absurd hlost (by decide +kernel)

end Pyharmonics.Backtest
