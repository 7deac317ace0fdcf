import Pyharmonics.Confluence

/-! The signal engine: score every surviving candidate, rank the signals, check stability. -/
namespace Pyharmonics

open Series

/-- `_clamp_sharpe` -/
def clampSharpe (N : Numerics) (sharpe : Extended) : ℚ :=
  N.round 4 (match sharpe with
    | .negInf => -10
    | .finite x => max (-10) (min 10 x)
    | .posInf => 10)

/-- `_compute_swing_anchor`: the recent extreme over about eight ATRs of travel. -/
def computeSwingAnchor (df : Frame) (atr : ℚ) (bullish : Bool) : Option ℚ :=
  if atr ≤ 0 ∨ df.length < 20 then none
  else
    let recent := df.tail 60
    let barRange := maximum (recent.map Row.high) - minimum (recent.map Row.low)
    if barRange ≤ 0 then none
    else
      let lookback := max 20 (min 120 ⌊8 * atr / barRange * 60⌋)
      let window := df.tail (min lookback df.length)
      some (if bullish then minimum (window.map Row.low) else maximum (window.map Row.high))

/-- `_ScoreContext`: what every candidate of one call shares. -/
structure ScoreContext where
  df : Frame
  atr : ℚ
  rsi : ℚ
  trend : Trend
  sharpe : Extended
  regime : Regime
  aMin : ℚ
  paScale : ℚ
  positionMult : ℚ
  price : ℚ
  last : Row
  divergences : Divergences
  volumeAuthenticity : ℤ
  stopBufferAtr : Option ℚ
  momentum : Momentum

/-- The MACD lines and the RSI series of `_prepare_score_context`. -/
def prepareMomentum (w : Process) (closes : List ℚ) : Momentum :=
  let line := List.zipWith (· - ·) (ewmSpan 12 closes) (ewmSpan 26 closes)
  let signal := ewmSpan 9 line
  let histogram := List.zipWith (· - ·) line signal
  { rsiSeries := rsiSeries w.getTuning.rsiWindow closes
    macdLine := line.getLastD 0
    macdSignal := signal.getLastD 0
    macdHistogram := histogram.getLastD 0
    macdHistogramPrev := if 2 ≤ histogram.length then histogram.dropLast.getLastD 0 else 0 }

/-- `_prepare_score_context` of a frame with `last` as its last row. -/
def prepareScoreContext (N : Numerics) (w : Process) (df : Frame) (last : Row) (interval : String)
    (divergences : Option Divergences) (stopBufferAtr : Option ℚ) :
    Except PyError (Option ScoreContext) := do
  let t := w.getTuning
  let auth := volumeAuthenticity df w.tuning.volumeAuthenticityWindow
  let atr ← computeAtr w df
  if atr ≤ 0 then
    return none
  let rsi ← computeRsi w df.closes
  let trend ← htfTrend N w df interval
  let regime := (quantRegime N w df w.tuning.quantRegimeWindow).2
  let regimeMult := if regime = .highQuant then t.highQuantPositionMult else 1
  return some {
    df := df
    atr := atr
    rsi := rsi
    trend := trend
    sharpe := perBarSharpe N w df.closes
    regime := regime
    aMin := if regime = .highQuant then t.aGradeMinHighQuant else t.aGradeMin
    paScale := if auth < t.authenticityHalve then 1 / 2 else 1
    positionMult := N.round 4 (volatilityMultiplier N w atr last.close * regimeMult)
    price := last.close
    last := last
    divergences := divergences.getD Dict.empty
    volumeAuthenticity := auth
    stopBufferAtr := stopBufferAtr
    momentum := prepareMomentum w df.closes }

/-- The state of the price towards the zone and the entry it gives. -/
def ScoreContext.entryState (ctx : ScoreContext) (c : Candidate) : Status × ℚ :=
  let swept := isSwept ctx.last.low ctx.last.high ctx.price c.przLow c.przHigh
  let status := przState ctx.price c.przLow c.przHigh swept
  let status := if (status = .inPrz ∨ status = .swept) ∧ isReversalCandle ctx.last c.bullish
    then .confirmed else status
  (status, if status ≠ .approaching then ctx.price else if c.bullish then c.przHigh else c.przLow)

/-- The PRZ width as a fraction of its middle. -/
def widthPct (c : Candidate) : ℚ :=
  let przMid := (c.przLow + c.przHigh) / 2
  if 0 < przMid then (c.przHigh - c.przLow) / przMid else 0

def htfAligned (c : Candidate) (trend : Trend) : Bool :=
  (c.bullish && trend = .bullish) || (!c.bullish && trend = .bearish)

def htfCounter (c : Candidate) (trend : Trend) : Bool :=
  (c.bullish && trend = .bearish) || (!c.bullish && trend = .bullish)

def targetPrice (targets : List SignalTarget) (i : ℕ) : ℚ :=
  (targets[i]?.map SignalTarget.price).getD 0

def stopLevels : List String := ["conservative", "standard", "aggressive"]

/-- The second-pass stop, with the full multiplier chain. -/
def ScoreContext.finalStop (ctx : ScoreContext) (N : Numerics) (w : Process) (c : Candidate)
    (stopLevel : String) (entry : ℚ) (swing : Option ℚ) (trapM : ℚ) (g : Grade) :
    Except PyError StopPlan :=
  computeStop N w c ctx.atr stopLevel
    { swingAnchor := swing, entry := some entry, trapMultiplier := trapM, regime := ctx.regime,
      grade := some g, stopBufferAtr := ctx.stopBufferAtr }

/-- The published signal of a graded candidate. -/
def ScoreContext.publish (ctx : ScoreContext) (N : Numerics) (c : Candidate) (stopLevel : String)
    (status : Status) (entry : ℚ) (stop : StopPlan) (targets : List SignalTarget)
    (rr1 rr2 : Option ℚ) (score : ℚ) (factors : List (String × ℚ)) (g : Grade) (trapScore : ℤ) :
    Signal :=
  let signal : Signal :=
    { status := status
      grade := g
      direction := c.direction
      patternName := c.name
      family := c.family
      formed := c.formed
      entryZone := (c.przLow, c.przHigh)
      entryReference := N.round 8 entry
      stopLoss := stop.stop
      stopBasis := stop.basis
      stopLevel := stopLevel
      invalidationPoint := stop.invalidation
      targets := targets
      netRrTp1 := rr1.getD 0
      netRrTp2 := rr2.getD 0
      confluenceScore := Rounding.halfEven score
      confluence := factors
      htfTrend := ctx.trend
      sharpe := some (clampSharpe N ctx.sharpe)
      regime := ctx.regime
      positionMultiplier := some ctx.positionMult
      trapScore := some trapScore
      tradable := decide (g ≠ .reference)
      widthPct := some (N.round 4 (Pyharmonics.widthPct c)) }
  { signal with reasoning := reasoningFromSignal signal }

/-- What `grade` is bound to in this module. -/
abbrev GradeFn :=
  ℚ → Option ℚ → Option ℚ → Bool → Bool → ℚ → Option ℚ → Except PyError (Option Grade)

/-- `score_candidate`: every gate in order, then the signal. -/
def scoreCandidate (N : Numerics) (w : Process) (ctx : ScoreContext) (c : Candidate)
    (stopLevel : String := "standard") (grade : GradeFn := gradeSignal) :
    Except PyError (Option Signal) := do
  require (0 < ctx.atr) "ctx.atr must be positive (set by _prepare_score_context)"
  require (stopLevel ∈ stopLevels) "stop_level must be one of conservative/standard/aggressive"
  let t := w.getTuning
  let threshold := if c.formed then t.authenticityVeto else t.authenticityHalve
  if ctx.volumeAuthenticity < threshold then
    return none
  let (status, entry) := ctx.entryState c
  let swing := computeSwingAnchor ctx.df ctx.atr c.bullish
  -- the first pass has no multipliers yet: the grade is not known
  let first ← computeStop N w c ctx.atr stopLevel { swingAnchor := swing, entry := some entry }
  let trap := quantTrapRisk ctx.df c.przLow c.przHigh c.bullish w.tuning.quantTrapLookback
  if trap.veto then
    return none
  if adverseMomentumVeto w c.direction ctx.sharpe then
    return none
  let targets ← computeTargets N w c entry
  if !directionInvariantOk c.direction entry first.stop (targets.map SignalTarget.price) then
    return none
  let rr1 ← netRr N w entry first.stop (targetPrice targets 0)
  let rr2 ← netRr N w entry first.stop (targetPrice targets 1)
  let (total, factors) ← confluenceScore w ctx.df ctx.last c ctx.atr ctx.rsi ctx.trend
    ctx.divergences ctx.paScale ctx.momentum
  let score := max 0 (min 100 (total + patternBaseScore w c.name))
  let graded ← grade score rr1 rr2 (htfAligned c ctx.trend) (htfCounter c ctx.trend)
    ctx.aMin (some (widthPct c))
  match graded with
  | none => return none
  | some g =>
    let trapM ← trapStopMultiplier trap.score
    let final ← ctx.finalStop N w c stopLevel entry swing trapM g
    let rr1 ← netRr N w entry final.stop (targetPrice targets 0)
    let rr2 ← netRr N w entry final.stop (targetPrice targets 1)
    return some (ctx.publish N c stopLevel status entry final targets rr1 rr2 score factors g
      trap.score)

def gradeRank : Grade → ℤ
  | .a => 3
  | .b => 2
  | .c => 1
  | .reference => 0

/-- The strict lexicographic order of `(grade, score, formed)`. -/
def rankBelow (a b : ℤ × ℤ × Bool) : Bool :=
  decide (a.1 < b.1) || (a.1 = b.1 && (decide (a.2.1 < b.2.1) ||
    (a.2.1 = b.2.1 && (!a.2.2 && b.2.2))))

def Signal.rank (s : Signal) : ℤ × ℤ × Bool := (gradeRank s.grade, s.confluenceScore, s.formed)

/-- The loop of `rank_signals`. -/
def rankLoop (best : Option Signal) (bestRank : ℤ × ℤ × Bool) : List Signal → Option Signal
  | [] => best
  | s :: rest =>
    if rankBelow bestRank s.rank then rankLoop (some s) s.rank rest else rankLoop best bestRank rest

/-- `rank_signals`: the strongest signal, the earlier of equals. -/
def rankSignals (signals : List Signal) : Option Signal := rankLoop none (-1, -1, false) signals

/-- A detector's answer on a slice of the frame. -/
abbrev StabilityDetector := Frame → Except PyError (Option String)

/-- `replace(signal, stability_score=…)` -/
def Signal.withStability (s : Signal) (score : Option ℤ) : Signal := { s with stabilityScore := score }

@[simp] theorem Signal.withStability_grade (s : Signal) (score : Option ℤ) :
    (s.withStability score).grade = s.grade := rfl

/-- `apply_stability`: any failure of the detector leaves both sub-windows unknown. -/
def applyStability (w : Process) (df : Frame) (best : Option Signal)
    (detector : Option StabilityDetector) : Option Signal :=
  match best, detector with
  | some s, some detect =>
    if s.grade ≠ .a ∧ s.grade ≠ .b then some s
    else
      let stab := w.getTuning.stabilityWindow.toNat
      let subs : Option String × Option String :=
        match detect (df.dropLast stab), detect (df.drop stab) with
        | .ok sub1, .ok sub2 => (sub1, sub2)
        | _, _ => (none, none)
      let (score, suspect) := stabilityVerdict (some s.patternName) subs.1 subs.2
      if suspect then none else some (s.withStability (some score))
  | best, _ => best

/-- The arguments of `build_signal`. -/
structure BuildInput where
  df : Option Frame
  interval : String
  candidates : List Candidate
  divergences : Option Divergences := none
  stabilityDetector : Option StabilityDetector := none
  stopLevel : String := "standard"
  stopBufferAtr : Option ℚ := none

/-- The signals of the candidates that pass every gate, in order. -/
def scoreAll (N : Numerics) (w : Process) (ctx : ScoreContext) (stopLevel : String)
    (cs : List Candidate) (grade : GradeFn := gradeSignal) : Except PyError (List Signal) :=
  match cs with
  | [] => .ok []
  | c :: cs => do
    let s ← scoreCandidate N w ctx c stopLevel grade
    let rest ← scoreAll N w ctx stopLevel cs grade
    return s.toList ++ rest

/-- `build_signal` -/
def buildSignal (N : Numerics) (w : Process) (i : BuildInput) (grade : GradeFn := gradeSignal) :
    Except PyError (Option Signal) := do
  require (i.stopLevel ∈ stopLevels) "stop_level must be one of conservative/standard/aggressive"
  require (0 < i.interval.length) "interval must be a non-empty string"
  match i.df with
  | none => return none
  | some df =>
    if (df.length : ℤ) < w.getTuning.minCandles ∨ i.candidates = [] then
      return none
    match df.rows.getLast? with
    | none => .error (.other "single positional indexer is out-of-bounds")
    | some last =>
      match ← prepareScoreContext N w df last i.interval i.divergences i.stopBufferAtr with
      | none => return none
      | some ctx =>
        let (valid, _) ← filterCandidates N w ctx.price ctx.atr df.closeTimes? i.candidates
        let scored ← scoreAll N w ctx i.stopLevel valid grade
        return applyStability w df (rankSignals scored) i.stabilityDetector

end Pyharmonics
