import Pyharmonics.Frame
import Pyharmonics.TuningScope

/-! The pure signal math: candidates, stops, targets, risk/reward and grades. -/
namespace Pyharmonics

/-- The words the repository uses for a direction. -/
inductive DirectionWord
  | long | short | bullish | bearish
  deriving DecidableEq

inductive Grade
  | a | b | c | reference
  deriving DecidableEq

inductive Status
  | approaching | inPrz | confirmed | swept
  deriving DecidableEq

inductive Regime
  | normal | moderateQuant | highQuant
  deriving DecidableEq

inductive Trend
  | bullish | bearish | unknown
  deriving DecidableEq

/-- A harmonic pattern candidate extracted from the pattern library. -/
structure Candidate where
  family : String
  name : String
  bullish : Bool
  formed : Bool
  points : List ℚ
  completionMin : ℚ
  completionMax : ℚ
  times : List ℤ := []
  indices : List ℤ := []
  deriving DecidableEq

namespace Candidate

def direction (c : Candidate) : DirectionWord := if c.bullish then .long else .short

/-- `points[i]` -/
def point (c : Candidate) (i : ℕ) : Except PyError ℚ :=
  match c.points[i]? with
  | some p => .ok p
  | none => .error (.other "tuple index out of range")

def xPrice (c : Candidate) : Except PyError ℚ := c.point 0

def aPrice (c : Candidate) : Except PyError ℚ :=
  if c.family = "XABCD" then c.point 1 else c.point 0

def przLow (c : Candidate) : ℚ := min c.completionMin c.completionMax

def przHigh (c : Candidate) : ℚ := max c.completionMin c.completionMax

end Candidate

structure SignalTarget where
  label : String
  price : ℚ
  fibBasis : String
  closePct : ℤ
  moveStopTo : String
  deriving DecidableEq

/-- A fully specified, executable trade signal. -/
structure Signal where
  status : Status
  grade : Grade
  direction : DirectionWord
  patternName : String
  family : String
  formed : Bool
  entryZone : ℚ × ℚ
  entryReference : ℚ
  stopLoss : ℚ
  stopBasis : String
  stopLevel : String
  invalidationPoint : ℚ
  targets : List SignalTarget
  netRrTp1 : ℚ
  netRrTp2 : ℚ
  confluenceScore : ℤ
  confluence : List (String × ℚ) := []
  htfTrend : Trend := .unknown
  reasoning : String := ""
  sharpe : Option ℚ := none
  regime : Regime := .normal
  positionMultiplier : Option ℚ := none
  stabilityScore : Option ℤ := none
  trapScore : Option ℤ := none
  tradable : Bool := true
  macroAdvice : Option String := none
  barsSinceC : Option ℤ := none
  stale : Bool := false
  breachedStop : Bool := false
  pastTp2 : Bool := false
  widthPct : Option ℚ := none
  deriving DecidableEq

/-- `prz_state` -/
def przState (price przLow przHigh : ℚ) (swept : Bool) : Status :=
  if swept then .swept else if przLow ≤ price ∧ price ≤ przHigh then .inPrz else .approaching

/-- `is_swept`: a wick beyond the PRZ and a close back inside it. -/
def isSwept (low high close przLow przHigh : ℚ) : Bool :=
  decide (low < przLow ∧ przLow ≤ close ∧ close ≤ przHigh) ||
    decide (przHigh < high ∧ close ≤ przHigh ∧ przLow ≤ close)

/-- `REGIME_STOP_MULTIPLIER.get(regime, 1.0)` -/
def regimeStopMultiplier : Regime → ℚ
  | .highQuant => 3 / 2
  | .normal | .moderateQuant => 1

/-- `GRADE_STOP_MULTIPLIER.get(grade, 1.0)`, 1.0 for no grade. -/
def gradeStopMultiplier : Option Grade → ℚ
  | some .c => 13 / 10
  | some .reference => 3 / 2
  | some .a | some .b | none => 1

def maxStopBufferMult : ℚ := 2

/-- `_chain_suffix` -/
def chainSuffix (trapM regimeM gradeM : ℚ) (stopBufferAtr : Option ℚ) : String :=
  if stopBufferAtr.isSome then ""
  else
    let part (name : String) (m : ℚ) : List String :=
      if m ≠ 1 then [name ++ "×" ++ Rounding.fixedText 2 m] else []
    let parts := part "trap" trapM ++ part "regime" regimeM ++ part "grade" gradeM
    if parts = [] then "" else " · " ++ " · ".intercalate parts

/-- The keyword arguments of `compute_stop`. -/
structure StopArgs where
  swingAnchor : Option ℚ := none
  entry : Option ℚ := none
  trapMultiplier : ℚ := 1
  regime : Regime := .normal
  grade : Option Grade := none
  stopBufferAtr : Option ℚ := none

/-- The structural anchor of a long and the text of its basis. -/
def longAnchor (c : Candidate) (level : String) (extended : Bool) (label : String) :
    Except PyError (ℚ × String) :=
  if level = "conservative" then .ok (c.przLow, "PRZ外 invalidation - " ++ label)
  else if level = "aggressive" then do
    let x ← c.xPrice
    .ok (min x c.przLow, "X点 invalidation - " ++ label)
  else if extended then .ok (c.przLow, "X/PRZ invalidation - " ++ label)
  else do
    let x ← c.xPrice
    .ok (min x c.przLow, "X/PRZ invalidation - " ++ label)

/-- The structural anchor of a short and the text of its basis. -/
def shortAnchor (c : Candidate) (level : String) (extended : Bool) (label : String) :
    Except PyError (ℚ × String) :=
  if level = "conservative" then .ok (c.przHigh, "PRZ外 invalidation + " ++ label)
  else if level = "aggressive" then do
    let x ← c.xPrice
    .ok (max x c.przHigh, "X点 invalidation + " ++ label)
  else if extended then .ok (c.przHigh, "X/PRZ invalidation + " ++ label)
  else do
    let x ← c.xPrice
    .ok (max x c.przHigh, "X/PRZ invalidation + " ++ label)

/-- A swing on the right side of the entry and tighter than the structure replaces it. -/
def swingLong (swingAnchor entry : Option ℚ) (anchor : ℚ) : ℚ × String :=
  match swingAnchor, entry with
  | some s, some e => if s < e ∧ 0 < s ∧ anchor < s then (s, " + swing") else (anchor, "")
  | _, _ => (anchor, "")

def swingShort (swingAnchor entry : Option ℚ) (anchor : ℚ) : ℚ × String :=
  match swingAnchor, entry with
  | some s, some e => if e < s ∧ 0 < s ∧ s < anchor then (s, " + swing") else (anchor, "")
  | _, _ => (anchor, "")

/-- A stop, the reason for its placement and the point where the pattern is invalidated. -/
structure StopPlan where
  stop : ℚ
  basis : String
  invalidation : ℚ
  deriving DecidableEq

/-- The ATR multiple of the buffer before the multiplier chain. -/
def stopBase (w : Process) (level : String) (a : StopArgs) : Except PyError ℚ :=
  match a.stopBufferAtr with
  | some b => .ok b
  | none =>
    match w.getTuning.atrStopBuffer.get? level with
    | some b => .ok b
    | none => .error (.other level)

/-- The whole chain, clamped. -/
def effectiveMult (base : ℚ) (a : StopArgs) : ℚ :=
  min (base * max 1 a.trapMultiplier * regimeStopMultiplier a.regime * gradeStopMultiplier a.grade)
    maxStopBufferMult

/-- An anchor, the text of its structural basis and the suffix of a swing that replaced it. -/
structure StopAnchor where
  price : ℚ
  basis : String
  swingSuffix : String

/-- The anchor of the stop: the structure, or a swing tighter than it. -/
def stopAnchor (w : Process) (c : Candidate) (level label : String)
    (swingAnchor entry : Option ℚ) : Except PyError StopAnchor := do
  let extended := decide (c.name.toLower ∈ w.getTuning.extendedPatterns)
  if c.bullish then
    let (anchor, basis) ← longAnchor c level extended label
    let (anchor, suffix) := swingLong swingAnchor entry anchor
    return ⟨anchor, basis, suffix⟩
  else
    let (anchor, basis) ← shortAnchor c level extended label
    let (anchor, suffix) := swingShort swingAnchor entry anchor
    return ⟨anchor, basis, suffix⟩

/-- The body of `compute_stop`. -/
def placeStop (N : Numerics) (w : Process) (c : Candidate) (atr : ℚ) (level : String)
    (a : StopArgs) : Except PyError StopPlan := do
  -- the levels are those of the committed defaults at import
  let level := if level ∈ w.tuning.atrStopBuffer.keys then level else "standard"
  let base ← stopBase w level a
  let buffer := effectiveMult base a * atr
  let anchor ← stopAnchor w c level (Rounding.fixedText 2 base ++ "*ATR") a.swingAnchor a.entry
  let suffix := chainSuffix (max 1 a.trapMultiplier) (regimeStopMultiplier a.regime)
    (gradeStopMultiplier a.grade) a.stopBufferAtr
  return ⟨N.round 8 (if c.bullish then anchor.price - buffer else anchor.price + buffer),
    anchor.basis ++ suffix ++ anchor.swingSuffix, N.round 8 anchor.price⟩

/-- `compute_stop` under its contract. -/
def computeStop (N : Numerics) (w : Process) (c : Candidate) (atr : ℚ)
    (level : String := "standard") (a : StopArgs := {}) : Except PyError StopPlan := do
  require (∀ p ∈ c.points, 0 < p) "Pattern pivot prices must all be positive"
  require (0 < c.przLow ∧ 0 < c.przHigh)
    "PRZ bounds must be positive; degenerate candidates are filtered upstream"
  require (0 < atr) "ATR must be positive; compute_stop is undefined for zero volatility"
  let r ← placeStop N w c atr level a
  require (0 < r.basis.length) "stop_basis must be a non-empty human-readable string"
  require (0 < r.invalidation) "Returned invalidation point must be positive"
  require (0 < r.stop) "Returned stop price must be positive"
  return r

/-- `tp_close_pcts[i]` -/
def closePctAt (t : TuningFields) (i : ℕ) : Except PyError ℤ :=
  match t.tpClosePcts[i]? with
  | some p => .ok p
  | none => .error (.other "tuple index out of range")

/-- `compute_targets`: the Fibonacci ladder on the A-D leg. -/
def computeTargets (N : Numerics) (w : Process) (c : Candidate) (entry : ℚ) :
    Except PyError (List SignalTarget) := do
  let t := w.getTuning
  let a ← c.aPrice
  let span := |a - entry|
  let price (fib : ℚ) : ℚ := if c.bullish then entry + fib * span else entry - fib * span
  let p1 ← closePctAt t.toTuningFields 0
  let p2 ← closePctAt t.toTuningFields 1
  let p3 ← closePctAt t.toTuningFields 2
  return [⟨"TP1", N.round 8 (price t.fibTp1), "AD 38.2% retrace", p1, "breakeven"⟩,
    ⟨"TP2", N.round 8 (price t.fibTp2), "AD 61.8% retrace", p2, "tp1"⟩,
    ⟨"TP3", N.round 8 (price t.fibTp3), "AD 127.2% extension", p3, "trail 1*ATR"⟩]

/-- The body of `net_rr` with the fees of the tuning in force. -/
def netRatio (N : Numerics) (t : TuningFields) (entry stop target : ℚ) : Option ℚ :=
  let risk := |entry - stop|
  if risk ≤ 0 ∨ entry ≤ 0 then none
  else
    let cost := 2 * (t.feeRate + t.slippageRate) * entry
    let reward := |target - entry| - cost
    let netRisk := risk + cost
    if reward ≤ 0 ∨ netRisk ≤ 0 then none else some (N.round 4 (reward / netRisk))

/-- `net_rr` under its contract, called without rates of its own. -/
def netRr (N : Numerics) (w : Process) (entry stop target : ℚ) : Except PyError (Option ℚ) := do
  require (0 < target) "Target price must be positive"
  require (0 < stop) "Stop price must be positive"
  require (0 < entry) "Entry price must be positive for risk/reward math"
  let r := netRatio N w.getTuning.toTuningFields entry stop target
  require (∀ x ∈ r, 0 < x) "net_rr returns None for degenerate geometry, otherwise a positive ratio"
  return r

/-- The body of `grade`: hard gates, then the score. -/
def gradeOf (score : ℚ) (rrTp1 rrTp2 : Option ℚ) (htfAligned htfCounter : Bool) (aMin : ℚ)
    (widthPct : Option ℚ) : Option Grade :=
  match rrTp1, rrTp2 with
  | some rr1, some rr2 =>
    let observation := if 45 ≤ score then some Grade.reference else none
    if (∃ x ∈ widthPct, 4 / 100 ≤ x) then observation
    else if htfCounter then observation
    else if rr1 < 1 ∨ rr2 < 3 / 2 then observation
    else if aMin ≤ score ∧ 2 ≤ rr2 ∧ htfAligned then some .a
    else if 60 ≤ score then some .b
    else observation
  | _, _ => none

/-- `grade` under its contract; its results satisfy the `@ensure` by type but for a plain C. -/
def gradeSignal (score : ℚ) (rrTp1 rrTp2 : Option ℚ) (htfAligned htfCounter : Bool) (aMin : ℚ)
    (widthPct : Option ℚ) : Except PyError (Option Grade) := do
  require (¬ (htfAligned ∧ htfCounter)) "Aligned and counter cannot both be True"
  require (0 < aMin ∧ aMin ≤ 100) "a_min must be in (0, 100]"
  require (0 ≤ score ∧ score ≤ 100) "score must be a 0-100 confluence value"
  let g := gradeOf score rrTp1 rrTp2 htfAligned htfCounter aMin widthPct
  require (g ≠ some .c) "grade() returns None or one of A / B / C(参考)"
  return g

def Trend.text : Trend → String
  | .bullish => "bullish"
  | .bearish => "bearish"
  | .unknown => "unknown"

/-- `reasoning_from_signal` -/
def reasoningFromSignal (s : Signal) : String :=
  let f := Rounding.fixedText 2
  let tps := " / ".intercalate (s.targets.map fun t =>
    t.label ++ " " ++ f t.price ++ "（" ++ t.fibBasis ++ "，平 " ++ toString t.closePct ++ "%）")
  "\n".intercalate (
    ["方向：" ++ (if s.direction = .long then "做多" else "做空") ++ "（" ++ s.patternName ++ " · " ++
        s.family ++ " · " ++ (if s.formed then "formed" else "forming") ++ "）",
      "入场区：" ++ f s.entryZone.1 ++ " – " ++ f s.entryZone.2 ++ "（参考 " ++ f s.entryReference ++ "）",
      "止损：" ++ f s.stopLoss ++ "（" ++ s.stopBasis ++ "，失效点 " ++ f s.invalidationPoint ++ "）"] ++
    (if s.targets = [] then [] else ["止盈：" ++ tps]) ++
    ["净盈亏比：TP1 " ++ Rounding.shortText s.netRrTp1 ++ "R / TP2 " ++
        Rounding.shortText s.netRrTp2 ++ "R",
      "高周期趋势：" ++ s.htfTrend.text])

end Pyharmonics
