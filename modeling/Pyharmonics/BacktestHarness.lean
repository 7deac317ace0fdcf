import Pyharmonics.DisciplineFilters
import Pyharmonics.MacroBias
import Pyharmonics.SignalEngine

/-! The v3 backtest harness: the trades of one strategy group on the fresh patterns of a symbol. -/
namespace Pyharmonics.Harness

/-- `_backtest_grade`, to which the harness binds `grade` of the signal engine. -/
def backtestGrade : GradeFn := fun score rrTp1 rrTp2 _ htfCounter _ widthPct =>
  let observation : Option Grade := if 15 ≤ score then some .reference else none
  match rrTp1, rrTp2 with
  | some rr1, some rr2 =>
    if ∃ x ∈ widthPct, 4 / 100 ≤ x then .ok observation
    else if htfCounter then .ok observation
    else if rr1 < 1 ∨ rr2 < 3 / 2 then .ok observation
    else if 60 ≤ score then .ok (some .b)
    else if 30 ≤ score then .ok (some .reference)
    else .ok none
  | _, _ => .ok none

/-- A day of UTC in seconds. -/
def secondsPerDay : ℤ := 86400

/-- The start of the day of a time. -/
def dayOf (dts : ℤ) : ℤ := dts / secondsPerDay * secondsPerDay

/-- `.resample("1d").last().dropna()` of values at ascending times: the last one of each day. -/
def lastPerDay : List (ℤ × ℚ) → List (ℤ × ℚ)
  | [] => []
  | [p] => [(dayOf p.1, p.2)]
  | p :: q :: rest =>
    if dayOf q.1 = dayOf p.1 then lastPerDay (q :: rest)
    else (dayOf p.1, p.2) :: lastPerDay (q :: rest)

/-- `to_daily_close` -/
def toDailyClose (rows : List Row) : List (ℤ × ℚ) := lastPerDay (rows.map fun r => (r.dts, r.close))

/-- `daily_close.iloc[: daily_close.index.searchsorted(ts) + 1]` -/
def dailyUntil (daily : List (ℤ × ℚ)) (ts : ℤ) : List ℚ :=
  (daily.take (daily.countP (fun d => decide (d.1 < ts)) + 1)).map Prod.snd

inductive ExitReason
  | endOfData | degenerateRisk | stopLoss | tp1 | tp2
  deriving DecidableEq

inductive Group
  | control | strict | experimental
  deriving DecidableEq

/-- A trade of the harness. -/
structure Trade where
  symbol : String
  pattern : String
  family : String
  direction : DirectionWord
  entryBar : ℕ
  entryPrice : ℚ
  stopLoss : ℚ
  tp1 : Option ℚ
  tp2 : Option ℚ
  exitBar : ℕ
  exitPrice : ℚ
  exitReason : ExitReason
  rMultiple : ℚ
  barsHeld : ℤ
  grade : Grade
  widthPct : ℚ
  macroSizeMult : ℚ := 1
  macroRegime : String := "unknown"
  disciplinePassed : Bool := true
  group : Option Group := none
  deriving DecidableEq

/-- Where a trade ends and what it makes. -/
structure Exit where
  bar : ℕ
  price : ℚ
  reason : ExitReason
  r : ℚ
  deriving DecidableEq

/-- `signal.targets[0].price if signal.targets else None` -/
def firstTarget (S : Signal) : Option ℚ := S.targets.head?.map SignalTarget.price

/-- `signal.targets[1].price if len(signal.targets) > 1 else tp1` -/
def secondTarget (S : Signal) : Option ℚ :=
  match S.targets[1]? with
  | some t => some t.price
  | none => firstTarget S

def isLong (S : Signal) : Bool := decide (S.direction = .long)

/-- The gain from the entry to a price, in units of the risk. -/
def multiple (S : Signal) (price : ℚ) : ℚ :=
  let risk := |S.entryReference - S.stopLoss|
  if isLong S then (price - S.entryReference) / risk else (S.entryReference - price) / risk

/-- The first level a bar is asked for that it reaches: the stop, then the targets. -/
def exitOn (S : Signal) (i : ℕ) (r : Row) : Option Exit :=
  let reaches (target : ℚ) : Bool :=
    if isLong S then decide (target ≤ r.high) else decide (r.low ≤ target)
  if if isLong S then r.low ≤ S.stopLoss else S.stopLoss ≤ r.high then
    some ⟨i, S.stopLoss, .stopLoss, -1⟩
  else if (firstTarget S).any reaches then
    (firstTarget S).map fun tp => ⟨i, tp, .tp1, multiple S tp⟩
  else if (secondTarget S).any reaches then
    (secondTarget S).map fun tp => ⟨i, tp, .tp2, multiple S tp⟩
  else none

/-- The last bar a trade can be held to. -/
def endBar (df : Frame) (entryBar maxHoldBars : ℕ) : ℕ :=
  min (entryBar + maxHoldBars) (df.length - 1)

/-- The exit of a trade with a risk: the loop over the bars behind the entry bar, or its last close. -/
def exitFrom (df : Frame) (entryBar : ℕ) (S : Signal) (maxHoldBars : ℕ) : Exit :=
  let last := endBar df entryBar maxHoldBars
  let close := (df.rows[last]?.map Row.close).getD 0
  ((List.range' (entryBar + 1) (last - entryBar)).findSome? fun i =>
    df.rows[i]?.bind (exitOn S i)).getD ⟨last, close, .endOfData, multiple S close⟩

/-- `_simulate_trade` -/
def simulateTrade (symbol : String) (df : Frame) (entryBar : ℕ) (S : Signal)
    (maxHoldBars : ℕ := 100) : Trade :=
  let e : Exit := if |S.entryReference - S.stopLoss| ≤ 0
    then ⟨entryBar, S.entryReference, .degenerateRisk, 0⟩ else exitFrom df entryBar S maxHoldBars
  { symbol := symbol
    pattern := S.patternName
    family := S.family
    direction := S.direction
    entryBar := entryBar
    entryPrice := S.entryReference
    stopLoss := S.stopLoss
    tp1 := firstTarget S
    tp2 := secondTarget S
    exitBar := e.bar
    exitPrice := e.price
    exitReason := e.reason
    rMultiple := e.r
    barsHeld := (e.bar : ℤ) - entryBar
    grade := S.grade
    widthPct := S.widthPct.getD 0 }

/-- The signal built at an anchor from the bars up to it; any exception counts as none. -/
def signalAt (N : Numerics) (w : Process) (df : Frame) (anchor : ℕ) (c : Candidate) :
    Option Signal :=
  let sub := ({ df with rows := df.rows.take (anchor + 1) } : Frame).resetIndex
  (buildSignal N w { df := some sub, interval := "4h", candidates := [c] }
    backtestGrade).toOption.join

/-- Whether a group takes a candidate with this verdict. -/
def accepts (group : Group) (c : Candidate) (verdict : Discipline.DisciplineResult) : Bool :=
  match group with
  | .control => true
  | .strict | .experimental => if c.formed then !verdict.metrics.pastTp2 else verdict.passed

/-- The signal direction as `macro_bias` is given it. -/
def macroSide (c : Candidate) : ℤ := if c.bullish then 1 else -1

/-- The body of the loop of `run_symbol_group`. -/
def runPattern (N : Numerics) (w : Process) (symbol : String) (df : Frame)
    (daily : List (ℤ × ℚ)) (group : Group) (anchor : ℕ) (c : Candidate) :
    Except PyError (Option Trade) := do
  match signalAt N w df anchor c with
  | none => return none
  | some S =>
    match df.rows[anchor + 1]? with
    | none => return none
    | some entry =>
      let verdict ← Discipline.evaluate N w df c entry.close none none
      let overlay ← Macro.compute N w (some (dailyUntil daily entry.dts)) (macroSide c)
      if ¬ accepts group c verdict then
        return none
      return some { simulateTrade symbol df (anchor + 1) S with
        disciplinePassed := verdict.passed
        macroSizeMult := if group = .experimental then overlay.sizeMult else 1
        macroRegime := overlay.macroDir
        group := some group }

/-- `run_symbol_group` on a list of fresh patterns. -/
def runSymbolGroup (N : Numerics) (w : Process) (symbol : String) (df : Frame)
    (daily : List (ℤ × ℚ)) (group : Group) : List (ℕ × Candidate) → Except PyError (List Trade)
  | [] => .ok []
  | (anchor, c) :: fresh => do
    let trade ← runPattern N w symbol df daily group anchor c
    let rest ← runSymbolGroup N w symbol df daily group fresh
    return trade.toList ++ rest

end Pyharmonics.Harness
