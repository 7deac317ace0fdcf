import Pyharmonics.BenchRecord
import Pyharmonics.WalkForward

/-! The backtest of a bench record, its trade metrics, the score of its outcome, and the runner's
conversion of walk-forward records. -/
namespace Pyharmonics.Bench

open Backtest

/-- What the walk over the held bars keeps. -/
structure HeldBars where
  maePrice : ℚ := 0
  mfePrice : ℚ := 0
  maeBarIndex : Option ℕ := none
  stopZoneTouches : ℤ := 0
  hitStop : Bool := false
  hitTarget : Bool := false
  deriving DecidableEq

/-- One bar of the loop of `compute_trade_metrics`. -/
def HeldBars.next (s : Setup) (zone : ℚ × ℚ) (h : HeldBars) (bar : Row × ℕ) : HeldBars :=
  let long := decide (s.direction = .long)
  let r := bar.1
  let mae := if long then max (s.entryPrice - r.low) 0 else max (r.high - s.entryPrice) 0
  let mfe := if long then max (r.high - s.entryPrice) 0 else max (s.entryPrice - r.low) 0
  let stopHit := if long then decide (r.low ≤ s.stopLoss) else decide (s.stopLoss ≤ r.high)
  let targetHit :=
    if long then decide (s.targetPrice ≤ r.high) else decide (r.low ≤ s.targetPrice)
  { maePrice := if h.maePrice < mae then mae else h.maePrice
    mfePrice := if h.mfePrice < mfe then mfe else h.mfePrice
    maeBarIndex := if h.maePrice < mae then some bar.2 else h.maeBarIndex
    stopZoneTouches := h.stopZoneTouches + if r.low ≤ zone.2 ∧ zone.1 ≤ r.high then 1 else 0
    hitStop := h.hitStop || (stopHit && !h.hitTarget)
    hitTarget := h.hitTarget || targetHit }

/-- `_callback_volume_ratio` -/
def callbackVolumeRatio (rows : List Row) (maeBarIndex : Option ℕ) : Option ℚ :=
  match maeBarIndex with
  | none => none
  | some 0 => none
  | some (i + 1) =>
    let mean (l : List Row) : ℚ := (l.map Row.volume).sum / l.length
    let preMean := mean (rows.take (i + 1))
    if preMean ≤ 0 then none else some (mean (rows.take (i + 2)) / preMean)

structure TradeMetrics where
  mae : ℚ
  mfe : ℚ
  maeAtrRatio : ℚ
  mfeAtrRatio : ℚ
  callbackDepth : ℚ
  callbackBars : ℤ
  callbackVolumeRatio : Option ℚ
  hitStopBeforeTp : Bool
  stopZoneTouches : ℤ
  deriving DecidableEq

/-- `compute_trade_metrics` on the bars a trade was held. -/
def computeTradeMetrics (df : Frame) (s : Setup) (atrAtEntry : ℚ) : Except PyError TradeMetrics := do
  refuse (¬ ∀ c ∈ ["close", "high", "low", "open", "volume"], c ∈ df.columns)
    "DataFrame missing columns" []
  refuse (df.empty = true) "DataFrame is empty" []
  refuse (s.entryPrice ≤ 0 ∨ s.stopLoss ≤ 0 ∨ s.targetPrice ≤ 0) "prices must be positive" []
  refuse (atrAtEntry ≤ 0) "atr_at_entry must be positive" []
  refuse (¬ s.Ordered) (if s.direction = .long then "Long requires stop < entry < target"
    else "Short requires stop > entry > target") []
  let half := atrAtEntry * (1 / 10)
  let h := df.rows.zipIdx.foldl (HeldBars.next s (s.stopLoss - half, s.stopLoss + half)) {}
  return {
    mae := h.maePrice
    mfe := h.mfePrice
    maeAtrRatio := h.maePrice / atrAtEntry
    mfeAtrRatio := h.mfePrice / atrAtEntry
    callbackDepth := h.maePrice / atrAtEntry
    callbackBars := (h.maeBarIndex.map fun i => (i : ℤ) + 1).getD 0
    callbackVolumeRatio := callbackVolumeRatio df.rows h.maeBarIndex
    hitStopBeforeTp := h.hitStop && !h.hitTarget
    stopZoneTouches := h.stopZoneTouches }

/-- `find_tp_bar`: the first bar that touches the target. -/
def findTpBar (rows : List Row) (direction : DirectionWord) (target : ℚ) : Option ℕ :=
  rows.findIdx? fun r => decide (direction = .long ∧ target ≤ r.high ∨
    direction = .short ∧ r.low ≤ target)

/-- `price_efficiency_for` -/
def priceEfficiencyFor (outcome : Outcome) (tpBar : Option ℕ) (totalBarsHeld : ℤ) : ℚ :=
  if outcome.isWin then
    match tpBar with
    | none => 0
    | some i => if totalBarsHeld ≤ 0 then 0 else min ((i : ℚ) / totalBarsHeld) 1
  else 0

/-- The setup a record is traded with. -/
def SignalRecord.setup (rec : SignalRecord) (target : ℚ) : Setup :=
  ⟨rec.direction, rec.entryPrice, rec.stopPrice, target⟩

/-- `apply_trade_metrics`; a ratio that is not known leaves the one the record has. -/
def applyTradeMetrics (rec : SignalRecord) (df : Frame) : Except PyError SignalRecord := do
  match rec.tp1 with
  | none => .error (.typeError "'<=' not supported between instances of 'NoneType' and 'int'")
  | some target =>
    let m ← computeTradeMetrics df (rec.setup target) rec.atrAtEntry
    return { rec with
      mae := some m.mae
      mfe := some m.mfe
      maeAtrRatio := some m.maeAtrRatio
      mfeAtrRatio := some m.mfeAtrRatio
      callbackDepth := some m.callbackDepth
      callbackBars := some m.callbackBars
      callbackVolumeRatio := m.callbackVolumeRatio.or rec.callbackVolumeRatio
      hitStopBeforeTp := some m.hitStopBeforeTp
      stopZoneTouches := some m.stopZoneTouches
      priceEfficiency := match rec.outcome, rec.barsHeld with
        | some o, some held =>
          if 0 < held then some (priceEfficiencyFor o (findTpBar df.rows rec.direction target) held)
          else none
        | _, _ => none }

/-- The positions of a label. -/
def positions (df : Frame) (ts : ℤ) : List ℕ :=
  (df.rows.zipIdx.filter fun p => p.1.index = ts).map Prod.snd

/-- `_row_position`: the start of the slice where an ascending index repeats the label; elsewhere a
repeated label is located by a mask, which is no number. -/
def rowPosition (df : Frame) (ts : Option ℤ) : Except PyError (Option ℕ) :=
  match ts.map (positions df) with
  | none => .ok none
  | some [] => .ok none
  | some [i] => .ok (some i)
  | some (i :: _) =>
    if (df.rows.map Row.index).Pairwise (· ≤ ·) then .ok (some i)
    else .error (.typeError "only length-1 arrays can be converted to Python scalars")

/-- The outcome of a trade by the sign of its multiple. -/
def outcomeOf (rMultiple : ℚ) : Outcome :=
  if 0 < rMultiple then .tp1 else if rMultiple = 0 then .breakeven else .stoploss

/-- `stage2_backtest`, with the record as it leaves it. -/
def stage2Backtest (rec : SignalRecord) (forward : Frame) (tp1 : Option ℚ := none) :
    Except PyError (SignalRecord × Option Trade) := do
  match tp1.or rec.tp1 with
  | none => .error (.valueError "rec.tp1 is None and no explicit tp1 provided" [])
  | some target =>
    let asked := { rec with tp1 := rec.tp1.or (some target) }
    let trades ← simulateTrades forward (asked.setup target)
    match trades with
    | [] => return ({ asked with outcome := none, rMultiple := none, barsHeld := none }, none)
    | trade :: _ =>
      let entryPos ← rowPosition forward trade.entryTime
      let exitPos ← rowPosition forward trade.exitTime
      match entryPos, exitPos with
      | some entryPos, some exitPos =>
        refuse (exitPos < entryPos) "could not resolve entry/exit positions" []
        let scored ← applyTradeMetrics { asked with
          outcome := some (outcomeOf trade.rMultiple)
          rMultiple := some trade.rMultiple
          barsHeld := some ((exitPos : ℤ) - entryPos + 1) } (forward.slice entryPos (exitPos + 1))
        return (scored, some trade)
      | _, _ => .error (.valueError "could not resolve entry/exit positions" [])

/-- `_result_subscore` -/
def resultSubscore : Outcome → ℚ
  | .tp3 => 25
  | .tp2 => 20
  | .tp1 => 15
  | .breakeven => 8
  | .stoploss => 0
  | .expired => 0
  | .incomplete => 0

/-- `_rr_subscore` -/
def rrSubscore (netRr : Option ℚ) : ℚ :=
  match netRr with
  | none => 0
  | some r =>
    if 3 ≤ r then 10 else if 2 ≤ r then 7 else if 1 ≤ r then 4 else if 1 / 2 ≤ r then 2 else 0

/-- `_efficiency_subscore` -/
def efficiencySubscore (rec : SignalRecord) : ℚ :=
  match rec.priceEfficiency with
  | none => 0
  | some pe =>
    if 8 / 10 ≤ pe then 10 else if 1 / 2 ≤ pe then 6 else if 3 / 10 ≤ pe then 3 else 1

/-- `_stop_hit_penalty` -/
def stopHitPenalty (rec : SignalRecord) : ℚ := if rec.hitStopBeforeTp = some true then -5 else 0

/-- `stage3_score`, with the record as it leaves it. -/
def stage3Score (N : Numerics) (rec : SignalRecord) : SignalRecord :=
  { rec with stage3Score := some (match rec.outcome with
    | none => 0
    | some o => N.round 4 (resultSubscore o + rrSubscore rec.netRr + efficiencySubscore rec +
        stopHitPenalty rec)) }

/-- `_RESULT_TO_OUTCOME` -/
def resultToOutcome : ForwardOutcome → Outcome
  | .traded .win => .tp2
  | .traded .loss => .stoploss
  | .traded .scratch => .breakeven
  | .skipped => .incomplete

def resultText : ForwardOutcome → String
  | .traded .win => "win"
  | .traded .loss => "loss"
  | .traded .scratch => "scratch"
  | .skipped => "skipped"

/-- `_signal_record_from_backtest` -/
def signalRecordFromBacktest (src : BacktestSignalRecord) (symbol interval : String) :
    SignalRecord :=
  { symbol := symbol
    timeframe := interval
    patternType := if src.patternName = "" then "unknown" else src.patternName
    patternFamily := if src.family = "" then "XABCD" else src.family
    direction := src.direction
    grade := src.grade
    entryPrice := src.entryPrice
    stopPrice := src.stopLoss
    tp1 := src.tp1
    tp2 := 0
    tp3 := 0
    atrAtEntry := 2
    przWidthAtr := 3 / 10
    outcome := some (resultToOutcome src.result)
    netRr := some src.rMultiple
    barsHeld := src.barsHeld
    exitReason := some (resultText src.result) }

end Pyharmonics.Bench
