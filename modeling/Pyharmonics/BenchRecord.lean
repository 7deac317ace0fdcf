import Pyharmonics.Signals

/-! The row of the bench dataset. -/
namespace Pyharmonics.Bench

inductive Outcome
  | tp3 | tp2 | tp1 | breakeven | stoploss | expired | incomplete
  deriving DecidableEq

/-- A signal and what the pipeline stages have filled in of its trade and its scores. -/
structure SignalRecord where
  symbol : String
  timeframe : String
  patternType : String
  patternFamily : String
  direction : DirectionWord
  grade : Grade
  entryPrice : ℚ
  stopPrice : ℚ
  tp1 : Option ℚ
  tp2 : ℚ
  tp3 : ℚ
  atrAtEntry : ℚ
  przWidthAtr : ℚ
  entryOffsetAtr : ℚ := 0
  confluenceScore : ℚ := 0
  stabilityVerdict : String := ""
  outcome : Option Outcome := none
  netRr : Option ℚ := none
  /-- Not a field of the dataclass: the attribute the backtest stage adds. -/
  rMultiple : Option ℚ := none
  barsHeld : Option ℤ := none
  exitReason : Option String := none
  mae : Option ℚ := none
  mfe : Option ℚ := none
  maeAtrRatio : Option ℚ := none
  mfeAtrRatio : Option ℚ := none
  callbackDepth : Option ℚ := none
  callbackBars : Option ℤ := none
  callbackVolumeRatio : Option ℚ := none
  hitStopBeforeTp : Option Bool := none
  stopZoneTouches : Option ℤ := none
  priceEfficiency : Option ℚ := none
  weakValidity : Bool := false
  stage1Score : Option ℚ := none
  stage3Score : Option ℚ := none
  stage4aScore : Option ℚ := none
  stage4bScore : Option ℚ := none
  signalScore : Option ℚ := none
  configScore : Option ℚ := none
  benchTotal : Option ℚ := none
  deriving DecidableEq

/-- The outcomes that count as wins. -/
def Outcome.isWin (o : Outcome) : Bool := o = .tp1 || o = .tp2 || o = .tp3

/-- A record with the defaults of the tests and fixtures. -/
def emptyRecord : SignalRecord :=
  { symbol := "BTCUSDT", timeframe := "4h", patternType := "gartley", patternFamily := "XABCD"
    direction := .long, grade := .c, entryPrice := 100, stopPrice := 95, tp1 := some 110
    tp2 := 115, tp3 := 120, atrAtEntry := 2, przWidthAtr := 3 / 10 }

end Pyharmonics.Bench
