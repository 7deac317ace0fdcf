import Pyharmonics.BacktestEngine
import Pyharmonics.HarnessMetrics

/-! The summary of the trades of a backtest. -/
namespace Pyharmonics.Backtest

/-- A profit factor as it is reported; `missing` is None. -/
inductive ProfitFactor
  | ratio (x : ℚ) | infinite | missing
  deriving DecidableEq

/-- `BacktestSummary` -/
structure BacktestSummary where
  totalSignals : ℕ := 0
  winCount : ℕ := 0
  lossCount : ℕ := 0
  scratchCount : ℕ := 0
  winRate : ℚ := 0
  avgRr : ℚ := 0
  profitFactor : ProfitFactor := .ratio 0
  maxDrawdown : ℚ := 0
  totalR : ℚ := 0
  trades : List Trade := []
  deriving DecidableEq

/-- The multiples of the trades with a result. -/
def multiplesOf (trades : List Trade) (result : TradeResult) : List ℚ :=
  (trades.filter fun t => t.result = result).map Trade.rMultiple

/-- `compute_metrics`; losses that add up to nothing are divided by. -/
def computeMetrics (trades : List Trade) : Except PyError BacktestSummary :=
  if trades = [] then .ok { trades := trades }
  else
    let rs := trades.map Trade.rMultiple
    let wins := multiplesOf trades .win
    let losses := (multiplesOf trades .loss).map fun r => |r|
    let summary : BacktestSummary :=
      { totalSignals := trades.length
        winCount := trades.countP (·.result = .win)
        lossCount := trades.countP (·.result = .loss)
        scratchCount := trades.countP (·.result = .scratch)
        winRate := trades.countP (·.result = .win) / trades.length
        avgRr := rs.sum / trades.length
        totalR := rs.sum
        maxDrawdown := Harness.maxDrawdown rs
        trades := trades }
    if losses = [] then .ok { summary with profitFactor := .infinite }
    else if losses.sum = 0 then .error (.other "ZeroDivisionError")
    else .ok { summary with profitFactor := .ratio (wins.sum / losses.sum) }

end Pyharmonics.Backtest
