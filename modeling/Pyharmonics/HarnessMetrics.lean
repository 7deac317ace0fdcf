import Pyharmonics.BacktestHarness
import Pyharmonics.Library.Groups
import Pyharmonics.Pareto

/-! The metrics the harness aggregates its trades to. -/
namespace Pyharmonics.Harness

open Groups

/-- `_sharpe`: none under three trades or without variance. -/
def sharpe (N : Numerics) (rs : List ℚ) : Option ℚ :=
  if rs.length < 3 then none
  else
    let mean : ℚ := rs.sum / rs.length
    let var : ℚ := (rs.map fun r => (r - mean) ^ 2).sum / (rs.length - 1)
    if var ≤ 1 / 10 ^ 12 then none else some (mean / N.sqrt var)

/-- The deepest fall of the running total below its peak. -/
def maxDrawdown (rs : List ℚ) : ℚ :=
  (rs.foldl (fun (cum, peak, maxDd) r =>
    let cum := cum + r
    let peak := max peak cum
    (cum, peak, max maxDd (peak - cum))) ((0 : ℚ), (0 : ℚ), (0 : ℚ))).2.2

/-- `_calmar` -/
def calmar (rs : List ℚ) : Option ℚ :=
  if rs = [] ∨ maxDrawdown rs ≤ 1 / 10 ^ 9 then none else some (rs.sum / maxDrawdown rs)

/-- `_profit_factor` -/
def profitFactor (rs : List ℚ) : Option ℚ :=
  let wins := (rs.filter fun r => 0 < r).sum
  let losses := |(rs.filter fun r => r < 0).sum|
  if losses ≤ 1 / 10 ^ 9 then none else some (wins / losses)

/-- `t.macro_regime or "unknown"` -/
def regimeOf (t : Trade) : String := if t.macroRegime = "" then "unknown" else t.macroRegime

/-- What `aggregate` keeps of the trades of a regime. -/
def regimeBucket (N : Numerics) (trades : List Trade) : Loop.RegimeBucket ℚ :=
  { n := trades.length, sharpe := sharpe N (trades.map Trade.rMultiple) }

/-- The names of the metrics. -/
def metricNames : List String :=
  ["trades_count", "win_count", "loss_count", "scratch_count", "win_rate", "avg_r", "total_r",
    "total_weighted_r", "sharpe", "sortino", "calmar", "profit_factor", "max_dd_r",
    "avg_bars_held", "by_grade", "by_exit_reason", "by_regime"]

/-- `_empty_metrics` -/
def emptyMetrics : Loop.Metrics ℚ := { keys := metricNames, sharpe := some none }

/-- `aggregate`, as far as the search loop reads it. -/
def aggregate (N : Numerics) (trades : List Trade) : Loop.Metrics ℚ :=
  if trades = [] then emptyMetrics
  else
    let rs := trades.map Trade.rMultiple
    { keys := metricNames
      sharpe := some (sharpe N rs)
      calmar := calmar rs
      profitFactor := profitFactor rs
      tradesCount := trades.length
      byRegime := (groupBy regimeOf trades).mapValues (regimeBucket N) }

variable {N : Numerics} {trades : List Trade} {k : String}

@[simp] theorem aggregate_tradesCount : (aggregate N trades).tradesCount = trades.length := by
  unfold aggregate
  split_ifs with h
  · simp [emptyMetrics, h]
  · rfl

@[simp] theorem aggregate_fitness : (aggregate N trades).fitness = none := by
  unfold aggregate
  split_ifs <;> rfl

theorem aggregate_byRegime : (aggregate N trades).byRegime =
    (groupBy regimeOf trades).mapValues (regimeBucket N) := by
  unfold aggregate
  split_ifs with h
  · rw [h]
    rfl
  · rfl

end Pyharmonics.Harness
