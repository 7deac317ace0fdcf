import Pyharmonics.Frame
import Pyharmonics.TuningScope

/-! The macro layer: the daily trend's size multiplier and advice. -/
namespace Pyharmonics.Macro

open Series

structure MacroOverlay where
  sizeMult : ℚ := 1
  advice : String := ""
  macroDir : String := "unknown"
  signalVsMacro : String := "unknown"
  deviationPct : ℚ := 0
  ema200Slope20d : ℚ := 0
  deriving DecidableEq

/-- The overlay of a series that is missing or too short. -/
def dataShort (t : TuningFields) : MacroOverlay :=
  { sizeMult := t.multDataShort
    advice := "日线数据不足(<" ++ toString t.minDailyBars ++ "根),建议减仓 " ++
      Rounding.percentText t.multDataShort
    macroDir := "数据不足"
    signalVsMacro := "未知" }

/-- The multiplier, the advice and the label of a signal in its regime, in the order of the
branches. -/
def sizing (t : TuningFields) (long aligned extreme trendingUp trendingDown : Bool) :
    ℚ × String × String :=
  let ranging := !(trendingUp || trendingDown)
  if extreme && !aligned then
    (t.multExtremeInverse, "极端位逆势信号:反转概率高(回测84%胜率区),可正常/加仓 " ++
      Rounding.fixedText 1 t.multExtremeInverse ++ "x 但 TP 必须分批走", "逆势+极端")
  else if aligned && !ranging then
    (t.multTrendingAligned, "顺势信号(趋势市):可拿波段,尾仓看趋势延伸", "顺势")
  else if aligned && ranging then
    (t.multRangingAligned, "顺势信号(震荡市):仓位正常,关注区间上下沿", "顺势")
  else if !aligned && trendingUp && long then
    (t.multTrendingInverse, "逆势信号(上升趋势回踩):仓位6折,到 TP 就走、移动止损贴身", "逆势")
  else if !aligned && trendingDown && !long then
    (t.multTrendingInverse, "逆势信号(下降趋势反弹):仓位6折,到 TP 就走、移动止损贴身", "逆势")
  else (t.multRangingInverse, "震荡市逆势信号:反弹/回调单,仓位5折,到 TP 必须走", "逆势")

/-- The twenty-day slope of the long average, in percent. -/
def slopePct (ema200 : List ℚ) : ℚ :=
  match ema200.reverse[20]? with
  | some before => if 0 < before then (ema200.getLastD 0 / before - 1) * 100 else 0
  | none => 0

/-- `compute` -/
def compute (N : Numerics) (w : Process) (dailyClose : Option (List ℚ)) (signalDir : ℤ) :
    Except PyError MacroOverlay := do
  require (signalDir = -1 ∨ signalDir = 0 ∨ signalDir = 1) "signal_dir must be -1, 0, or +1"
  let t := w.getTuning.toTuningFields
  match dailyClose with
  | none => return dataShort t
  | some closes =>
    if (closes.length : ℤ) < t.minDailyBars then
      return dataShort t
    if signalDir ≠ 1 ∧ signalDir ≠ -1 then
      return { advice := "未知信号方向,按中性仓位处理" }
    let ema200 := ewmSpan 200 closes
    let price := closes.getLastD 0
    let v200 := ema200.getLastD 0
    let deviation := if 0 < v200 then (price / v200 - 1) * 100 else 0
    let slope := slopePct ema200
    let above := decide (v200 < price)
    let long := decide (signalDir = 1)
    let (sizeMult, advice, vsMacro) := sizing t long (long == above)
      (decide (t.extremeDeviationPct < |deviation|)) (decide (t.slopeTrendUp ≤ slope))
      (decide (slope ≤ t.slopeTrendDown))
    return {
      sizeMult := sizeMult
      advice := advice
      macroDir := if above then "牛市(价>EMA200)" else "熊市(价<EMA200)"
      signalVsMacro := vsMacro
      deviationPct := N.round 1 deviation
      ema200Slope20d := N.round 1 slope }

end Pyharmonics.Macro
