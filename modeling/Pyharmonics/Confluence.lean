import Pyharmonics.Validation

/-! Indicators of the engine and the confluence score they add up to. -/
namespace Pyharmonics

open Series

/-- `_pattern_base_score`: the bump of the first family the name starts with. -/
def patternBaseScore (w : Process) (patternName : String) : ℚ :=
  if patternName = "" then 0
  else
    let name := patternName.toLower.toList
    ((w.getTuning.patternBaseScore.entries.find? fun e => e.1.toList.isPrefixOf name).map
      Prod.snd).getD 0

/-- The true ranges of a frame; the first bar has no previous close. -/
def trueRanges : List Row → List ℚ
  | [] => []
  | r :: rs => (r.high - r.low) :: paired (fun before r =>
      max (r.high - r.low) (max |r.high - before.close| |r.low - before.close|)) (r :: rs)

/-- `compute_atr`: the smaller of the short and the long mean of the true range. -/
def computeAtr (w : Process) (df : Frame) : Except PyError ℚ := do
  let window := w.getTuning.atrWindow
  require (∀ c ∈ ["high", "low", "close"], c ∈ df.columns)
    "df must contain high/low/close columns"
  require (1 ≤ window) "window must be >= 1"
  require (2 ≤ df.length) "df must have at least 2 bars"
  let tr := trueRanges df.rows
  if (df.length : ℤ) < window then
    let recent := df.tail window
    return (maximum (recent.map Row.high) - minimum (recent.map Row.low)) / window
  else
    return min (mean (tail window tr)) (mean (tail w.getTuning.atrLongWindow tr))

/-- The smoothed gains and losses between closes. -/
def gainSeries (window : ℤ) (closes : List ℚ) : List ℚ :=
  ewm (1 / window) ((diff closes).map (max 0))

def lossSeries (window : ℤ) (closes : List ℚ) : List ℚ :=
  ewm (1 / window) ((diff closes).map fun d => -(min d 0))

/-- The RSI at each close; NA at the first one and where there is no loss. -/
def rsiSeries (window : ℤ) (closes : List ℚ) : List (Option ℚ) :=
  if closes = [] then []
  else none :: List.zipWith (fun gain loss =>
    if loss = 0 then none else some (100 - 100 / (1 + gain / loss)))
      (gainSeries window closes) (lossSeries window closes)

/-- `compute_rsi`: the RSI of the latest close. -/
def computeRsi (w : Process) (closes : List ℚ) : Except PyError ℚ := do
  let window := w.getTuning.rsiWindow
  require (1 ≤ window) "window must be >= 1"
  match (rsiSeries window closes).getLast? with
  | none => .error (.other "single positional indexer is out-of-bounds")
  | some (some value) => return value
  | some none => return if 0 < (gainSeries window closes).getLastD 0 then 100 else 50

/-- `htf_trend`: the order of two means on the resampled higher timeframe. -/
def htfTrend (N : Numerics) (w : Process) (df : Frame) (interval : String) :
    Except PyError Trend := do
  require (0 < interval.length) "interval must be a non-empty string"
  match w.getTuning.htfRule.get? interval with
  | none => return .unknown
  | some rule =>
    if "dts" ∉ df.columns then
      return .unknown
    refuse (N.unknownRule rule = true) ("Invalid frequency: " ++ rule) []
    let closes := N.resampleLast rule (df.rows.map fun r => (r.dts, r.close))
    if closes.length < 55 then
      return .unknown
    let emaFast := (ewmSpan 21 closes).getLastD 0
    let emaSlow := (ewmSpan 55 closes).getLastD 0
    return if emaSlow < emaFast then .bullish else if emaFast < emaSlow then .bearish else .unknown

/-- `_is_reversal_candle` -/
def isReversalCandle (row : Row) (bullish : Bool) : Bool :=
  let rng := row.high - row.low
  if rng ≤ 0 then false
  else if bullish then
    decide (row.openPrice < row.close ∧ 1 / 2 * rng ≤ min row.openPrice row.close - row.low)
  else decide (row.close < row.openPrice ∧ 1 / 2 * rng ≤ row.high - max row.openPrice row.close)

/-- The RSI rises over its last five values, both ends being known. -/
def rsiRising (series : List (Option ℚ)) : Bool :=
  let recent := tail 5 series
  if series.length < 2 ∨ recent.length < 2 then false
  else
    match recent.head?, recent.getLast? with
    | some (some first), some (some last) => decide (first < last)
    | _, _ => false

/-- `_rsi_zone_score` -/
def rsiZoneScore (rsi : ℚ) (bullish : Bool) (series : List (Option ℚ)) : ℚ :=
  let rising := rsiRising series
  if bullish then
    let zone : ℚ := if rsi ≤ 30 then 7 else if rsi ≤ 40 then 5 else if rsi ≤ 50 then 2 else 0
    let zone := if 0 < zone ∧ rising then zone + 3 else zone
    if 60 ≤ rsi then zone - 3 else zone
  else
    let zone : ℚ := if 70 ≤ rsi then 7 else if 60 ≤ rsi then 5 else if 50 ≤ rsi then 2 else 0
    let zone := if 0 < zone ∧ !rising then zone + 3 else zone
    if rsi ≤ 40 then zone - 3 else zone

/-- What the score reads of a divergence. -/
structure Divergence where
  name : Option String := none
  bullish : Option Bool := none
  deriving DecidableEq

abbrev Divergences := Dict String (List Divergence)

/-- A divergence of this kind on this side is listed under the indicator. -/
def Divergences.has (d : Divergences) (indicator kind : String) (bullish : Bool) : Bool :=
  (d.getD indicator []).any fun x => x.name = some kind && x.bullish = some bullish

/-- Latest indicator values the score reads besides the frame. -/
structure Momentum where
  rsiSeries : List (Option ℚ)
  macdLine : ℚ
  macdSignal : ℚ
  macdHistogram : ℚ
  macdHistogramPrev : ℚ
  deriving DecidableEq

/-- The factors of `confluence_score`, in the order they are entered. -/
def confluenceFactors (w : Process) (df : Frame) (last : Row) (c : Candidate) (atr rsi : ℚ)
    (trend : Trend) (d : Divergences) (paScale : ℚ) (m : Momentum) : List (String × ℚ) :=
  let t := w.getTuning
  let weight (key : String) (default : ℚ) : ℚ := t.confluenceWeights.getD key default
  let volMa := mean (tail t.volumeMaWindow (df.rows.map Row.volume))
  let pa : ℚ :=
    if isReversalCandle last c.bullish then
      if 0 < volMa ∧ 3 / 2 * volMa ≤ last.volume then 25 else 15
    else 0
  let htfWeight := weight "htf_trend" 25
  let htf : ℚ :=
    if trend = (if c.bullish then .bullish else .bearish) then htfWeight
    else if trend = .unknown then htfWeight * (4 / 10) else 0
  let rsiRegular := d.has "rsi" "Regular" c.bullish
  let rsiDiv : ℚ := if rsiRegular then 8 else if d.has "rsi" "Hidden" c.bullish then -5 else 0
  let rsiScore := rsiDiv + rsiZoneScore rsi c.bullish m.rsiSeries
  let rsiCap := weight "rsi" 15
  let recent := df.tail t.swingLookback
  let swing := if c.bullish then minimum (recent.map Row.low) else maximum (recent.map Row.high)
  let mid := (c.przLow + c.przHigh) / 2
  let macdRegular := d.has "macd" "Regular" c.bullish
  let macdScore : ℚ := if macdRegular then 10 else if d.has "macd" "Hidden" c.bullish then -5 else 0
  let macdCap := weight "macd" 10
  let macdZero : ℚ :=
    if c.bullish then (if m.macdLine < 0 then 8 else -4) else if 0 < m.macdLine then 8 else -4
  let dual : ℚ := if rsiRegular && macdRegular then 8 else if rsiRegular || macdRegular then 3 else 0
  let histogram : ℚ :=
    if c.bullish then
      if 0 < m.macdHistogram ∧ m.macdHistogramPrev < m.macdHistogram then 5 else 0
    else if m.macdHistogram < 0 ∧ m.macdHistogram < m.macdHistogramPrev then 5 else 0
  [("price_action", pa / 25 * weight "price_action" 25 * paScale),
    ("htf_trend", htf),
    ("rsi", max (-rsiCap) (min rsiCap (rsiScore / 15 * rsiCap))),
    ("structure", if |mid - swing| ≤ t.atrPrzSweep * atr then weight "structure" 15 else 0),
    ("macd", max (-macdCap) (min macdCap (macdScore / 10 * macdCap))),
    ("macd_zero", macdZero),
    ("dual_confirm", dual),
    ("histogram", histogram),
    ("funding", weight "funding" 10 * (1 / 2))]

/-- `confluence_score` under its contract; `last` is the last row of the frame. -/
def confluenceScore (w : Process) (df : Frame) (last : Row) (c : Candidate) (atr rsi : ℚ)
    (trend : Trend) (d : Divergences) (paScale : ℚ) (m : Momentum) :
    Except PyError (ℚ × List (String × ℚ)) := do
  require (0 < c.przLow ∧ 0 < c.przHigh) "candidate PRZ bounds must be positive"
  require ("close" ∈ df.columns ∧ "volume" ∈ df.columns)
    "df must contain close and volume columns"
  require (0 ≤ paScale ∧ paScale ≤ 2) "pa_scale must be in [0, 2]"
  require (0 ≤ rsi ∧ rsi ≤ 100) "rsi must be in [0, 100]"
  require (0 ≤ atr) "atr must be non-negative"
  let factors := confluenceFactors w df last c atr rsi trend d paScale m
  return ((factors.map Prod.snd).sum, factors)

end Pyharmonics
