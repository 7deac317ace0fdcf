import Pyharmonics.Frame
import Pyharmonics.Library.Causal

/-! The trend RSI strategy: EMA for direction, RSI for timing, ATR for the stop. -/
namespace Pyharmonics.RsiTrend

open Series

def rsiWindow : ℕ := 14

def atrWindow : ℕ := 14

def emaTrendSpan : ℕ := 200

def emaFastSpan : ℕ := 50

def warmupBars : ℕ := emaTrendSpan

/-- `RSI_ZONES.get(rsi_zone, RSI_ZONES["extreme"])`: oversold and overbought. -/
def rsiZone (name : String) : ℚ × ℚ := if name = "pullback" then (40, 60) else (30, 70)

inductive Direction
  | long | short
  deriving DecidableEq

structure StrategySignal where
  direction : Direction
  entryPrice : ℚ
  stopLoss : ℚ
  targetPrice : ℚ
  atr : ℚ
  rsi : ℚ
  time : String
  index : ℕ
  qualityScore : ℚ := 0
  deriving DecidableEq

/-- `df` as this strategy reads it; `dts` is a column of its own when there is one. -/
structure TrendFrame where
  hasDts : Bool
  rows : List Row

/-- `df.iloc[:k]` -/
def TrendFrame.take (df : TrendFrame) (k : ℕ) : TrendFrame := { df with rows := df.rows.take k }

/-- Time stamps as pandas reads and prints them; `none` is a value it does not take. -/
structure Clock where
  isoformat : ℤ → Option String
  str : ℤ → String

def emaSeries (closes : List ℚ) (span : ℕ) : List ℚ := ewmSpan span closes

/-- The move into each bar that has one before it. -/
def moves (part : ℚ → ℚ) (closes : List ℚ) : List ℚ := ewm (1 / rsiWindow) ((diff closes).map part)

/-- The RSI of smoothed moves; NA where there are none. -/
def rsiOf (gain loss : ℚ) : Option ℚ :=
  if loss = 0 then if 0 < gain then some 100 else none
  else some (100 - 100 / (1 + gain / loss))

/-- `rsi_series` -/
def rsiSeries (closes : List ℚ) : List (Option ℚ) :=
  if closes = [] then []
  else none :: List.zipWith rsiOf (moves (max 0) closes) (moves (fun d => -(min d 0)) closes)

/-- The true range of a bar after another; the first bar has its own range only. -/
def trueRange (before : Option ℚ) (r : Row) : ℚ :=
  match before with
  | none => r.high - r.low
  | some close => max (r.high - r.low) (max |r.high - close| |r.low - close|)

/-- `atr_series` -/
def atrSeries (rows : List Row) : List (Option ℚ) :=
  rollingMean atrWindow (List.zipWith trueRange (shift (rows.map Row.close)) rows)

/-- A row of the enriched frame. -/
structure Enriched where
  row : Row
  ema200 : ℚ
  ema50 : ℚ
  rsi : Option ℚ
  atr : Option ℚ
  deriving DecidableEq

/-- `enrich` -/
def enrich (rows : List Row) : List Enriched :=
  let closes := rows.map Row.close
  let averages := List.zipWith Prod.mk (emaSeries closes emaTrendSpan) (emaSeries closes emaFastSpan)
  let momentum := List.zipWith Prod.mk (rsiSeries closes) (atrSeries rows)
  List.zipWith (fun r e => ⟨r, e.1.1, e.1.2, e.2.1, e.2.2⟩) rows
    (List.zipWith Prod.mk averages momentum)

/-- `_bar_time` -/
def barTime (clock : Clock) (hasDts : Bool) (r : Row) : String :=
  if hasDts then (clock.isoformat r.dts).getD (clock.str r.dts)
  else (clock.isoformat r.index).getD ""

/-- `_signal_quality` -/
def signalQuality (direction : Direction) (close ema200 ema50 rsi rsiPrev atr openPrice : ℚ) : ℚ :=
  if atr ≤ 0 then 0
  else
    let displacement := |close - ema200| / atr
    let trendScore := min displacement 10 / 10 * 40
    let aligned := if direction = .long then ema50 < close else close < ema50
    let ema50Score : ℚ := if aligned then 20 else 0
    let rsiScore := min |rsi - rsiPrev| 20 / 20 * 25
    let colorOk := if direction = .long then openPrice < close else close < openPrice
    let colorScore : ℚ := if colorOk then 15 else 0
    min (trendScore + ema50Score + rsiScore + colorScore) 100

/-- The keyword arguments of `detect_signals`. -/
structure Options where
  useEma50 : Bool := false
  requireCandleColor : Bool := false
  atrMult : ℚ := 1
  rsiZone : String := "extreme"
  rewardRisk : ℚ := 2
  minQualityScore : ℚ := 0

/-- A bar whose indicators are known, with the RSI of the bar before it. -/
structure Bar where
  data : Enriched
  rsiNow : ℚ
  rsiPrev : ℚ
  atr : ℚ
  index : ℕ

/-- `data.iloc[i]` and `data["rsi"].iloc[i - 1]`, unless one of the values is NA. -/
def barAt (data : List Enriched) (i : ℕ) : Option Bar := do
  let row ← data[i]?
  let before ← data[i - 1]?
  let rsiNow ← row.rsi
  let rsiPrev ← before.rsi
  let atr ← row.atr
  return ⟨row, rsiNow, rsiPrev, atr, i⟩

/-- The signal of a bar with a stop on the right side of its close. -/
def Bar.signal (b : Bar) (time : String) (direction : Direction) (stop risk target : ℚ) :
    Option StrategySignal :=
  let close := b.data.row.close
  if risk ≤ 0 then none
  else some {
    direction := direction
    entryPrice := close
    stopLoss := stop
    targetPrice := target
    atr := b.atr
    rsi := b.rsiNow
    time := time
    index := b.index
    qualityScore := signalQuality direction close b.data.ema200 b.data.ema50 b.rsiNow b.rsiPrev
      b.atr b.data.row.openPrice }

/-- The body of the loop of `detect_signals`. -/
def Bar.entry (b : Bar) (o : Options) (time : String) : Option StrategySignal :=
  let zone := rsiZone o.rsiZone
  let r := b.data.row
  let crossedUp := b.rsiPrev ≤ zone.1 ∧ zone.1 < b.rsiNow
  let crossedDown := zone.2 ≤ b.rsiPrev ∧ b.rsiNow < zone.2
  if crossedUp ∧ b.data.ema200 < r.close then
    if o.useEma50 ∧ ¬ b.data.ema50 < r.close then none
    else if o.requireCandleColor ∧ ¬ r.openPrice < r.close then none
    else
      let stop := r.low - o.atrMult * b.atr
      let risk := r.close - stop
      b.signal time .long stop risk (r.close + o.rewardRisk * risk)
  else if crossedDown ∧ r.close < b.data.ema200 then
    if o.useEma50 ∧ ¬ r.close < b.data.ema50 then none
    else if o.requireCandleColor ∧ ¬ r.close < r.openPrice then none
    else
      let stop := r.high + o.atrMult * b.atr
      let risk := stop - r.close
      b.signal time .short stop risk (r.close - o.rewardRisk * risk)
  else none

/-- The signal found at position `i` of the enriched rows. -/
def signalAt (clock : Clock) (hasDts : Bool) (o : Options) (data : List Enriched) (i : ℕ) :
    Option StrategySignal := do
  let b ← barAt data i
  b.entry o (barTime clock hasDts b.data.row)

/-- `detect_signals` -/
def detectSignals (clock : Clock) (df : TrendFrame) (o : Options) : List StrategySignal :=
  if df.rows.length ≤ warmupBars then []
  else
    let data := enrich df.rows
    let minQuality := max 0 (min o.minQualityScore 100)
    ((List.range' warmupBars (data.length - warmupBars)).filterMap
      (signalAt clock df.hasDts o data)).filter fun s => minQuality ≤ s.qualityScore

variable {clock : Clock} {df : TrendFrame} {o : Options} {data : List Enriched} {i k : ℕ}
  {s : StrategySignal}

theorem causal_emaSeries (span : ℕ) : Causal fun closes => emaSeries closes span := Causal.ewm _

theorem causal_moves_tail (part : ℚ → ℚ) (k : ℕ) (closes : List ℚ) :
    moves part (closes.take (k + 1)) = (moves part closes).take k := by
  unfold moves
  rw [diff, paired_take, ← diff, List.map_take, Causal.ewm]

theorem causal_rsiSeries : Causal rsiSeries := by
  apply Causal.cons
  intro k closes
  simp only [causal_moves_tail, List.take_zipWith]

theorem causal_atrSeries : Causal atrSeries :=
  (Causal.rollingMean atrWindow).comp
    ((Causal.shift.comp (Causal.id.map Row.close)).zipWith trueRange Causal.id)

/-- No indicator of a bar reads a later bar. -/
theorem causal_enrich : Causal enrich := by
  have hc : Causal fun rows : List Row => rows.map Row.close := Causal.id.map Row.close
  have averages := ((causal_emaSeries emaTrendSpan).comp hc).zipWith Prod.mk
    ((causal_emaSeries emaFastSpan).comp hc)
  have momentum := (causal_rsiSeries.comp hc).zipWith Prod.mk causal_atrSeries
  exact Causal.id.zipWith _ (averages.zipWith Prod.mk momentum)

theorem barAt_congr {data' : List Enriched} (h : data[i]? = data'[i]?)
    (hp : data[i - 1]? = data'[i - 1]?) : barAt data i = barAt data' i := by
  unfold barAt
  rw [h, hp]

theorem barAt_index {b : Bar} (h : barAt data i = some b) : b.index = i := by
  simp only [barAt, Option.bind_eq_bind, Option.bind_eq_some_iff] at h
  obtain ⟨_, -, _, -, _, -, _, -, _, -, h⟩ := h
  rw [← Option.some.inj h]

theorem signal_index {b : Bar} {time : String} {d : Direction} {stop risk target : ℚ}
    (h : b.signal time d stop risk target = some s) : s.index = b.index := by
  unfold Bar.signal at h
  split_ifs at h with hr
  rw [← Option.some.inj h]

theorem entry_index {b : Bar} {time : String} (h : b.entry o time = some s) :
    s.index = b.index := by
  unfold Bar.entry at h
  simp only at h
  split_ifs at h
  · exact signal_index h
  · exact signal_index h

/-- A signal carries the position it was found at. -/
theorem signalAt_index {hasDts : Bool} (h : signalAt clock hasDts o data i = some s) :
    s.index = i := by
  obtain ⟨b, hb, h⟩ := Option.bind_eq_some_iff.mp h
  rw [entry_index h, barAt_index hb]

@[simp] theorem length_moves (part : ℚ → ℚ) (closes : List ℚ) :
    (moves part closes).length = closes.length - 1 := by
  simp [moves]

@[simp] theorem length_rsiSeries (closes : List ℚ) :
    (rsiSeries closes).length = closes.length := by
  unfold rsiSeries
  split_ifs with h
  · simp [h]
  · have := List.length_pos_iff.mpr h
    simp
    omega

@[simp] theorem length_enrich (rows : List Row) : (enrich rows).length = rows.length := by
  simp [enrich, emaSeries, ewmSpan, atrSeries]

/-- The bars before a cut are found the same whether or not the later ones are there. -/
theorem signalAt_take {hasDts : Bool} (rows : List Row) (h : i < k) :
    signalAt clock hasDts o (enrich (rows.take k)) i = signalAt clock hasDts o (enrich rows) i := by
  unfold signalAt
  rw [barAt_congr (causal_enrich.getElem? h) (causal_enrich.getElem? (by omega))]

/-- What the loop finds before its quality filter. -/
theorem scan_take (hasDts : Bool) (rows : List Row) (h : k ≤ rows.length) :
    (List.range' warmupBars (k - warmupBars)).filterMap
        (signalAt clock hasDts o (enrich (rows.take k))) =
      ((List.range' warmupBars (rows.length - warmupBars)).filterMap
        (signalAt clock hasDts o (enrich rows))).filter fun s => s.index < k :=
  filterMap_range'_cut (fun _ _ => signalAt_index) h fun _ hi => signalAt_take rows hi

theorem mem_detectSignals_index (h : s ∈ detectSignals clock df o) : s.index < df.rows.length := by
  unfold detectSignals at h
  split_ifs at h with hw
  · simp at h
  · obtain ⟨i, hi, hs⟩ := List.mem_filterMap.mp (List.mem_filter.mp h).1
    have := (List.mem_range'_1.mp hi).2
    rw [length_enrich] at this
    rw [signalAt_index hs]
    omega

theorem mem_detectSignals_warm (h : s ∈ detectSignals clock df o) : warmupBars ≤ s.index := by
  unfold detectSignals at h
  split_ifs at h with hw
  · simp at h
  · obtain ⟨i, hi, hs⟩ := List.mem_filterMap.mp (List.mem_filter.mp h).1
    rw [signalAt_index hs]
    exact (List.mem_range'_1.mp hi).1

/-- The signals of the first `k` bars are the signals before bar `k` of the whole frame. -/
theorem detectSignals_take (clock : Clock) (df : TrendFrame) (o : Options) (k : ℕ) :
    detectSignals clock (df.take k) o =
      (detectSignals clock df o).filter fun s => s.index < k := by
  obtain hk | hk := le_total df.rows.length k
  · have hdf : df.take k = df := by rw [TrendFrame.take, List.take_of_length_le hk]
    rw [hdf]
    symm
    apply List.filter_eq_self.mpr
    intro s hs
    have := mem_detectSignals_index hs
    exact decide_eq_true (by omega)
  · obtain hw | hw := le_or_gt k warmupBars
    · have hshort : (df.take k).rows.length ≤ warmupBars := by simp [TrendFrame.take, hw]
      rw [detectSignals, if_pos hshort]
      symm
      apply List.filter_eq_nil_iff.mpr
      intro s hs
      have := mem_detectSignals_warm hs
      simp only [decide_eq_true_eq]
      omega
    · have hlen : (df.take k).rows.length = k := by simp [TrendFrame.take, hk]
      rw [detectSignals, detectSignals, if_neg (by omega), if_neg (by omega)]
      simp only [length_enrich, hlen]
      simp only [TrendFrame.take, scan_take df.hasDts df.rows hk, List.filter_filter, Bool.and_comm]

end Pyharmonics.RsiTrend
