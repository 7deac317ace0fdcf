import Pyharmonics.BacktestMetrics
import Pyharmonics.RsiTrend

/-! The backtest of the trend RSI strategy: one signal from its bar to its exit, and the run over
all signals with one position at a time. -/
namespace Pyharmonics.Backtest

open RsiTrend

inductive ExitReason
  | stopLoss | target | partialTarget | rsiExtreme | trendFlip | endOfData
  deriving DecidableEq

/-- A part of a position that is closed before the rest, as a fraction of the original one. -/
structure PartialExit where
  fraction : ℚ
  price : ℚ
  rMultiple : ℚ
  reason : ExitReason
  time : String
  deriving DecidableEq

/-- A trade of the RSI strategy. -/
structure StrategyTrade where
  direction : Direction
  entryPrice : ℚ
  entryTime : String
  stopLoss : ℚ
  targetPrice : ℚ
  exitPrice : ℚ
  exitTime : String
  exitReason : ExitReason
  rMultiple : ℚ
  barsHeld : ℤ
  partials : List PartialExit := []
  deriving DecidableEq

/-- `BacktestResult` -/
structure BacktestResult where
  totalSignals : ℕ
  tradesCount : ℕ
  winCount : ℕ
  lossCount : ℕ
  scratchCount : ℕ
  winRate : ℚ
  avgR : ℚ
  totalR : ℚ
  profitFactor : ProfitFactor
  maxDrawdownR : ℚ
  avgBarsHeld : ℚ
  trades : List StrategyTrade

/-- What `run_backtest` makes of the trades of its signals. -/
def aggregateTrades (signals : List StrategySignal) (trades : List StrategyTrade) :
    BacktestResult :=
  let rs := trades.map StrategyTrade.rMultiple
  let wins := rs.filter fun r => 0 < r
  let losses := rs.filter fun r => r < 0
  let grossWin := wins.sum
  let grossLoss := |losses.sum|
  let n := trades.length
  { totalSignals := signals.length
    tradesCount := n
    winCount := wins.length
    lossCount := losses.length
    scratchCount := rs.count 0
    winRate := if n = 0 then 0 else wins.length / n
    avgR := if n = 0 then 0 else rs.sum / n
    totalR := rs.sum
    profitFactor :=
      if 0 < grossLoss then .ratio (grossWin / grossLoss)
      else if grossWin = 0 then .missing else .infinite
    maxDrawdownR := Harness.maxDrawdown rs
    avgBarsHeld := if n = 0 then 0 else (trades.map fun t => (t.barsHeld : ℚ)).sum / n
    trades := trades }

end Pyharmonics.Backtest

namespace Pyharmonics.RsiTrend

open Backtest

def overbought : ℚ := 70

def oversold : ℚ := 30

/-- `_r_multiple` -/
def rMultiple (direction : Direction) (entry initialStop price : ℚ) : ℚ :=
  let risk := |entry - initialStop|
  if risk ≤ 0 then 0
  else if direction = .long then (price - entry) / risk
  else (entry - price) / risk

/-- The keyword arguments of `run_backtest`. -/
structure ExitMode where
  partialMode : Bool := false
  trailingStop : Bool := false

/-- What the loop of `_simulate_one` keeps of a position. -/
structure Holding where
  remaining : ℚ := 1
  realizedR : ℚ := 0
  stop : ℚ
  t1Done : Bool := false
  rsiDone : Bool := false
  trailingActive : Bool := false
  partials : List PartialExit := []
  deriving DecidableEq

/-- Where the loop of `_simulate_one` leaves a position. -/
structure Exit where
  price : ℚ
  time : String
  reason : ExitReason
  index : ℕ

/-- The multiple of a price for a signal. -/
def StrategySignal.r (s : StrategySignal) (price : ℚ) : ℚ :=
  rMultiple s.direction s.entryPrice s.stopLoss price

/-- The rest of a position is closed at a price. -/
def Holding.close (s : StrategySignal) (price : ℚ) (h : Holding) : Holding :=
  { h with realizedR := h.realizedR + h.remaining * s.r price, remaining := 0 }

/-- Half of the rest is closed at a price. -/
def Holding.reduce (s : StrategySignal) (price : ℚ) (reason : ExitReason) (time : String)
    (h : Holding) : Holding :=
  let half := h.remaining * (1 / 2)
  let r := s.r price
  { h with
    realizedR := h.realizedR + half * r
    partials := h.partials ++ [⟨half, price, half * r, reason, time⟩]
    remaining := h.remaining - half }

def stopHit (s : StrategySignal) (stop : ℚ) (row : Row) : Bool :=
  if s.direction = .long then decide (row.low ≤ stop) else decide (stop ≤ row.high)

def targetHit (s : StrategySignal) (row : Row) : Bool :=
  if s.direction = .long then decide (s.targetPrice ≤ row.high)
  else decide (row.low ≤ s.targetPrice)

/-- The first target in `partial_mode`: half of the position, and the stop to breakeven. -/
def Holding.takeTarget (s : StrategySignal) (m : ExitMode) (time : String) (h : Holding) :
    Holding :=
  { h.reduce s s.targetPrice .partialTarget time with
    t1Done := true, stop := s.entryPrice, trailingActive := m.trailingStop }

/-- The RSI is back in the zone the direction profits from. -/
def extreme (s : StrategySignal) (bar : Enriched) : Bool :=
  bar.rsi.any fun rsi =>
    if s.direction = .long then decide (overbought < rsi) else decide (rsi < oversold)

/-- Half of the rest is closed when the RSI is back in the extreme zone. -/
def Holding.takeExtreme (s : StrategySignal) (m : ExitMode) (bar : Enriched) (time : String)
    (h : Holding) : Holding :=
  if m.partialMode ∧ h.t1Done ∧ ¬ h.rsiDone ∧ extreme s bar then
    { h.reduce s bar.row.close .rsiExtreme time with rsiDone := true }
  else h

/-- The stop follows the close by one ATR. -/
def Holding.trail (s : StrategySignal) (bar : Enriched) (h : Holding) : Holding :=
  match bar.atr with
  | none => h
  | some atr =>
    if ¬ h.trailingActive then h
    else if s.direction = .long then
      if h.stop < bar.row.close - atr then { h with stop := bar.row.close - atr } else h
    else if bar.row.close + atr < h.stop then { h with stop := bar.row.close + atr }
    else h

/-- The close is on the other side of EMA200. -/
def flipped (s : StrategySignal) (bar : Enriched) : Bool :=
  if s.direction = .long then decide (bar.row.close < bar.ema200)
  else decide (bar.ema200 < bar.row.close)

/-- What a bar behind the signal bar that does not end the position before its close makes of it. -/
def Holding.advance (s : StrategySignal) (m : ExitMode) (bar : Enriched) (time : String)
    (h : Holding) : Holding :=
  let h := if targetHit s bar.row ∧ ¬ h.t1Done then h.takeTarget s m time else h
  (h.takeExtreme s m bar time).trail s bar

/-- A bar behind the signal bar: the stop, the first target, the reductions, the trend. -/
def Holding.next (s : StrategySignal) (m : ExitMode) (i : ℕ) (bar : Enriched) (time : String)
    (h : Holding) : Holding × Option Exit :=
  if stopHit s h.stop bar.row then (h.close s h.stop, some ⟨h.stop, time, .stopLoss, i⟩)
  else if targetHit s bar.row ∧ ¬ h.t1Done ∧ ¬ m.partialMode then
    (h.close s s.targetPrice, some ⟨s.targetPrice, time, .target, i⟩)
  else
    let h := h.advance s m bar time
    if flipped s bar then
      (h.close s bar.row.close, some ⟨bar.row.close, time, .trendFlip, i⟩)
    else (h, none)

/-- The loop over the bars behind the signal bar, from position `i` on. -/
def holdBars (barTime : Row → String) (s : StrategySignal) (m : ExitMode) :
    List Enriched → ℕ → Holding → Holding × Option Exit
  | [], _, h => (h, none)
  | bar :: bars, i, h =>
    match h.next s m i bar (barTime bar.row) with
    | (h, some exit) => (h, some exit)
    | (h, none) => holdBars barTime s m bars (i + 1) h

def Holding.start (s : StrategySignal) : Holding := { stop := s.stopLoss }

/-- The loop of `_simulate_one`; on the signal bar only the stop is looked at. -/
def holdFrom (barTime : Row → String) (s : StrategySignal) (m : ExitMode) :
    List Enriched → Holding × Option Exit
  | [] => (.start s, none)
  | first :: bars =>
    if stopHit s s.stopLoss first.row then
      ((Holding.start s).close s s.stopLoss,
        some ⟨s.stopLoss, barTime first.row, .stopLoss, s.index⟩)
    else holdBars barTime s m bars (s.index + 1) (.start s)

/-- The trade of a position that was left. -/
def tradeOf (s : StrategySignal) (h : Holding) (exit : Exit) : StrategyTrade :=
  { direction := s.direction
    entryPrice := s.entryPrice
    entryTime := s.time
    stopLoss := s.stopLoss
    targetPrice := s.targetPrice
    exitPrice := exit.price
    exitTime := exit.time
    exitReason := exit.reason
    rMultiple := h.realizedR
    barsHeld := (exit.index : ℤ) - s.index
    partials := h.partials }

/-- `_simulate_one`; what is left at the end of the data is closed at the last close. -/
def simulateOne (data : List Enriched) (s : StrategySignal) (m : ExitMode)
    (barTime : Row → String) : Except PyError StrategyTrade :=
  let (h, exit) := holdFrom barTime s m (data.drop s.index)
  if 0 < h.remaining then
    match data.getLast? with
    | none => .error (.other "single positional indexer is out-of-bounds")
    | some last =>
      let exit : Exit := ⟨last.row.close, barTime last.row, .endOfData, data.length - 1⟩
      .ok (tradeOf s (h.close s last.row.close) exit)
  else .ok (tradeOf s h (exit.getD ⟨s.entryPrice, s.time, .endOfData, s.index⟩))

/-- The loop of `run_backtest`: a signal up to the last bar of an open trade is skipped. -/
def takeSignals (data : List Enriched) (m : ExitMode) (barTime : Row → String) :
    List StrategySignal → ℤ → Except PyError (List StrategyTrade)
  | [], _ => .ok []
  | s :: signals, openUntil =>
    if (s.index : ℤ) ≤ openUntil then takeSignals data m barTime signals openUntil
    else do
      let trade ← simulateOne data s m barTime
      let rest ← takeSignals data m barTime signals (s.index + trade.barsHeld)
      return trade :: rest

/-- `run_backtest` -/
def runBacktest (clock : Clock) (df : TrendFrame) (signals : List StrategySignal) (m : ExitMode) :
    Except PyError BacktestResult := do
  let trades ← takeSignals (enrich df.rows) m (barTime clock df.hasDts) signals (-1)
  return aggregateTrades signals trades

variable {data bars : List Enriched} {s : StrategySignal} {m : ExitMode} {barTime : Row → String}
  {h h' : Holding} {e : Exit} {bar last : Enriched} {i : ℕ} {time : String} {t : StrategyTrade}
  {price : ℚ}

@[simp] theorem close_remaining : (h.close s price).remaining = 0 := rfl

@[simp] theorem close_partials : (h.close s price).partials = h.partials := rfl

@[simp] theorem close_realizedR :
    (h.close s price).realizedR = h.realizedR + h.remaining * s.r price := rfl

/-- A bar that leaves a position open was not at the stop. -/
theorem next_none (hn : h.next s m i bar time = (h', none)) :
    stopHit s h.stop bar.row = false ∧ h' = h.advance s m bar time := by
  unfold Holding.next at hn
  dsimp only at hn
  split_ifs at hn with hstop htarget hflip
  · cases hn
  · cases hn
  · cases hn
  · exact ⟨by simpa using hstop, (Prod.mk.inj hn).1.symm⟩

/-- A bar ends a position at its stop, at the target, or behind the reductions at its close. -/
theorem next_some (hn : h.next s m i bar time = (h', some e)) : e.index = i ∧
    ((e.price = h.stop ∧ h' = h.close s e.price) ∨
      (stopHit s h.stop bar.row = false ∧ h.t1Done = false ∧ e.price = s.targetPrice ∧
        h' = h.close s e.price) ∨
      (stopHit s h.stop bar.row = false ∧ e.price = bar.row.close ∧
        h' = (h.advance s m bar time).close s e.price)) := by
  unfold Holding.next at hn
  dsimp only at hn
  split_ifs at hn with hstop htarget hflip
  · obtain ⟨rfl, he⟩ := Prod.mk.inj hn
    obtain rfl := Option.some.inj he
    exact ⟨rfl, Or.inl ⟨rfl, rfl⟩⟩
  · obtain ⟨rfl, he⟩ := Prod.mk.inj hn
    obtain rfl := Option.some.inj he
    exact ⟨rfl, Or.inr (Or.inl ⟨by simpa using hstop, by simpa using htarget.2.1, rfl, rfl⟩)⟩
  · obtain ⟨rfl, he⟩ := Prod.mk.inj hn
    obtain rfl := Option.some.inj he
    exact ⟨rfl, Or.inr (Or.inr ⟨by simpa using hstop, rfl, rfl⟩)⟩
  · cases hn

/-- What every bar preserves holds of the position behind the last bar, and what every exit gives
holds of the exit; `done` are the bars before. -/
theorem holdBars_rule {P : List Enriched → Holding → Prop} {Q : Holding → Exit → Prop}
    (done : List Enriched)
    (hnext : ∀ done bar h h' i, bar ∈ bars → P done h →
      h.next s m i bar (barTime bar.row) = (h', none) → P (done ++ [bar]) h')
    (hexit : ∀ done bar h h' i e, bar ∈ bars → P done h →
      h.next s m i bar (barTime bar.row) = (h', some e) → Q h' e)
    (hP : P done h) :
    (holdBars barTime s m bars i h = (h', none) → P (done ++ bars) h') ∧
      ∀ e, holdBars barTime s m bars i h = (h', some e) → Q h' e := by
  induction bars generalizing i h done with
  | nil =>
    constructor
    · intro hr
      obtain ⟨rfl, -⟩ := Prod.mk.inj hr
      rwa [List.append_nil]
    · intro e hr
      cases (Prod.mk.inj hr).2
  | cons bar bars ih =>
    have hnext' := fun done b h h' i hb => hnext done b h h' i (List.mem_cons_of_mem bar hb)
    have hexit' := fun done b h h' i e hb => hexit done b h h' i e (List.mem_cons_of_mem bar hb)
    rw [List.append_cons, holdBars]
    cases hn : h.next s m i bar (barTime bar.row) with
    | mk p exit =>
      cases exit with
      | none =>
        have hp := hnext done bar h p i (List.mem_cons_self ..) hP hn
        exact ih _ hnext' hexit' hp
      | some x =>
        constructor
        · intro hr
          cases (Prod.mk.inj hr).2
        · intro e hr
          obtain ⟨rfl, hx⟩ := Prod.mk.inj hr
          obtain rfl := Option.some.inj hx
          exact hexit done bar h p i x (List.mem_cons_self ..) hP hn

theorem takeExtreme_rule {I : Holding → Prop} (hI : I h)
    (hextreme : h.t1Done = true → h.rsiDone = false →
      I { h.reduce s bar.row.close .rsiExtreme time with rsiDone := true }) :
    I (h.takeExtreme s m bar time) := by
  unfold Holding.takeExtreme
  split_ifs with hx
  · exact hextreme hx.2.1 (by simpa using hx.2.2.1)
  · exact hI

/-- The reductions of a bar preserve what the target, the extreme RSI and the trailing preserve. -/
theorem advance_rule {I : Holding → Prop}
    (htarget : targetHit s bar.row = true → h.t1Done = false → I (h.takeTarget s m time))
    (hextreme : ∀ q, I q → q.t1Done = true → q.rsiDone = false →
      I { q.reduce s bar.row.close .rsiExtreme time with rsiDone := true })
    (htrail : ∀ q, I q → I (q.trail s bar)) (hI : I h) : I (h.advance s m bar time) := by
  have hfirst : I (if targetHit s bar.row ∧ ¬ h.t1Done then h.takeTarget s m time else h) := by
    split_ifs with ht
    · exact htarget ht.1 (by simpa using ht.2)
    · exact hI
  exact htrail _ (takeExtreme_rule hfirst (hextreme _ hfirst))

/-- Trailing moves nothing but the stop. -/
theorem trail_eq (s : StrategySignal) (bar : Enriched) (h : Holding) :
    h.trail s bar = { h with stop := (h.trail s bar).stop } := by
  unfold Holding.trail
  split
  · rfl
  · split_ifs <;> rfl

theorem reduce_remaining (s : StrategySignal) (price : ℚ) (reason : ExitReason) (time : String)
    (h : Holding) : (h.reduce s price reason time).remaining = h.remaining / 2 := by
  unfold Holding.reduce
  dsimp only
  ring

theorem advance_remaining_pos (hr : 0 < h.remaining) : 0 < (h.advance s m bar time).remaining := by
  have hhalf : ∀ q : Holding, 0 < q.remaining → ∀ price reason,
      0 < (q.reduce s price reason time).remaining := by
    intro q hq price reason
    rw [reduce_remaining]
    exact half_pos hq
  refine advance_rule (I := fun q => 0 < q.remaining) ?_ ?_ ?_ hr
  · intro _ _
    exact hhalf h hr s.targetPrice .partialTarget
  · intro q hq _ _
    exact hhalf q hq bar.row.close .rsiExtreme
  · intro q hq
    rw [trail_eq]
    exact hq

/-- The loop behind the signal bar leaves nothing of a position it exits, and something of one it
does not. -/
theorem holdBars_remaining (hr : 0 < h.remaining) :
    (holdBars barTime s m bars i h = (h', none) → 0 < h'.remaining) ∧
      ∀ e, holdBars barTime s m bars i h = (h', some e) → h'.remaining = 0 := by
  refine holdBars_rule (P := fun _ q => 0 < q.remaining) (Q := fun q _ => q.remaining = 0)
    [] ?_ ?_ hr
  · intro _ bar q q' i _ hq hn
    rw [(next_none hn).2]
    exact advance_remaining_pos hq
  · intro _ bar q q' i e _ _ hn
    obtain ⟨-, ⟨-, rfl⟩ | ⟨-, -, -, rfl⟩ | ⟨-, -, rfl⟩⟩ := next_some hn
    · rfl
    · rfl
    · rfl

theorem holdFrom_remaining :
    (holdFrom barTime s m bars = (h', none) → 0 < h'.remaining) ∧
      ∀ e, holdFrom barTime s m bars = (h', some e) → h'.remaining = 0 := by
  unfold holdFrom
  split
  · refine ⟨fun hr => ?_, fun e hr => ?_⟩
    · obtain ⟨rfl, -⟩ := Prod.mk.inj hr
      exact one_pos
    · cases (Prod.mk.inj hr).2
  · split_ifs
    · refine ⟨fun hr => ?_, fun e hr => ?_⟩
      · cases (Prod.mk.inj hr).2
      · obtain ⟨rfl, -⟩ := Prod.mk.inj hr
        rfl
    · exact holdBars_remaining one_pos

/-- A trade is left in the loop, or closed at the last close. -/
theorem simulateOne_cases (ht : simulateOne data s m barTime = .ok t) :
    (∃ h e, holdFrom barTime s m (data.drop s.index) = (h, some e) ∧ t = tradeOf s h e) ∨
    ∃ h last, holdFrom barTime s m (data.drop s.index) = (h, none) ∧ data.getLast? = some last ∧
      t = tradeOf s (h.close s last.row.close)
        ⟨last.row.close, barTime last.row, .endOfData, data.length - 1⟩ := by
  unfold simulateOne at ht
  cases hrun : holdFrom barTime s m (data.drop s.index) with
  | mk h exit =>
    simp only [hrun] at ht
    cases exit with
    | none =>
      rw [if_pos (holdFrom_remaining.1 hrun)] at ht
      cases hlast : data.getLast? with
      | none =>
        rw [hlast] at ht
        cases ht
      | some last =>
        rw [hlast] at ht
        exact Or.inr ⟨h, last, rfl, rfl, (Except.ok.inj ht).symm⟩
    | some e =>
      rw [if_neg (holdFrom_remaining.2 e hrun ▸ lt_irrefl _)] at ht
      exact Or.inl ⟨h, e, rfl, (Except.ok.inj ht).symm⟩

/-- A trade comes of every signal, unless there is no bar at all. -/
theorem simulateOne_returns : Returns (simulateOne data s m barTime) ↔ data ≠ [] := by
  constructor
  · rintro ⟨t, ht⟩ rfl
    rcases simulateOne_cases ht with ⟨h, e, hrun, -⟩ | ⟨h, last, -, hlast, -⟩
    · rw [List.drop_nil] at hrun
      cases (Prod.mk.inj hrun).2
    · cases hlast
  · intro hne
    obtain ⟨last, hlast⟩ := List.getLast?_isSome.mpr hne |> Option.isSome_iff_exists.mp
    unfold simulateOne
    simp only [hlast]
    split_ifs
    · exact returns_ok
    · exact returns_ok

end Pyharmonics.RsiTrend
