import Pyharmonics.RsiBacktest
import Pyharmonics.WalkForward

/-! The profit factors of the three backtests. -/
namespace Pyharmonics.Backtest

open Groups RsiTrend

/-- The trades of one grade or one family. -/
structure RecordBucket where
  count : ℕ
  wins : ℕ
  losses : ℕ
  r : ℚ
  deriving DecidableEq

/-- What `aggregate_records` reports. -/
structure RecordSummary where
  totalSignals : ℕ
  skippedSignals : ℕ
  decisions : ℕ
  wins : ℕ
  losses : ℕ
  scratches : ℕ
  winRate : ℚ
  avgR : ℚ
  totalR : ℚ
  profitFactor : ProfitFactor
  byGrade : Dict Grade RecordBucket
  byFamily : Dict String RecordBucket

def recordBucket (records : List BacktestSignalRecord) : RecordBucket where
  count := records.length
  wins := records.countP (·.result = .traded .win)
  losses := records.countP (·.result = .traded .loss)
  r := (records.map (·.rMultiple)).sum

/-- The multiples of the records with a result. -/
def recordMultiples (records : List BacktestSignalRecord) (result : TradeResult) : List ℚ :=
  (records.filter fun r => r.result = .traded result).map (·.rMultiple)

/-- `aggregate_records` -/
def aggregateRecords (records : List BacktestSignalRecord) : RecordSummary :=
  let totalR := (records.map (·.rMultiple)).sum
  let winR := (recordMultiples records .win).sum
  let lossR := (recordMultiples records .loss).sum
  let wins := records.countP (·.result = .traded .win)
  let losses := records.countP (·.result = .traded .loss)
  let decided := wins + losses
  { totalSignals := records.length
    skippedSignals := records.countP (·.result = .skipped)
    decisions := decided
    wins := wins
    losses := losses
    scratches := records.countP (·.result = .traded .scratch)
    winRate := if decided = 0 then 0 else wins / decided
    avgR := if records = [] then 0 else totalR / records.length
    totalR := totalR
    profitFactor :=
      if losses = 0 then if 0 < wins then .infinite else .ratio 0
      else if lossR = 0 then if 0 < wins then .infinite else .ratio 0
      else .ratio (winR / |lossR|)
    byGrade := (groupBy (·.grade) records).mapValues recordBucket
    byFamily := (groupBy (·.family) records).mapValues recordBucket }

/-- The label of a result is the sign of its multiple. -/
def Signed : TradeResult → ℚ → Prop
  | .win, r => 0 < r
  | .loss, r => r < 0
  | .scratch, r => r = 0

/-- The same results, each as the one of the three backtests keeps them. -/
structure SameResults (trades : List Trade) (records : List BacktestSignalRecord)
    (strategyTrades : List StrategyTrade) : Prop where
  records : records.map (fun r => (r.result, r.rMultiple)) =
    trades.map fun t => (.traded t.result, t.rMultiple)
  strategyTrades : strategyTrades.map StrategyTrade.rMultiple = trades.map Trade.rMultiple

variable {trades : List Trade} {records : List BacktestSignalRecord}
  {strategyTrades : List StrategyTrade} {signals : List StrategySignal} {rs : List ℚ} {r : ℚ}
  {result : TradeResult}

/-- Gross wins over gross losses, infinite without a loss. -/
def grossRatio (rs : List ℚ) : ProfitFactor :=
  if rs.filter (· < 0) = [] then .infinite
  else .ratio ((rs.filter (0 < ·)).sum / |(rs.filter (· < 0)).sum|)

theorem Signed.win_iff (h : Signed result r) : result = .win ↔ 0 < r := by
  cases result with
  | win => exact iff_of_true rfl h
  | loss => exact iff_of_false nofun (not_lt.mpr (le_of_lt h))
  | scratch => exact iff_of_false nofun (not_lt.mpr (le_of_eq h))

theorem Signed.loss_iff (h : Signed result r) : result = .loss ↔ r < 0 := by
  cases result with
  | win => exact iff_of_false nofun (not_lt.mpr (le_of_lt h))
  | loss => exact iff_of_true rfl h
  | scratch => exact iff_of_false nofun (not_lt.mpr (le_of_eq h.symm))

theorem Signed.scratch_iff (h : Signed result r) : result = .scratch ↔ r = 0 := by
  cases result with
  | win => exact iff_of_false nofun (ne_of_gt h)
  | loss => exact iff_of_false nofun (ne_of_lt h)
  | scratch => exact iff_of_true rfl h

theorem multiplesOf_win (h : ∀ t ∈ trades, Signed t.result t.rMultiple) :
    multiplesOf trades .win = (trades.map Trade.rMultiple).filter (0 < ·) := by
  rw [multiplesOf, List.filter_map]
  congr 1
  exact List.filter_congr fun t ht => by simp [(h t ht).win_iff]

theorem multiplesOf_loss (h : ∀ t ∈ trades, Signed t.result t.rMultiple) :
    multiplesOf trades .loss = (trades.map Trade.rMultiple).filter (· < 0) := by
  rw [multiplesOf, List.filter_map]
  congr 1
  exact List.filter_congr fun t ht => by simp [(h t ht).loss_iff]

theorem recordMultiples_eq (h : SameResults trades records strategyTrades) :
    recordMultiples records result = multiplesOf trades result := by
  have hfilter := congrArg (fun l => (l.filter fun p => p.1 = .traded result).map Prod.snd)
    h.records
  simp only [List.filter_map, List.map_map] at hfilter
  simpa [recordMultiples, multiplesOf, Function.comp_def] using hfilter

theorem countP_records : records.countP (·.result = .traded result) =
    (recordMultiples records result).length := by
  rw [List.countP_eq_length_filter, recordMultiples, List.length_map]

theorem losses_neg : ∀ x ∈ rs.filter (· < 0), x < 0 := by
  intro x hx
  simpa using (List.mem_filter.mp hx).2

theorem sum_abs_of_neg (h : ∀ x ∈ rs, x < 0) : (rs.map fun r => |r|).sum = -rs.sum := by
  rw [List.sum_neg]
  congr 1
  exact List.map_congr_left fun x hx => abs_of_neg (h x hx)

theorem sum_neg_of_neg (h : ∀ x ∈ rs, x < 0) (hne : rs ≠ []) : rs.sum < 0 := by
  have hpos : 0 < (rs.map fun r => |r|).sum := by
    apply List.sum_pos
    · intro x hx
      obtain ⟨y, hy, rfl⟩ := List.mem_map.mp hx
      exact abs_pos.mpr (h y hy).ne
    · simpa using hne
  rw [sum_abs_of_neg h] at hpos
  linarith

theorem sum_wins_eq_zero_iff : (rs.filter (0 < ·)).sum = 0 ↔ rs.filter (0 < ·) = [] := by
  constructor
  · intro h
    by_contra hne
    refine (List.sum_pos _ (fun x hx => ?_) hne).ne' h
    simpa using (List.mem_filter.mp hx).2
  · intro h
    rw [h, List.sum_nil]

theorem abs_sum_losses_pos_iff : 0 < |(rs.filter (· < 0)).sum| ↔ rs.filter (· < 0) ≠ [] := by
  constructor
  · intro h hnil
    rw [hnil, List.sum_nil, abs_zero] at h
    exact h.false
  · intro h
    exact abs_pos.mpr (sum_neg_of_neg losses_neg h).ne

/-- `compute_metrics` reports the gross ratio of any trades at all. -/
theorem computeMetrics_profitFactor (h : ∀ t ∈ trades, Signed t.result t.rMultiple)
    (hne : trades ≠ []) : ∃ summary, computeMetrics trades = .ok summary ∧
      summary.profitFactor = grossRatio (trades.map Trade.rMultiple) := by
  have hneg := @losses_neg (trades.map Trade.rMultiple)
  unfold computeMetrics grossRatio
  simp only [multiplesOf_win h, multiplesOf_loss h, if_neg hne, sum_abs_of_neg hneg,
    List.map_eq_nil_iff]
  by_cases hnil : (trades.map Trade.rMultiple).filter (· < 0) = []
  · rw [if_pos hnil, if_pos hnil]
    exact ⟨_, rfl, rfl⟩
  · have hsum := sum_neg_of_neg hneg hnil
    rw [if_neg hnil, if_neg hnil, if_neg (neg_ne_zero.mpr hsum.ne), abs_of_neg hsum]
    exact ⟨_, rfl, rfl⟩

/-- Neither a gain nor a fall. -/
theorem undecided_iff : rs.filter (0 < ·) = [] ∧ rs.filter (· < 0) = [] ↔ ∀ r ∈ rs, r = 0 := by
  simp only [List.filter_eq_nil_iff, decide_eq_true_eq, not_lt]
  constructor
  · rintro ⟨hle, hge⟩ r hr
    exact le_antisymm (hle r hr) (hge r hr)
  · intro h
    exact ⟨fun r hr => (h r hr).le, fun r hr => (h r hr).ge⟩

/-- `aggregate_records` reports it of records with a win or a loss, and 0 of the others. -/
theorem aggregateRecords_profitFactor (h : ∀ t ∈ trades, Signed t.result t.rMultiple)
    (hs : SameResults trades records strategyTrades) :
    (aggregateRecords records).profitFactor =
      if ∀ r ∈ trades.map Trade.rMultiple, r = 0 then .ratio 0
      else grossRatio (trades.map Trade.rMultiple) := by
  simp only [aggregateRecords, countP_records, recordMultiples_eq hs, multiplesOf_win h,
    multiplesOf_loss h, List.length_eq_zero_iff, List.length_pos_iff, ← undecided_iff, grossRatio]
  by_cases hl : (trades.map Trade.rMultiple).filter (· < 0) = []
  · by_cases hw : (trades.map Trade.rMultiple).filter (0 < ·) = []
    · rw [if_pos hl, if_neg (not_not.mpr hw), if_pos ⟨hw, hl⟩]
    · rw [if_pos hl, if_pos hw, if_neg (fun hc => hw hc.1), if_pos hl]
  · rw [if_neg hl, if_neg (sum_neg_of_neg losses_neg hl).ne, if_neg (fun hc => hl hc.2),
      if_neg hl]

/-- `run_backtest` reports it of trades with a win or a loss, and none of the others. -/
theorem aggregateTrades_profitFactor :
    (aggregateTrades signals strategyTrades).profitFactor =
      if ∀ r ∈ strategyTrades.map StrategyTrade.rMultiple, r = 0 then .missing
      else grossRatio (strategyTrades.map StrategyTrade.rMultiple) := by
  simp only [aggregateTrades, ← undecided_iff, grossRatio, sum_wins_eq_zero_iff,
    abs_sum_losses_pos_iff]
  by_cases hl : (strategyTrades.map StrategyTrade.rMultiple).filter (· < 0) = []
  · by_cases hw : (strategyTrades.map StrategyTrade.rMultiple).filter (0 < ·) = []
    · rw [if_neg (not_not.mpr hl), if_pos hw, if_pos ⟨hw, hl⟩]
    · rw [if_neg (not_not.mpr hl), if_neg hw, if_neg (fun hc => hw hc.1), if_pos hl]
  · rw [if_pos hl, if_neg (fun hc => hl hc.2), if_neg hl]

/-- Of results with a win or a loss the three backtests report one profit factor; of any others
each reports a value of its own. -/
theorem profitFactors_agree {signals : List StrategySignal}
    (h : ∀ t ∈ trades, Signed t.result t.rMultiple)
    (hs : SameResults trades records strategyTrades) :
    ∃ summary, computeMetrics trades = .ok summary ∧
      if ∃ t ∈ trades, t.result ≠ .scratch then
        summary.profitFactor = grossRatio (trades.map Trade.rMultiple) ∧
        (aggregateRecords records).profitFactor = summary.profitFactor ∧
        (aggregateTrades signals strategyTrades).profitFactor = summary.profitFactor
      else
        summary.profitFactor = (if trades = [] then .ratio 0 else .infinite) ∧
        (aggregateRecords records).profitFactor = .ratio 0 ∧
        (aggregateTrades signals strategyTrades).profitFactor = .missing := by
  have hscratch : (∀ r ∈ trades.map Trade.rMultiple, r = 0) ↔
      ¬ ∃ t ∈ trades, t.result ≠ .scratch := by
    simp only [List.forall_mem_map, not_exists, not_and, not_not]
    exact forall₂_congr fun t ht => (h t ht).scratch_iff.symm
  by_cases hd : ∃ t ∈ trades, t.result ≠ .scratch
  · have hnonzero := hscratch.not.mpr (not_not.mpr hd)
    have hne : trades ≠ [] := by
      rintro rfl
      simp at hd
    obtain ⟨summary, hsummary, hfactor⟩ := computeMetrics_profitFactor h hne
    refine ⟨summary, hsummary, ?_⟩
    rw [if_pos hd, hfactor, aggregateRecords_profitFactor h hs, aggregateTrades_profitFactor,
      hs.strategyTrades, if_neg hnonzero, if_neg hnonzero]
    exact ⟨rfl, rfl, rfl⟩
  · have hzero := hscratch.mpr hd
    have hothers : (aggregateRecords records).profitFactor = .ratio 0 ∧
        (aggregateTrades signals strategyTrades).profitFactor = .missing := by
      rw [aggregateRecords_profitFactor h hs, aggregateTrades_profitFactor, hs.strategyTrades,
        if_pos hzero, if_pos hzero]
      exact ⟨rfl, rfl⟩
    by_cases hnil : trades = []
    · subst hnil
      refine ⟨_, rfl, ?_⟩
      rw [if_neg hd]
      exact ⟨rfl, hothers⟩
    · obtain ⟨summary, hsummary, hfactor⟩ := computeMetrics_profitFactor h hnil
      refine ⟨summary, hsummary, ?_⟩
      rw [if_neg hd, if_neg hnil, hfactor, grossRatio, if_pos (undecided_iff.mpr hzero).2]
      exact ⟨rfl, hothers⟩

/-! One long position, as each of the backtests keeps it. -/

def heldTrade (result : TradeResult) (r : ℚ) : Trade :=
  { direction := .long, entryPrice := 100, stopLoss := 98, targetPrice := 104
    exitPrice := 100 + 2 * r, result := result, rMultiple := r }

def heldRecord (result : TradeResult) (r : ℚ) : BacktestSignalRecord :=
  { stepIndex := 0, signalTime := none, direction := .bullish, grade := .a
    patternName := "gartley", family := "XABCD", formed := true, entryPrice := 100
    stopLoss := 98, tp1 := some 104, rr1 := 2, entryReference := 100, entryZone := (99, 101)
    horizon := 10, result := .traded result, rMultiple := r, exitTime := none, barsHeld := some 1 }

def heldStrategyTrade (r : ℚ) : StrategyTrade :=
  { direction := .long, entryPrice := 100, entryTime := "", stopLoss := 98, targetPrice := 104
    exitPrice := 100 + 2 * r, exitTime := "", exitReason := .endOfData, rMultiple := r
    barsHeld := 1 }

theorem profitFactors_agree_win : (heldTrade .win 2).result ≠ .scratch ∧
    (aggregateRecords [heldRecord .win 2]).profitFactor = .infinite ∧
    (aggregateTrades [] [heldStrategyTrade 2]).profitFactor = .infinite := by
  obtain ⟨summary, hsummary, hfactor⟩ := @profitFactors_agree [heldTrade .win 2]
    [heldRecord .win 2] [heldStrategyTrade 2] [] (by simp [heldTrade, Signed]) ⟨rfl, rfl⟩
  rw [if_pos ⟨_, List.mem_singleton_self _, nofun⟩] at hfactor
  refine ⟨nofun, ?_, ?_⟩
  · rw [hfactor.2.1, hfactor.1]
    decide +kernel
  · rw [hfactor.2.2, hfactor.1]
    decide +kernel

/-- A trade that ends where it began: infinite, 0 or nothing. -/
theorem scratch_factors_differ : Signed .scratch 0 ∧
    SameResults [heldTrade .scratch 0] [heldRecord .scratch 0] [heldStrategyTrade 0] ∧
    (∃ summary, computeMetrics [heldTrade .scratch 0] = .ok summary ∧
      summary.profitFactor = .infinite) ∧
    (aggregateRecords [heldRecord .scratch 0]).profitFactor = .ratio 0 ∧
    (aggregateTrades [] [heldStrategyTrade 0]).profitFactor = .missing :=
  ⟨rfl, ⟨rfl, rfl⟩, ⟨_, rfl, rfl⟩, by decide +kernel, by decide +kernel⟩

end Pyharmonics.Backtest
