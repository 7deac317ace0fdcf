import Pyharmonics.BacktestMetrics

/-! The backtest of a market and of its mirror image: every price `p` turned into `M - p`. -/
namespace Pyharmonics.Backtest

variable {M : ℚ} {s : Setup} {r last : Row} {rows : List Row} {t : Trade} {trades : List Trade}
  {df : Frame} {price exit : ℚ} {result : TradeResult} {time : ℤ} {rs : List ℚ}

/-- The other side of the market; every direction but `long` trades short. -/
def opposite (direction : DirectionWord) : DirectionWord :=
  if direction = .long then .short else .long

def reflectRow (M : ℚ) (r : Row) : Row :=
  { r with
    openPrice := M - r.openPrice, high := M - r.low, low := M - r.high, close := M - r.close }

def reflectFrame (M : ℚ) (df : Frame) : Frame := { df with rows := df.rows.map (reflectRow M) }

def Setup.reflect (M : ℚ) (s : Setup) : Setup :=
  { direction := opposite s.direction, entryPrice := M - s.entryPrice
    stopLoss := M - s.stopLoss, targetPrice := M - s.targetPrice }

def Trade.reflect (M : ℚ) (t : Trade) : Trade :=
  { t with
    direction := opposite t.direction
    entryPrice := M - t.entryPrice
    stopLoss := M - t.stopLoss
    targetPrice := M - t.targetPrice
    exitPrice := M - t.exitPrice }

def BacktestSummary.reflect (M : ℚ) (s : BacktestSummary) : BacktestSummary :=
  { s with trades := s.trades.map (Trade.reflect M) }

theorem long_reflect : (s.reflect M).direction = .long ↔ s.direction ≠ .long := by
  unfold Setup.reflect opposite
  by_cases h : s.direction = .long <;> simp [h]

theorem resolveExit_reflect : resolveExit (s.reflect M) (reflectRow M r).low (reflectRow M r).high =
    (resolveExit s r.low r.high).map fun e => (M - e.1, e.2) := by
  unfold resolveExit
  by_cases h : s.direction = .long
  · rw [if_neg (long_reflect.not.mpr (not_not.mpr h)), if_pos h]
    simp only [Setup.reflect, reflectRow, sub_le_sub_iff_left, sub_sub_sub_cancel_left]
    split_ifs <;> rfl
  · rw [if_pos (long_reflect.mpr h), if_neg h]
    simp only [Setup.reflect, reflectRow, sub_le_sub_iff_left, sub_sub_sub_cancel_left]
    split_ifs <;> rfl

theorem covers_reflect :
    Covers (reflectRow M r) (s.reflect M).entryPrice ↔ Covers r s.entryPrice := by
  simp only [Covers, reflectRow, Setup.reflect, sub_le_sub_iff_left]
  exact and_comm

theorem close_reflect : (s.reflect M).close ((s.reflect M).enter (reflectRow M r)) (M - exit) result
    time = (s.close (s.enter r) exit result time).reflect M := by
  have hrisk : |M - s.entryPrice - (M - s.stopLoss)| = |s.entryPrice - s.stopLoss| := by
    rw [sub_sub_sub_cancel_left, abs_sub_comm]
  have hreward : |M - exit - (M - s.entryPrice)| = |exit - s.entryPrice| := by
    rw [sub_sub_sub_cancel_left, abs_sub_comm]
  simp only [Setup.close, Setup.enter, Setup.reflect, Trade.reflect, reflectRow, hrisk, hreward]

theorem walk_bar_hold {t : Trade} {last : Option Row} (h : resolveExit s q.low q.high = none) :
    walk s (q :: rows) (some t) last = walk s rows (some t) (some q) := by
  rw [walk, h]

theorem walk_bar_leave {t : Trade} {last : Option Row} {exit : ℚ} {result : TradeResult}
    (h : resolveExit s q.low q.high = some (exit, result)) :
    walk s (q :: rows) (some t) last =
      s.close t exit result q.index :: walk s rows none (some q) := by
  rw [walk, h]

/-- The bar of the fill is treated like a bar of a trade that is open already. -/
theorem walk_fill {last last' : Option Row} (h : Covers q s.entryPrice) :
    walk s (q :: rows) none last = walk s (q :: rows) (some (s.enter q)) last' := by
  rw [walk, if_pos h, walk]

/-- The mirrored walk gives the mirrored trades, with and without an open trade. -/
theorem walk_reflect : (∀ last : Option Row,
      walk (s.reflect M) (rows.map (reflectRow M)) none (last.map (reflectRow M)) =
        (walk s rows none last).map (Trade.reflect M)) ∧
    ∀ r last : Row, walk (s.reflect M) (rows.map (reflectRow M))
        (some ((s.reflect M).enter (reflectRow M r))) (some (reflectRow M last)) =
      (walk s rows (some (s.enter r)) (some last)).map (Trade.reflect M) := by
  induction rows with
  | nil =>
    refine ⟨fun last => ?_, fun r last => rfl⟩
    cases last <;> rfl
  | cons q rows ih =>
    obtain ⟨hnone, hopen⟩ := ih
    -- after a bar with an open trade, whether it was filled there or before
    have hbar : ∀ r last : Row, walk (s.reflect M) (reflectRow M q :: rows.map (reflectRow M))
          (some ((s.reflect M).enter (reflectRow M r))) (some (reflectRow M last)) =
        (walk s (q :: rows) (some (s.enter r)) (some last)).map (Trade.reflect M) := by
      intro r last
      cases hexit : resolveExit s q.low q.high with
      | none =>
        have hexit' : resolveExit (s.reflect M) (reflectRow M q).low (reflectRow M q).high =
            none := by
          rw [resolveExit_reflect, hexit]
          rfl
        rw [walk_bar_hold hexit, walk_bar_hold hexit']
        exact hopen r q
      | some e =>
        obtain ⟨exit, result⟩ := e
        have hexit' : resolveExit (s.reflect M) (reflectRow M q).low (reflectRow M q).high =
            some (M - exit, result) := by
          rw [resolveExit_reflect, hexit]
          rfl
        rw [walk_bar_leave hexit, walk_bar_leave hexit', List.map_cons]
        exact List.cons_eq_cons.mpr ⟨close_reflect, hnone (some q)⟩
    refine ⟨fun last => ?_, fun r last => hbar r last⟩
    rw [List.map_cons]
    by_cases hc : Covers q s.entryPrice
    · rw [walk_fill (covers_reflect.mpr hc), @walk_fill _ _ _ _ (some q) hc]
      exact hbar q q
    · rw [walk, walk, if_neg (covers_reflect.not.mpr hc), if_neg hc]
      exact hnone (some q)

theorem empty_reflect : (reflectFrame M df).empty = df.empty := by
  simp [Frame.empty, reflectFrame]

theorem ordered_reflect : (s.reflect M).Ordered ↔ s.Ordered := by
  unfold Setup.Ordered
  by_cases h : s.direction = .long
  · rw [if_neg (long_reflect.not.mpr (not_not.mpr h)), if_pos h]
    simp only [Setup.reflect, sub_lt_sub_iff_left]
  · rw [if_pos (long_reflect.mpr h), if_neg h]
    simp only [Setup.reflect, sub_lt_sub_iff_left]

/-- Levels on the wrong sides raise as soon as there is a bar. -/
theorem toOption_unordered (ho : ¬ s.Ordered) :
    (simulateTrades df s).toOption = if df.empty then some [] else none := by
  unfold simulateTrades
  unfold Setup.Ordered at ho
  by_cases he : df.empty
  · simp only [he, if_true]
    rfl
  · simp only [he]
    by_cases hl : s.direction = .long
    · rw [if_pos hl, not_and_or, not_lt, not_lt] at ho
      simp only [if_pos hl, if_pos ho]
      split_ifs <;> rfl
    · rw [if_neg hl, not_and_or, not_lt, not_lt] at ho
      simp only [if_neg hl, if_pos ho]
      split_ifs <;> rfl

theorem simulateTrades_reflect : (simulateTrades (reflectFrame M df) (s.reflect M)).toOption =
    (simulateTrades df s).toOption.map (List.map (Trade.reflect M)) := by
  by_cases ho : s.Ordered
  · rw [simulateTrades_ordered (ordered_reflect.mpr ho), simulateTrades_ordered ho]
    exact congrArg some (walk_reflect.1 none)
  · rw [toOption_unordered (ordered_reflect.not.mpr ho), toOption_unordered ho, empty_reflect]
    split_ifs <;> rfl

theorem multiplesOf_reflect :
    multiplesOf (trades.map (Trade.reflect M)) result = multiplesOf trades result := by
  simp only [multiplesOf, List.filter_map, List.map_map]
  rfl

theorem computeMetrics_reflect : computeMetrics (trades.map (Trade.reflect M)) =
    (computeMetrics trades).map (BacktestSummary.reflect M) := by
  have hcount : ∀ result, (trades.map (Trade.reflect M)).countP (·.result = result) =
      trades.countP (·.result = result) := by
    intro result
    rw [List.countP_map]
    rfl
  have hmultiples : (trades.map (Trade.reflect M)).map Trade.rMultiple =
      trades.map Trade.rMultiple := by
    rw [List.map_map]
    rfl
  unfold computeMetrics
  simp only [multiplesOf_reflect, hcount, hmultiples, List.length_map, List.map_eq_nil_iff]
  split_ifs <;> rfl

/-- The mirrored backtest: the same trades at mirrored prices, and the same summary of them. -/
theorem backtest_reflect (M : ℚ) (df : Frame) (s : Setup) :
    (simulateTrades (reflectFrame M df) (s.reflect M)).toOption =
      (simulateTrades df s).toOption.map (List.map (Trade.reflect M)) ∧
    ((simulateTrades (reflectFrame M df) (s.reflect M)).toOption.bind fun trades =>
        (computeMetrics trades).toOption) =
      ((simulateTrades df s).toOption.bind fun trades => (computeMetrics trades).toOption).map
        (BacktestSummary.reflect M) := by
  refine ⟨simulateTrades_reflect, ?_⟩
  rw [simulateTrades_reflect]
  cases (simulateTrades df s).toOption with
  | none => rfl
  | some trades =>
    rw [Option.map_some, Option.bind_some, Option.bind_some, computeMetrics_reflect]
    cases computeMetrics trades <;> rfl

end Pyharmonics.Backtest
