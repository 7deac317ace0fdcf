import Pyharmonics.Signals

/-! The bar-by-bar backtest: trades of one fixed setup on a frame of candles. -/
namespace Pyharmonics.Backtest

inductive TradeResult
  | win | loss | scratch
  deriving DecidableEq

/-- A single simulated trade outcome. -/
structure Trade where
  direction : DirectionWord
  entryPrice : ℚ
  stopLoss : ℚ
  targetPrice : ℚ
  exitPrice : ℚ
  result : TradeResult
  rMultiple : ℚ := 0
  entryTime : Option ℤ := none
  exitTime : Option ℤ := none
  deriving DecidableEq

/-- What `simulate_trades` is asked to trade; every direction but `long` is short. -/
structure Setup where
  direction : DirectionWord
  entryPrice : ℚ
  stopLoss : ℚ
  targetPrice : ℚ

variable {s : Setup} {r : Row} {rows : List Row} {t : Trade} {df : Frame}

/-- `_resolve_exit`: the level assumed to be touched first, the stop when both are as near. -/
def resolveExit (s : Setup) (low high : ℚ) : Option (ℚ × TradeResult) :=
  if s.direction = .long then
    let stopHit := decide (low ≤ s.stopLoss)
    let targetHit := decide (s.targetPrice ≤ high)
    if !stopHit && !targetHit then none
    else if stopHit && targetHit then
      if s.entryPrice - s.stopLoss ≤ s.targetPrice - s.entryPrice then some (s.stopLoss, .loss)
      else some (s.targetPrice, .win)
    else if stopHit then some (s.stopLoss, .loss)
    else some (s.targetPrice, .win)
  else
    let stopHit := decide (s.stopLoss ≤ high)
    let targetHit := decide (low ≤ s.targetPrice)
    if !stopHit && !targetHit then none
    else if stopHit && targetHit then
      if s.stopLoss - s.entryPrice ≤ s.entryPrice - s.targetPrice then some (s.stopLoss, .loss)
      else some (s.targetPrice, .win)
    else if stopHit then some (s.stopLoss, .loss)
    else some (s.targetPrice, .win)

/-- The bar's range straddles the price. -/
def Covers (r : Row) (price : ℚ) : Prop := r.low ≤ price ∧ price ≤ r.high

instance (r : Row) (price : ℚ) : Decidable (Covers r price) := by
  unfold Covers
  infer_instance

/-- The trade entered on a bar. -/
def Setup.enter (s : Setup) (r : Row) : Trade :=
  { direction := s.direction, entryPrice := s.entryPrice, stopLoss := s.stopLoss
    targetPrice := s.targetPrice, exitPrice := 0, result := .scratch, entryTime := some r.index }

/-- `_close_trade` -/
def Setup.close (s : Setup) (t : Trade) (exitPrice : ℚ) (result : TradeResult) (exitTime : ℤ) :
    Trade :=
  let risk := |s.entryPrice - s.stopLoss|
  let reward := |exitPrice - s.entryPrice|
  let multiple := if 0 < risk then reward / risk else 0
  { t with exitPrice := exitPrice, result := result, exitTime := some exitTime
           rMultiple := if result = .loss then -|multiple| else multiple }

/-- The end of the data closes a trade at no gain. -/
def scratchAt (t : Trade) (last : Row) : Trade :=
  { t with exitPrice := last.close, result := .scratch, exitTime := some last.index, rMultiple := 0 }

/-- The loop over the bars, with the trade that is open and the last bar seen. -/
def walk (s : Setup) : List Row → Option Trade → Option Row → List Trade
  | [], some t, some last => [scratchAt t last]
  | [], _, _ => []
  | r :: rows, none, _ =>
    if Covers r s.entryPrice then
      match resolveExit s r.low r.high with
      | some (exit, result) => s.close (s.enter r) exit result r.index :: walk s rows none (some r)
      | none => walk s rows (some (s.enter r)) (some r)
    else walk s rows none (some r)
  | r :: rows, some t, _ =>
    match resolveExit s r.low r.high with
    | some (exit, result) => s.close t exit result r.index :: walk s rows none (some r)
    | none => walk s rows (some t) (some r)

/-- `simulate_trades` -/
def simulateTrades (df : Frame) (s : Setup) : Except PyError (List Trade) :=
  if df.empty then .ok []
  else if ¬ ∀ c ∈ ["open", "high", "low", "close"], c ∈ df.columns then
    .error (.valueError "DataFrame must contain columns" [])
  else if s.direction = .long then
    if s.entryPrice ≤ s.stopLoss ∨ s.targetPrice ≤ s.entryPrice then
      .error (.valueError "Long trade requires stop < entry < target" [])
    else .ok (walk s df.rows none none)
  else if s.stopLoss ≤ s.entryPrice ∨ s.entryPrice ≤ s.targetPrice then
    .error (.valueError "Short trade requires stop > entry > target" [])
  else .ok (walk s df.rows none none)

/-- Levels on the right sides of the entry for the direction. -/
def Setup.Ordered (s : Setup) : Prop :=
  if s.direction = .long then s.stopLoss < s.entryPrice ∧ s.entryPrice < s.targetPrice
  else s.entryPrice < s.stopLoss ∧ s.targetPrice < s.entryPrice

instance (s : Setup) : Decidable s.Ordered := by
  unfold Setup.Ordered
  infer_instance

/-- An open trade is reported however the data goes on. -/
theorem walk_open_ne_nil (last : Row) : walk s rows (some t) (some last) ≠ [] := by
  induction rows generalizing t last with
  | nil => simp [walk]
  | cons r rows ih =>
    unfold walk
    split
    · exact List.cons_ne_nil _ _
    · exact ih r

/-- No trade is produced exactly when no bar covers the entry. -/
theorem walk_eq_nil_iff (last : Option Row) :
    walk s rows none last = [] ↔ ∀ r ∈ rows, ¬ Covers r s.entryPrice := by
  induction rows generalizing last with
  | nil => cases last <;> simp [walk]
  | cons r rows ih =>
    unfold walk
    by_cases hr : Covers r s.entryPrice
    · rw [if_pos hr]
      refine iff_of_false ?_ (fun h => h r (by simp) hr)
      split
      · exact List.cons_ne_nil _ _
      · exact walk_open_ne_nil r
    · rw [if_neg hr, ih]
      simp [hr]

theorem simulateTrades_ordered (h : s.Ordered) :
    simulateTrades df s = .ok (walk s df.rows none none) := by
  have hcols : ∀ c ∈ ["open", "high", "low", "close"], c ∈ df.columns := by
    intro c hc
    refine df.prices c ?_
    simp only [List.mem_cons, List.not_mem_nil, or_false] at hc ⊢
    tauto
  by_cases he : df.empty = true
  · have hrows : df.rows = [] := by simpa [Frame.empty] using he
    rw [simulateTrades, if_pos he, hrows]
    rfl
  rw [simulateTrades, if_neg he, if_neg (not_not.mpr hcols)]
  by_cases hd : s.direction = .long
  · rw [Setup.Ordered, if_pos hd] at h
    rw [if_pos hd, if_neg (not_or.mpr ⟨not_le.mpr h.1, not_le.mpr h.2⟩)]
  · rw [Setup.Ordered, if_neg hd] at h
    rw [if_neg hd, if_neg (not_or.mpr ⟨not_le.mpr h.1, not_le.mpr h.2⟩)]

end Pyharmonics.Backtest
