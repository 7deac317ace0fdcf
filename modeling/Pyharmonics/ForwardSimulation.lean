import Pyharmonics.BacktestEngine
import Pyharmonics.Grading

/-! Forward simulation of one signal, against the trades of the backtest engine. -/
namespace Pyharmonics.Backtest

variable {S : Signal} {df : Frame} {tp : SignalTarget} {rest : List SignalTarget}

inductive ForwardOutcome
  | traded (result : TradeResult) | skipped
  deriving DecidableEq

/-- Result of forward-simulating a single signal. -/
structure ForwardResult where
  result : ForwardOutcome
  rMultiple : ℚ
  exitTime : Option ℤ
  barsHeld : Option ℤ
  deriving DecidableEq

def ForwardResult.skip : ForwardResult := ⟨.skipped, 0, none, none⟩

/-- The optional prices of `simulate_one`. -/
structure Overrides where
  currentPrice : Option ℚ := none
  entryPrice : Option ℚ := none
  targetPrice : Option ℚ := none

/-- The setup `simulate_one` trades: every direction but `bullish` is a short. -/
def setupOf (signal : Signal) (o : Overrides) : Setup :=
  let direction := if signal.direction = .bullish then .long else .short
  let entry := o.entryPrice.getD (o.currentPrice.getD signal.entryReference)
  let fallback := entry * (if direction = .long then 101 / 100 else 99 / 100)
  { direction := direction, entryPrice := entry, stopLoss := signal.stopLoss
    targetPrice := o.targetPrice.getD ((signal.targets.head?.map SignalTarget.price).getD fallback) }

/-- The result of the first trade, its length in days. -/
def ForwardResult.ofTrade (t : Trade) : ForwardResult :=
  { result := .traded t.result, rMultiple := t.rMultiple, exitTime := t.exitTime
    barsHeld := match t.exitTime, t.entryTime with
      | some exit, some entry => some ((exit - entry).tdiv 86400)
      | _, _ => none }

/-- `simulate_one` -/
def simulateOne (forward : Frame) (signal : Option Signal) (o : Overrides := {}) :
    ForwardResult :=
  match signal with
  | none => .skip
  | some signal =>
    let s := setupOf signal o
    if ¬ s.Ordered then .skip
    else
      match simulateTrades forward s with
      | .ok (t :: _) => .ofTrade t
      | .ok [] => .skip
      | .error _ => .skip

/-- What the engine publishes: a direction of its own words and levels in order around the entry. -/
structure Tradeable (S : Signal) (tp : SignalTarget) (rest : List SignalTarget) : Prop where
  direction : S.direction = .long ∨ S.direction = .short
  targets : S.targets = tp :: rest
  ordered : Setup.Ordered ⟨S.direction, S.entryReference, S.stopLoss, tp.price⟩

/-- The forward result is that of the first trade, and a skip when there is none. -/
def Agrees (r : ForwardResult) (trades : Except PyError (List Trade)) : Prop :=
  match trades with
  | .ok (t :: _) => r.result = .traded t.result ∧ r.rMultiple = t.rMultiple
  | _ => r.result = .skipped

theorem simulateOne_long (h : Tradeable S tp rest) (hl : S.direction = .long) :
    simulateOne df S = .skip := by
  have hlt := h.ordered
  simp only [Setup.Ordered, hl, if_true] at hlt
  have hno : ¬ (setupOf S {}).Ordered := by
    simp only [setupOf, Setup.Ordered, hl, h.targets]
    simp only [reduceCtorEq, if_false, Option.getD_none, List.head?_cons, Option.map_some,
      Option.getD_some, not_and]
    intro hs
    linarith
  rw [simulateOne]
  exact if_pos hno

theorem simulateOne_short (h : Tradeable S tp rest) (hs : S.direction = .short) :
    Agrees (simulateOne df S)
      (simulateTrades df ⟨S.direction, S.entryReference, S.stopLoss, tp.price⟩) := by
  have hsetup : setupOf S {} = ⟨S.direction, S.entryReference, S.stopLoss, tp.price⟩ := by
    simp [setupOf, hs, h.targets]
  have hone : simulateOne df S = match simulateTrades df (setupOf S {}) with
      | .ok (t :: _) => .ofTrade t
      | .ok [] => .skip
      | .error _ => .skip := by
    rw [simulateOne]
    exact if_neg (not_not.mpr (hsetup ▸ h.ordered))
  rw [hone, hsetup]
  split
  · next t ts heq => rw [heq]; exact ⟨rfl, rfl⟩
  · next heq => rw [heq]; rfl
  · next e heq => rw [heq]; rfl

/-- The two layers agree on shorts, and on longs only while no bar comes back to the entry. -/
theorem simulateOne_agrees_iff (h : Tradeable S tp rest) :
    Agrees (simulateOne df S)
        (simulateTrades df ⟨S.direction, S.entryReference, S.stopLoss, tp.price⟩) ↔
      S.direction = .short ∨ ∀ r ∈ df.rows, ¬ Covers r S.entryReference := by
  rcases h.direction with hl | hs
  · rw [simulateOne_long h hl, simulateTrades_ordered h.ordered]
    have hskip : Agrees .skip (.ok (walk ⟨S.direction, S.entryReference, S.stopLoss, tp.price⟩
        df.rows none none)) ↔ walk ⟨S.direction, S.entryReference, S.stopLoss, tp.price⟩
          df.rows none none = [] := by
      cases walk ⟨S.direction, S.entryReference, S.stopLoss, tp.price⟩ df.rows none none with
      | nil => simp [Agrees, ForwardResult.skip]
      | cons t ts => simp [Agrees, ForwardResult.skip]
    rw [hskip, walk_eq_nil_iff]
    simp [hl]
  · exact iff_of_true (simulateOne_short h hs) (Or.inl hs)

/-! The long signal of the alternating market, and a bar that fills it and reaches TP1. -/

def returnBar : Row :=
  { openPrice := 101, high := 105, low := 99, close := 104, volume := 1, closeTime := 60, dts := 60
    index := 60 }

def returnFrame : Frame := frameOf [returnBar]

theorem alternating_tradeable : ∃ S tp rest,
    buildSignal plainNumerics defaultProcess alternatingInput = .ok (some S) ∧
      Tradeable S tp rest ∧ S.direction = .long ∧ S.entryReference = 100 := by
  obtain ⟨S, hS, -, hd, he, hs, ht⟩ := alternating_signal
  obtain ⟨tp, rest, htp, hp, -⟩ := List.map_eq_cons_iff.mp ht
  refine ⟨S, tp, rest, hS, ⟨Or.inl hd, htp, ?_⟩, hd, he⟩
  simp only [Setup.Ordered, hd, he, hs, hp, if_true]
  norm_num

/-- The engine's long is traded by the backtest and skipped by the forward simulation. -/
theorem alternating_skipped : ∃ S tp rest,
    buildSignal plainNumerics defaultProcess alternatingInput = .ok (some S) ∧
      Tradeable S tp rest ∧ ¬ Agrees (simulateOne returnFrame S)
        (simulateTrades returnFrame ⟨S.direction, S.entryReference, S.stopLoss, tp.price⟩) := by
  obtain ⟨S, tp, rest, hS, h, hd, he⟩ := alternating_tradeable
  refine ⟨S, tp, rest, hS, h, ?_⟩
  rw [simulateOne_long h hd, simulateTrades_ordered h.ordered]
  have hcov : Covers returnBar S.entryReference := by
    rw [he]
    decide
  have hne : walk ⟨S.direction, S.entryReference, S.stopLoss, tp.price⟩ returnFrame.rows none none
      ≠ [] := fun hnil => walk_eq_nil_iff none |>.mp hnil returnBar (by simp [returnFrame, frameOf]) hcov
  obtain ⟨t, ts, heq⟩ := List.exists_cons_of_ne_nil hne
  rw [heq]
  simp [Agrees, ForwardResult.skip]

theorem alternating_disagrees : ∃ S tp rest, Tradeable S tp rest ∧
    ¬ Agrees (simulateOne returnFrame S)
      (simulateTrades returnFrame ⟨S.direction, S.entryReference, S.stopLoss, tp.price⟩) := by
  obtain ⟨S, tp, rest, -, h, hd, he⟩ := alternating_tradeable
  refine ⟨S, tp, rest, h, ?_⟩
  intro hagree
  rcases (simulateOne_agrees_iff h).mp hagree with hs | hbars
  · simp [hd] at hs
  · refine hbars returnBar (by simp [returnFrame, frameOf]) ?_
    rw [he]
    decide

end Pyharmonics.Backtest
