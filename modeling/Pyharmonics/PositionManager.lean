import Pyharmonics.Errors
import Mathlib.Algebra.Order.Field.Rat

/-! The state machine of an open position: one bar in, the next state and its actions out. -/
namespace Pyharmonics.Position

/-- One bar of the stream, its range in order. -/
structure Bar where
  high : ℚ
  low : ℚ
  close : ℚ
  low_le_high : low ≤ high

inductive CloseReason
  | stop | timeStop | tp3
  deriving DecidableEq

/-- The data of a `PositionState`. -/
structure PositionFields where
  bullish : Bool
  entryPrice : ℚ
  initialStop : ℚ
  currentStop : ℚ
  tp1 : ℚ
  tp2 : ℚ
  tp3 : ℚ
  atr : ℚ
  cdLegBars : ℤ
  chandelierPeriod : ℤ := 22
  chandelierAtrMult : ℚ := 2
  timeStopCdMult : ℚ := 3 / 2
  barsHeld : ℤ := 0
  sizeRemaining : ℚ := 1
  tp1Hit : Bool := false
  tp2Hit : Bool := false
  tp3Hit : Bool := false
  closed : Bool := false
  closeReason : Option CloseReason := none
  chandelierHigh : Option ℚ := none
  chandelierLow : Option ℚ := none

/-- An immutable snapshot that has passed `__post_init__`. -/
structure PositionState extends PositionFields where
  entryPrice_pos : 0 < entryPrice
  initialStop_pos : 0 < initialStop
  tps_pos : 0 < tp1 ∧ 0 < tp2 ∧ 0 < tp3
  atr_pos : 0 < atr
  cdLegBars_nonneg : 0 ≤ cdLegBars
  size_mem : 0 ≤ sizeRemaining ∧ sizeRemaining ≤ 1

/-- Construction runs `__post_init__`, which raises on the first check that fails. -/
def PositionFields.postInit (f : PositionFields) : Except PyError PositionState :=
  if h₁ : 0 < f.entryPrice then
    if h₂ : 0 < f.initialStop then
      if h₃ : 0 < f.tp1 ∧ 0 < f.tp2 ∧ 0 < f.tp3 then
        if h₄ : 0 < f.atr then
          if h₅ : 0 ≤ f.cdLegBars then
            if h₆ : 0 ≤ f.sizeRemaining ∧ f.sizeRemaining ≤ 1 then
              .ok ⟨f, h₁, h₂, h₃, h₄, h₅, h₆⟩
            else .error (.valueError "size_remaining must be in [0, 1] (got %)" [f.sizeRemaining])
          else .error (.valueError "cd_leg_bars must be >= 0 (got %)" [f.cdLegBars])
        else .error (.valueError "atr must be > 0 (got %)" [f.atr])
      else .error (.valueError "tp1/tp2/tp3 must all be > 0 (got %/%/%)" [f.tp1, f.tp2, f.tp3])
    else .error (.valueError "initial_stop must be > 0 (got %)" [f.initialStop])
  else .error (.valueError "entry_price must be > 0 (got %)" [f.entryPrice])

/-- `dataclasses_replace(state, size_remaining=…)`: the one replacement whose re-run of
`__post_init__` can raise; the others leave every checked field alone. -/
def PositionState.replaceSize (s : PositionState) (size : ℚ) : Except PyError PositionState :=
  if h : 0 ≤ size ∧ size ≤ 1 then .ok { s with sizeRemaining := size, size_mem := h }
  else .error (.valueError "size_remaining must be in [0, 1] (got %)" [size])

/-- `dataclasses_replace(state, bars_held=state.bars_held + 1)`. -/
def PositionState.tick (s : PositionState) : PositionState := { s with barsHeld := s.barsHeld + 1 }

/-- `dataclasses_replace(state, closed=True, size_remaining=0.0, close_reason=…)`. -/
def PositionState.close (s : PositionState) (reason : CloseReason) : PositionState :=
  { s with closed := true, sizeRemaining := 0, closeReason := some reason,
           size_mem := ⟨le_rfl, zero_le_one⟩ }

inductive ActionType
  | hold | closePartial | moveStop | closeAll
  deriving DecidableEq

/-- A side-effect request emitted by `processBar`. -/
structure Action where
  type : ActionType
  sizePct : ℚ := 0
  newStop : ℚ := 0
  reason : String := ""
  deriving DecidableEq

/-- `_tp_hit` -/
def tpHit (barHigh barLow tp : ℚ) (bullish : Bool) : Bool :=
  if bullish then decide (tp ≤ barHigh) else decide (barLow ≤ tp)

/-- `_stop_hit` -/
def stopHit (barHigh barLow stop : ℚ) (bullish : Bool) : Bool :=
  if bullish then decide (barLow ≤ stop) else decide (stop ≤ barHigh)

/-- `_chandelier_stop`: the extreme is asserted to be set. -/
def chandelierStop (s : PositionState) : Except PyError ℚ :=
  let k := s.chandelierAtrMult
  if s.bullish then
    match s.chandelierHigh with
    | some h => .ok (h - k * s.atr)
    | none => .error .assertionError
  else
    match s.chandelierLow with
    | some l => .ok (l + k * s.atr)
    | none => .error .assertionError

inductive Tp
  | tp1 | tp2 | tp3
  deriving DecidableEq

/-- The label that says where the stop goes after a target. -/
inductive NextStop
  | breakeven | tp1
  deriving DecidableEq

structure TpTarget where
  price : ℚ
  name : Tp
  closePct : ℚ
  nextStop : Option NextStop

def tpTargets (s : PositionState) : List TpTarget :=
  [ ⟨s.tp1, .tp1, 1 / 2, some .breakeven⟩,
    ⟨s.tp2, .tp2, 3 / 10, some .tp1⟩,
    ⟨s.tp3, .tp3, 1 / 5, none⟩ ]

/-- `getattr(state, f"{tp_name}_hit")` -/
def PositionState.hit (s : PositionState) : Tp → Bool
  | .tp1 => s.tp1Hit
  | .tp2 => s.tp2Hit
  | .tp3 => s.tp3Hit

/-- Marks the target; the first one also anchors the Chandelier at the bar's extreme. -/
def PositionState.markHit (s : PositionState) (bar : Bar) : Tp → PositionState
  | .tp1 => { s with tp1Hit := true,
                     chandelierHigh := if s.bullish then some bar.high else none,
                     chandelierLow := if s.bullish then none else some bar.low }
  | .tp2 => { s with tp2Hit := true }
  | .tp3 => { s with tp3Hit := true }

/-- The level a label names. -/
def PositionState.stopAfter (s : PositionState) : NextStop → ℚ
  | .breakeven => s.entryPrice
  | .tp1 => s.tp1

/-- `f"{tp_name}_hit"` -/
def Tp.hitReason : Tp → String
  | .tp1 => "tp1_hit"
  | .tp2 => "tp2_hit"
  | .tp3 => "tp3_hit"

/-- `f"after_{tp_name}"` -/
def Tp.afterReason : Tp → String
  | .tp1 => "after_tp1"
  | .tp2 => "after_tp2"
  | .tp3 => "after_tp3"

/-- How the loop over the targets ends: it is left, or the function returns inside it. -/
inductive LoopExit
  | left (s : PositionState) (actions : List Action)
  | returned (s : PositionState) (actions : List Action)

/-- The loop over `tp_targets`. -/
def takeProfits (bar : Bar) :
    List TpTarget → PositionState → List Action → Except PyError LoopExit
  | [], s, actions => .ok (.left s actions)
  | tp :: rest, s, actions =>
    if s.hit tp.name then takeProfits bar rest s actions
    else if !tpHit bar.high bar.low tp.price s.bullish then .ok (.left s actions)
    else
      let s := s.markHit bar tp.name
      match s.replaceSize (s.sizeRemaining - tp.closePct) with
      | .error e => .error e
      | .ok s =>
        let actions := actions ++
          [{ type := .closePartial, sizePct := tp.closePct, reason := tp.name.hitReason }]
        match tp.nextStop with
        | none => .ok (.returned (s.close .tp3)
            (actions ++ [{ type := .closeAll, reason := "tp3_full_close" }]))
        | some label =>
          let newStop := s.stopAfter label
          if newStop ≠ s.currentStop then
            takeProfits bar rest { s with currentStop := newStop }
              (actions ++ [{ type := .moveStop, newStop := newStop,
                             reason := tp.name.afterReason }])
          else takeProfits bar rest s actions

/-- The running extreme since the first target, this bar included. -/
def PositionState.extend (s : PositionState) (bar : Bar) : PositionState :=
  if s.bullish then { s with chandelierHigh := some (max (s.chandelierHigh.getD bar.high) bar.high) }
  else { s with chandelierLow := some (min (s.chandelierLow.getD bar.low) bar.low) }

/-- The Chandelier block: the stop follows the running extreme when that improves it. -/
def chandelierRatchet (bar : Bar) (s : PositionState) (actions : List Action) :
    Except PyError (PositionState × List Action) :=
  if s.tp1Hit && !s.closed && decide (0 < s.barsHeld) then
    let s := s.extend bar
    match chandelierStop s with
    | .error e => .error e
    | .ok trail =>
      if (s.bullish && decide (s.currentStop < trail)) ||
          (!s.bullish && decide (trail < s.currentStop)) then
        .ok ({ s with currentStop := trail },
          actions ++ [{ type := .moveStop, newStop := trail, reason := "chandelier_ratchet" }])
      else .ok (s, actions)
  else .ok (s, actions)

/-- The body of `process_bar`. -/
def advance (s : PositionState) (bar : Bar) : Except PyError (PositionState × List Action) :=
  if s.closed then .ok (s, [{ type := .hold, reason := "already closed" }])
  else
    let s := s.tick
    if stopHit bar.high bar.low s.currentStop s.bullish then
      .ok (s.close .stop, [{ type := .closeAll, reason := "initial_or_trail_stop_hit" }])
    else if s.timeStopCdMult * s.cdLegBars < s.barsHeld then
      .ok (s.close .timeStop, [{ type := .closeAll, reason := "time_stop" }])
    else
      match takeProfits bar (tpTargets s) s [] with
      | .error e => .error e
      | .ok (.returned s actions) => .ok (s, actions)
      | .ok (.left s actions) =>
        match chandelierRatchet bar s actions with
        | .error e => .error e
        | .ok (s, actions) =>
          .ok (s, if actions.isEmpty then [{ type := .hold, reason := "bar_no_event" }] else actions)

/-- `process_bar`. Its `@require`s repeat `__post_init__`, which every state has passed;
the `@ensure` is checked on the result. -/
def processBar (s : PositionState) (bar : Bar) : Except PyError (PositionState × List Action) :=
  match advance s bar with
  | .error e => .error e
  | .ok (t, actions) =>
    if !t.closed || t.closeReason.isSome then .ok (t, actions)
    else .error (.violation "not result[0].closed or result[0].close_reason is not None")

end Pyharmonics.Position
