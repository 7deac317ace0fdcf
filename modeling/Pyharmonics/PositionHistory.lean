import Pyharmonics.Library.Runs
import Pyharmonics.PositionManager
import Mathlib.Tactic

/-! What one bar can do to a managed position, and what that gives over bar histories. -/
namespace Pyharmonics.Position

variable {b : Bool} {x y : ℚ} {f g : PositionFields} {s t u : PositionState} {bar : Bar}
  {w as : List Action} {p : TpTarget} {l : List TpTarget}

/-- A price as the side sees it: larger is better. -/
def favour (bullish : Bool) (price : ℚ) : ℚ := if bullish then price else -price

/-- The bar's extreme on the side of the targets. -/
def Bar.best (bar : Bar) (bullish : Bool) : ℚ := if bullish then bar.high else bar.low

/-- The bar's extreme on the side of the stop. -/
def Bar.worst (bar : Bar) (bullish : Bool) : ℚ := if bullish then bar.low else bar.high

@[simp] theorem favour_true : favour true x = x := rfl

@[simp] theorem favour_false : favour false x = -x := rfl

theorem favour_injective (b : Bool) : Function.Injective (favour b) := by
  intro x y h
  cases b
  · simpa using h
  · simpa using h

theorem tpHit_iff : tpHit bar.high bar.low x b = true ↔ favour b x ≤ favour b (bar.best b) := by
  cases b <;> simp [tpHit, Bar.best]

namespace PositionFields

/-- The target is within the bar. -/
def Reaches (f : PositionFields) (bar : Bar) (price : ℚ) : Prop :=
  tpHit bar.high bar.low price f.bullish = true

def tick (f : PositionFields) : PositionFields := { f with barsHeld := f.barsHeld + 1 }

/-- The bar neither hits the stop in force nor runs out the clock of an open position. -/
structure Survives (f : PositionFields) (bar : Bar) : Prop where
  isOpen : f.closed = false
  stop : stopHit bar.high bar.low f.currentStop f.bullish = false
  time : ¬ f.timeStopCdMult * f.cdLegBars < f.barsHeld + 1

def shut (f : PositionFields) (reason : CloseReason) : PositionFields :=
  { f with closed := true, sizeRemaining := 0, closeReason := some reason }

def takeTp1 (f : PositionFields) (bar : Bar) : PositionFields :=
  { f with tp1Hit := true, sizeRemaining := f.sizeRemaining - 1 / 2, currentStop := f.entryPrice,
           chandelierHigh := if f.bullish then some bar.high else none,
           chandelierLow := if f.bullish then none else some bar.low }

def takeTp2 (f : PositionFields) : PositionFields :=
  { f with tp2Hit := true, sizeRemaining := f.sizeRemaining - 3 / 10, currentStop := f.tp1 }

def takeTp3 (f : PositionFields) : PositionFields := { f.shut .tp3 with tp3Hit := true }

/-- The extreme the Chandelier hangs from. -/
def extreme (f : PositionFields) : Option ℚ :=
  if f.bullish then f.chandelierHigh else f.chandelierLow

/-- The running extreme with this bar. -/
def reach (f : PositionFields) (bar : Bar) : ℚ :=
  if f.bullish then max (f.chandelierHigh.getD bar.high) bar.high
  else min (f.chandelierLow.getD bar.low) bar.low

def trail (f : PositionFields) (bar : Bar) : ℚ :=
  if f.bullish then f.reach bar - f.chandelierAtrMult * f.atr
  else f.reach bar + f.chandelierAtrMult * f.atr

/-- `a` is a strictly better stop than `c` for the side held. -/
def Better (f : PositionFields) (a c : ℚ) : Prop := favour f.bullish c < favour f.bullish a

instance (f : PositionFields) (a c : ℚ) : Decidable (f.Better a c) := by
  unfold Better
  infer_instance

def ratchet (f : PositionFields) (bar : Bar) : PositionFields :=
  { f with
    chandelierHigh := if f.bullish then some (f.reach bar) else f.chandelierHigh
    chandelierLow := if f.bullish then f.chandelierLow else some (f.reach bar)
    currentStop := if f.Better (f.trail bar) f.currentStop then f.trail bar else f.currentStop }

/-- The stop move the loop emits unless the stop is already there. -/
def moveTo (f : PositionFields) (newStop : ℚ) (reason : String) : List Action :=
  if newStop ≠ f.currentStop then [{ type := .moveStop, newStop := newStop, reason := reason }]
  else []

def actions1 (f : PositionFields) : List Action :=
  { type := .closePartial, sizePct := 1 / 2, reason := "tp1_hit" } ::
    f.moveTo f.entryPrice "after_tp1"

def actions2 (f : PositionFields) : List Action :=
  { type := .closePartial, sizePct := 3 / 10, reason := "tp2_hit" } :: f.moveTo f.tp1 "after_tp2"

def actions3 : List Action :=
  [{ type := .closePartial, sizePct := 1 / 5, reason := "tp3_hit" },
   { type := .closeAll, reason := "tp3_full_close" }]

def ratchetActions (f : PositionFields) (bar : Bar) : List Action :=
  if f.Better (f.trail bar) f.currentStop then
    [{ type := .moveStop, newStop := f.trail bar, reason := "chandelier_ratchet" }]
  else []

end PositionFields

/-- An empty action list is reported as a bar without event. -/
def orHold (actions : List Action) : List Action :=
  if actions.isEmpty then [{ type := .hold, reason := "bar_no_event" }] else actions

open PositionFields in
/-- Everything one bar can do to a position whose targets are taken in order. -/
inductive Outcome (f : PositionFields) (bar : Bar) : PositionFields → List Action → Prop
  | absorbed (hc : f.closed = true) :
      Outcome f bar f [{ type := .hold, reason := "already closed" }]
  | stopped (ho : f.closed = false)
      (hs : stopHit bar.high bar.low f.currentStop f.bullish = true) :
      Outcome f bar (f.tick.shut .stop)
        [{ type := .closeAll, reason := "initial_or_trail_stop_hit" }]
  | timedOut (ho : f.closed = false)
      (hs : stopHit bar.high bar.low f.currentStop f.bullish = false)
      (ht : f.timeStopCdMult * f.cdLegBars < f.barsHeld + 1) :
      Outcome f bar (f.tick.shut .timeStop) [{ type := .closeAll, reason := "time_stop" }]
  | waited (ho : f.Survives bar) (h1 : f.tp1Hit = false) (r1 : ¬ f.Reaches bar f.tp1) :
      Outcome f bar f.tick (orHold [])
  | trailed (ho : f.Survives bar) (h1 : f.tp1Hit = true)
      (r2 : f.tp2Hit = false → ¬ f.Reaches bar f.tp2)
      (r3 : f.tp2Hit = true → ¬ f.Reaches bar f.tp3) :
      Outcome f bar (f.tick.ratchet bar) (orHold (f.tick.ratchetActions bar))
  | took1 (ho : f.Survives bar) (h1 : f.tp1Hit = false) (r1 : f.Reaches bar f.tp1)
      (r2 : ¬ f.Reaches bar f.tp2) :
      Outcome f bar ((f.tick.takeTp1 bar).ratchet bar)
        (f.tick.actions1 ++ (f.tick.takeTp1 bar).ratchetActions bar)
  | took12 (ho : f.Survives bar) (h1 : f.tp1Hit = false) (r1 : f.Reaches bar f.tp1)
      (r2 : f.Reaches bar f.tp2) (r3 : ¬ f.Reaches bar f.tp3) :
      Outcome f bar ((f.tick.takeTp1 bar).takeTp2.ratchet bar)
        (f.tick.actions1 ++ (f.tick.takeTp1 bar).actions2 ++
          (f.tick.takeTp1 bar).takeTp2.ratchetActions bar)
  | took2 (ho : f.Survives bar) (h1 : f.tp1Hit = true) (h2 : f.tp2Hit = false)
      (r2 : f.Reaches bar f.tp2) (r3 : ¬ f.Reaches bar f.tp3) :
      Outcome f bar (f.tick.takeTp2.ratchet bar)
        (f.tick.actions2 ++ f.tick.takeTp2.ratchetActions bar)
  | took123 (ho : f.Survives bar) (h1 : f.tp1Hit = false) (r1 : f.Reaches bar f.tp1)
      (r2 : f.Reaches bar f.tp2) (r3 : f.Reaches bar f.tp3) :
      Outcome f bar (f.tick.takeTp1 bar).takeTp2.takeTp3
        (f.tick.actions1 ++ (f.tick.takeTp1 bar).actions2 ++ actions3)
  | took23 (ho : f.Survives bar) (h1 : f.tp1Hit = true) (h2 : f.tp2Hit = false)
      (r2 : f.Reaches bar f.tp2) (r3 : f.Reaches bar f.tp3) :
      Outcome f bar f.tick.takeTp2.takeTp3 (f.tick.actions2 ++ actions3)
  | took3 (ho : f.Survives bar) (h1 : f.tp1Hit = true) (h2 : f.tp2Hit = true)
      (r3 : f.Reaches bar f.tp3) :
      Outcome f bar f.tick.takeTp3 actions3

/-- The size the target flags and the closed flag determine. -/
def PositionFields.plannedSize (f : PositionFields) : ℚ :=
  if f.closed then 0 else if f.tp2Hit then 1 / 5 else if f.tp1Hit then 1 / 2 else 1

/-- The level below which the target flags keep the stop from falling. -/
def PositionFields.floor (f : PositionFields) : ℚ := if f.tp2Hit then f.tp1 else f.entryPrice

/-- Stop, entry and targets lie in order of favour, and the Chandelier hangs below its extreme. -/
structure Ladder (f : PositionFields) : Prop where
  stop_entry : favour f.bullish f.initialStop < favour f.bullish f.entryPrice
  entry_tp1 : favour f.bullish f.entryPrice < favour f.bullish f.tp1
  tp1_tp2 : favour f.bullish f.tp1 < favour f.bullish f.tp2
  tp2_tp3 : favour f.bullish f.tp2 < favour f.bullish f.tp3
  atr_pos : 0 < f.atr
  atrMult_nonneg : 0 ≤ f.chandelierAtrMult

/-- Targets are taken in order, and the flags say what is left and why it is closed. -/
structure Flags (f : PositionFields) : Prop where
  bars_nonneg : 0 ≤ f.barsHeld
  tp1_of_tp2 : f.tp2Hit = true → f.tp1Hit = true
  tp2_of_tp3 : f.tp3Hit = true → f.tp2Hit = true
  open_tp3 : f.closed = false → f.tp3Hit = false
  closed_reason : f.closed = f.closeReason.isSome
  size : f.sizeRemaining = f.plannedSize

/-- The invariant of a position on its way through the targets. While it is open the stop is
the initial one before TP1, and after it the better of the floor and the Chandelier. -/
structure Managed (f : PositionFields) : Prop extends Ladder f, Flags f where
  stop_before : f.closed = false → f.tp1Hit = false → f.currentStop = f.initialStop
  stop_after : f.closed = false → f.tp1Hit = true → ∃ e, f.extreme = some e ∧
    favour f.bullish f.currentStop =
      max (favour f.bullish f.floor) (favour f.bullish e - f.chandelierAtrMult * f.atr)

/-- The flags of a position nothing has happened to. -/
theorem flags_fresh (hbars : f.barsHeld = 0) (hsize : f.sizeRemaining = 1)
    (h1 : f.tp1Hit = false) (h2 : f.tp2Hit = false) (h3 : f.tp3Hit = false)
    (ho : f.closed = false) (hreason : f.closeReason = none) : Flags f where
  bars_nonneg := hbars.ge
  tp1_of_tp2 := by simp [h2]
  tp2_of_tp3 := by simp [h3]
  open_tp3 := fun _ => h3
  closed_reason := by simp [ho, hreason]
  size := by simp [PositionFields.plannedSize, hsize, ho, h1, h2]

theorem Flags.tp2_unhit (h : Flags f) (h1 : f.tp1Hit = false) : f.tp2Hit = false := by
  cases h2 : f.tp2Hit
  · rfl
  · exact absurd (h.tp1_of_tp2 h2) (by simp [h1])

theorem reaches_iff {price : ℚ} : f.Reaches bar price ↔
    favour f.bullish price ≤ favour f.bullish (bar.best f.bullish) := tpHit_iff

/-- A bar that reaches a target reaches every nearer one. -/
theorem Reaches.mono {price nearer : ℚ} (h : f.Reaches bar price)
    (hn : favour f.bullish nearer < favour f.bullish price) : f.Reaches bar nearer :=
  reaches_iff.mpr (hn.le.trans (reaches_iff.mp h))

theorem replaceSize_ok {size : ℚ} (h : 0 ≤ size ∧ size ≤ 1) :
    s.replaceSize size = .ok { s with sizeRemaining := size, size_mem := h } := dif_pos h

theorem takeProfits_skip (hh : s.hit p.name = true) :
    takeProfits bar (p :: l) s w = takeProfits bar l s w := by
  simp [takeProfits, hh]

theorem takeProfits_break (hh : s.hit p.name = false)
    (hr : tpHit bar.high bar.low p.price s.bullish = false) :
    takeProfits bar (p :: l) s w = .ok (.left s w) := by
  simp [takeProfits, hh, hr]

theorem stopAfter_of_levels {label : NextStop} (he : t.entryPrice = s.entryPrice)
    (h1 : t.tp1 = s.tp1) : t.stopAfter label = s.stopAfter label := by
  cases label
  · exact he
  · exact h1

theorem markHit_levels (s : PositionState) (bar : Bar) (name : Tp) :
    (s.markHit bar name).entryPrice = s.entryPrice ∧ (s.markHit bar name).tp1 = s.tp1 ∧
      (s.markHit bar name).currentStop = s.currentStop := by
  cases name <;> exact ⟨rfl, rfl, rfl⟩

/-- One round of the loop for a target with a next stop. -/
theorem takeProfits_move {label : NextStop} {size : ℚ} (hh : s.hit p.name = false)
    (hr : tpHit bar.high bar.low p.price s.bullish = true) (hl : p.nextStop = some label)
    (hs : (s.markHit bar p.name).sizeRemaining - p.closePct = size)
    (hz : 0 ≤ size ∧ size ≤ 1) :
    ∃ u : PositionState, u.toPositionFields = { (s.markHit bar p.name).toPositionFields with
        sizeRemaining := size
        currentStop := s.stopAfter label } ∧
      takeProfits bar (p :: l) s w = takeProfits bar l u (w ++
        { type := .closePartial, sizePct := p.closePct, reason := p.name.hitReason } ::
          s.moveTo (s.stopAfter label) p.name.afterReason) := by
  obtain ⟨he, h1, hc⟩ := markHit_levels s bar p.name
  let v : PositionState := { s.markHit bar p.name with sizeRemaining := size, size_mem := hz }
  have hv : v.stopAfter label = s.stopAfter label := stopAfter_of_levels he h1
  have hround : takeProfits bar (p :: l) s w =
      if v.stopAfter label ≠ v.currentStop then
        takeProfits bar l { v with currentStop := v.stopAfter label } (w ++
          [{ type := .closePartial, sizePct := p.closePct, reason := p.name.hitReason }] ++
          [{ type := .moveStop, newStop := v.stopAfter label, reason := p.name.afterReason }])
      else takeProfits bar l v (w ++
          [{ type := .closePartial, sizePct := p.closePct, reason := p.name.hitReason }]) := by
    simp only [takeProfits, hh, hr, hl, hs, replaceSize_ok hz, Bool.false_eq_true, if_false,
      Bool.not_true]
    rfl
  have hvc : v.currentStop = s.currentStop := hc
  rw [hround, hv, hvc, PositionFields.moveTo]
  by_cases hm : s.stopAfter label = s.currentStop
  · refine ⟨v, ?_, by simp [hm]⟩
    rw [hm, ← hvc]
  · exact ⟨{ v with currentStop := s.stopAfter label }, rfl, by simp [hm]⟩

theorem takeProfits_last (hh : s.tp3Hit = false) (hz : s.sizeRemaining = 1 / 5)
    (hr : s.Reaches bar x) : ∃ u : PositionState, u.toPositionFields = s.takeTp3 ∧
      takeProfits bar [⟨x, .tp3, 1 / 5, none⟩] s w =
        .ok (.returned u (w ++ PositionFields.actions3)) := by
  have hsize : s.sizeRemaining - 1 / 5 = 0 := by rw [hz]; norm_num
  refine ⟨(s.markHit bar .tp3).close .tp3, rfl, ?_⟩
  have hr' : tpHit bar.high bar.low x s.bullish = true := hr
  simp only [takeProfits, PositionState.hit, hh, hr', PositionState.markHit, hsize,
    replaceSize_ok ⟨le_rfl, zero_le_one⟩, Bool.false_eq_true, if_false, Bool.not_true]
  simp only [PositionFields.actions3, List.append_assoc, List.singleton_append]
  rfl

theorem chandelierRatchet_idle (h1 : s.tp1Hit = false) :
    chandelierRatchet bar s w = .ok (s, w) := by
  simp [chandelierRatchet, h1]

/-- After the first target the block always runs, and its extreme is always set. -/
theorem chandelierRatchet_trails (h1 : s.tp1Hit = true) (ho : s.closed = false)
    (hb : 0 < s.barsHeld) : ∃ u : PositionState, u.toPositionFields = s.ratchet bar ∧
      chandelierRatchet bar s w = .ok (u, w ++ s.ratchetActions bar) := by
  have htrail : chandelierStop (s.extend bar) = .ok (s.trail bar) := by
    cases hb : s.bullish <;>
      simp [chandelierStop, PositionState.extend, PositionFields.trail, PositionFields.reach, hb]
  have hbetter : ((s.bullish && decide (s.currentStop < s.trail bar)) ||
      (!s.bullish && decide (s.trail bar < s.currentStop))) =
        decide (s.Better (s.trail bar) s.currentStop) := by
    cases hb : s.bullish <;> simp [PositionFields.Better, hb]
  have hs : (s.extend bar).bullish = s.bullish ∧ (s.extend bar).currentStop = s.currentStop := by
    unfold PositionState.extend
    split <;> exact ⟨rfl, rfl⟩
  simp only [chandelierRatchet, h1, ho, hb, htrail, hs.1, hs.2, hbetter, Bool.not_false,
    decide_true, Bool.and_self, if_true, decide_eq_true_eq]
  by_cases hbt : s.Better (s.trail bar) s.currentStop
  · refine ⟨{ s.extend bar with currentStop := s.trail bar }, ?_, ?_⟩
    · simp only [PositionFields.ratchet, if_pos hbt, PositionState.extend]
      cases hb : s.bullish <;> simp [PositionFields.reach, hb]
    · simp [hbt, PositionFields.ratchetActions, hs.1]
  · refine ⟨s.extend bar, ?_, ?_⟩
    · simp only [PositionFields.ratchet, if_neg hbt]
      cases hb : s.bullish <;> simp [PositionState.extend, PositionFields.reach, hb]
    · simp [hbt, PositionFields.ratchetActions]

theorem advance_survives (h : s.Survives bar) : advance s bar =
    match takeProfits bar (tpTargets s.tick) s.tick [] with
    | .error e => .error e
    | .ok (.returned t as) => .ok (t, as)
    | .ok (.left t as) =>
      match chandelierRatchet bar t as with
      | .error e => .error e
      | .ok (t, as) => .ok (t, orHold as) := by
  have ho : ¬ s.closed = true := by simp [h.isOpen]
  have hs : ¬ stopHit bar.high bar.low s.tick.currentStop s.tick.bullish = true := by
    have := h.stop
    simpa [PositionState.tick] using this
  have ht : ¬ s.tick.timeStopCdMult * s.tick.cdLegBars < s.tick.barsHeld := by
    have := h.time
    simpa [PositionState.tick] using this
  rw [advance, if_neg ho]
  simp only [if_neg hs, if_neg ht]
  rfl

theorem processBar_of_advance (h : advance s bar = .ok (t, as))
    (hc : t.closed = true → t.closeReason.isSome = true) : processBar s bar = .ok (t, as) := by
  have : (!t.closed || t.closeReason.isSome) = true := by
    cases hcl : t.closed
    · rfl
    · simp [hc hcl]
  simp [processBar, h, this]

theorem processBar_returned (h : s.Survives bar)
    (ht : takeProfits bar (tpTargets s.tick) s.tick [] = .ok (.returned t as))
    (hr : t.closeReason = some .tp3) : processBar s bar = .ok (t, as) := by
  refine processBar_of_advance ?_ (fun _ => by simp [hr])
  rw [advance_survives h, ht]

theorem processBar_left (h : s.Survives bar)
    (ht : takeProfits bar (tpTargets s.tick) s.tick [] = .ok (.left t as))
    (h1 : t.tp1Hit = true) (ho : t.closed = false) (hb : 0 < t.barsHeld) :
    ∃ u : PositionState, u.toPositionFields = t.ratchet bar ∧
      processBar s bar = .ok (u, orHold (as ++ t.ratchetActions bar)) := by
  obtain ⟨u, hu, hr⟩ := chandelierRatchet_trails (w := as) h1 ho hb
  have huc : u.closed = false := by rw [hu]; exact ho
  refine ⟨u, hu, processBar_of_advance ?_ (by simp [huc])⟩
  rw [advance_survives h, ht]
  simp [hr]

theorem not_reaches_iff {price : ℚ} : ¬ f.Reaches bar price ↔
    tpHit bar.high bar.low price f.bullish = false := by
  simp [PositionFields.Reaches]

/-- The loop from the second target on, for a position that has taken the first. -/
theorem takeProfits_second {x y : ℚ} (h2 : s.tp2Hit = false) (hz : s.sizeRemaining = 1 / 2)
    (hr : s.Reaches bar x) : ∃ u : PositionState, u.toPositionFields = s.takeTp2 ∧
      takeProfits bar [⟨x, .tp2, 3 / 10, some .tp1⟩, ⟨y, .tp3, 1 / 5, none⟩] s w =
        takeProfits bar [⟨y, .tp3, 1 / 5, none⟩] u (w ++ s.actions2) := by
  have hs : (s.markHit bar .tp2).sizeRemaining - 3 / 10 = 1 / 5 := by
    change s.sizeRemaining - 3 / 10 = 1 / 5
    rw [hz]
    norm_num
  obtain ⟨u, hu, he⟩ := takeProfits_move (s := s) (w := w)
    (p := ⟨x, .tp2, 3 / 10, some .tp1⟩) (l := [⟨y, .tp3, 1 / 5, none⟩]) h2 hr rfl hs
    ⟨by norm_num, by norm_num⟩
  refine ⟨u, ?_, he⟩
  rw [hu, PositionFields.takeTp2, hz]
  norm_num [PositionState.markHit, PositionState.stopAfter]

/-- The loop from the first target on. -/
theorem takeProfits_first {x : ℚ} (h1 : s.tp1Hit = false) (hz : s.sizeRemaining = 1)
    (hr : s.Reaches bar x) : ∃ u : PositionState, u.toPositionFields = s.takeTp1 bar ∧
      takeProfits bar (⟨x, .tp1, 1 / 2, some .breakeven⟩ :: l) s w =
        takeProfits bar l u (w ++ s.actions1) := by
  have hs : (s.markHit bar .tp1).sizeRemaining - 1 / 2 = 1 / 2 := by
    change s.sizeRemaining - 1 / 2 = 1 / 2
    rw [hz]
    norm_num
  obtain ⟨u, hu, he⟩ := takeProfits_move (s := s) (w := w)
    (p := ⟨x, .tp1, 1 / 2, some .breakeven⟩) (l := l) h1 hr rfl hs
    ⟨by norm_num, by norm_num⟩
  refine ⟨u, ?_, he⟩
  rw [hu, PositionFields.takeTp1, hz]
  norm_num [PositionState.markHit, PositionState.stopAfter]

section Outcome

variable (hm : Flags s.toPositionFields) (ho : s.Survives bar)
include hm ho

theorem outcome_after_tp2 (h1 : s.tp1Hit = true) (h2 : s.tp2Hit = true) :
    ∃ u as, processBar s bar = .ok (u, as) ∧
      Outcome s.toPositionFields bar u.toPositionFields as := by
  have h3 := hm.open_tp3 ho.isOpen
  have hz : s.sizeRemaining = 1 / 5 := by
    rw [hm.size]
    simp [PositionFields.plannedSize, ho.isOpen, h2]
  have hskip : takeProfits bar (tpTargets s.tick) s.tick [] =
      takeProfits bar [⟨s.tp3, .tp3, 1 / 5, none⟩] s.tick [] :=
    (takeProfits_skip (s := s.tick) (p := ⟨s.tp1, .tp1, 1 / 2, some .breakeven⟩) h1).trans
      (takeProfits_skip (s := s.tick) (p := ⟨s.tp2, .tp2, 3 / 10, some .tp1⟩) h2)
  by_cases hr : s.Reaches bar s.tp3
  · obtain ⟨u, hu, ht⟩ := takeProfits_last (s := s.tick) (w := []) h3 hz hr
    refine ⟨u, _, processBar_returned ho (hskip.trans ht) (by rw [hu]; rfl), ?_⟩
    rw [hu]
    exact .took3 ho h1 h2 hr
  · have hbreak := takeProfits_break (s := s.tick) (w := []) (l := [])
      (p := ⟨s.tp3, .tp3, 1 / 5, none⟩) h3 (not_reaches_iff.mp hr)
    obtain ⟨u, hu, hp⟩ := processBar_left ho (hskip.trans hbreak) h1 ho.isOpen
      (by have := hm.bars_nonneg; change 0 < s.barsHeld + 1; omega)
    refine ⟨u, _, hp, ?_⟩
    rw [hu]
    exact .trailed ho h1 (by simp [h2]) (fun _ => hr)

theorem outcome_after_tp1 (h1 : s.tp1Hit = true) (h2 : s.tp2Hit = false) :
    ∃ u as, processBar s bar = .ok (u, as) ∧
      Outcome s.toPositionFields bar u.toPositionFields as := by
  have h3 := hm.open_tp3 ho.isOpen
  have hb : 0 < s.barsHeld + 1 := by have := hm.bars_nonneg; omega
  have hz : s.sizeRemaining = 1 / 2 := by
    rw [hm.size]
    simp [PositionFields.plannedSize, ho.isOpen, h1, h2]
  have hskip : takeProfits bar (tpTargets s.tick) s.tick [] =
      takeProfits bar [⟨s.tp2, .tp2, 3 / 10, some .tp1⟩, ⟨s.tp3, .tp3, 1 / 5, none⟩] s.tick [] :=
    takeProfits_skip (s := s.tick) (p := ⟨s.tp1, .tp1, 1 / 2, some .breakeven⟩) h1
  by_cases hr : s.Reaches bar s.tp2
  · obtain ⟨v, hv, ht⟩ := takeProfits_second (s := s.tick) (y := s.tp3) (w := []) h2 hz hr
    by_cases hr3 : s.Reaches bar s.tp3
    · have hvz : v.sizeRemaining = 1 / 5 := by
        rw [hv]
        change s.sizeRemaining - 3 / 10 = 1 / 5
        rw [hz]
        norm_num
      obtain ⟨u, hu, hl⟩ := takeProfits_last (s := v) (x := s.tp3)
        (w := s.tick.actions2) (by rw [hv]; exact h3) hvz (by rw [hv]; exact hr3)
      refine ⟨u, _, processBar_returned ho (hskip.trans (ht.trans hl)) (by rw [hu]; rfl), ?_⟩
      rw [hu, hv]
      exact .took23 ho h1 h2 hr hr3
    · have hbreak := takeProfits_break (s := v) (w := s.tick.actions2)
        (l := []) (p := ⟨s.tp3, .tp3, 1 / 5, none⟩) (by
          change v.tp3Hit = false
          rw [hv]
          exact h3) (by rw [hv]; exact not_reaches_iff.mp hr3)
      obtain ⟨u, hu, hp⟩ := processBar_left ho (hskip.trans (ht.trans hbreak))
        (by rw [hv]; exact h1) (by rw [hv]; exact ho.isOpen) (by rw [hv]; exact hb)
      refine ⟨u, _, hp, ?_⟩
      rw [hu, hv]
      exact .took2 ho h1 h2 hr hr3
  · have hbreak := takeProfits_break (s := s.tick) (w := [])
      (l := [⟨s.tp3, .tp3, 1 / 5, none⟩]) (p := ⟨s.tp2, .tp2, 3 / 10, some .tp1⟩) h2
      (not_reaches_iff.mp hr)
    obtain ⟨u, hu, hp⟩ := processBar_left ho (hskip.trans hbreak) h1 ho.isOpen hb
    refine ⟨u, _, hp, ?_⟩
    rw [hu]
    exact .trailed ho h1 (fun _ => hr) (by simp [h2])

omit hm in
theorem outcome_waits (h1 : s.tp1Hit = false) (hr : ¬ s.Reaches bar s.tp1) :
    ∃ u as, processBar s bar = .ok (u, as) ∧
      Outcome s.toPositionFields bar u.toPositionFields as := by
  have hbreak := takeProfits_break (s := s.tick) (w := [])
    (l := [⟨s.tp2, .tp2, 3 / 10, some .tp1⟩, ⟨s.tp3, .tp3, 1 / 5, none⟩])
    (p := ⟨s.tp1, .tp1, 1 / 2, some .breakeven⟩) h1 (not_reaches_iff.mp hr)
  have hleft : takeProfits bar (tpTargets s.tick) s.tick [] = .ok (.left s.tick []) := hbreak
  refine ⟨s.tick, orHold [], processBar_of_advance ?_ ?_, .waited ho h1 hr⟩
  · rw [advance_survives ho, hleft]
    simp only [chandelierRatchet_idle (s := s.tick) h1]
  · intro hc
    have hopen : s.tick.closed = false := ho.isOpen
    simp [hopen] at hc

/-- The loop behind the first target. -/
theorem takes_tp1 (h1 : s.tp1Hit = false) (hr : s.Reaches bar s.tp1) :
    ∃ v : PositionState, v.toPositionFields = s.tick.takeTp1 bar ∧ v.sizeRemaining = 1 / 2 ∧
      takeProfits bar (tpTargets s.tick) s.tick [] =
        takeProfits bar [⟨s.tp2, .tp2, 3 / 10, some .tp1⟩, ⟨s.tp3, .tp3, 1 / 5, none⟩] v s.tick.actions1 := by
  have hz : s.sizeRemaining = 1 := by
    rw [hm.size]
    simp [PositionFields.plannedSize, ho.isOpen, h1, hm.tp2_unhit h1]
  obtain ⟨v, hv, ht⟩ := takeProfits_first (s := s.tick) (w := [])
    (l := [⟨s.tp2, .tp2, 3 / 10, some .tp1⟩, ⟨s.tp3, .tp3, 1 / 5, none⟩]) h1 hz hr
  refine ⟨v, hv, ?_, ht⟩
  rw [hv]
  change s.sizeRemaining - 1 / 2 = 1 / 2
  rw [hz]
  norm_num

theorem outcome_takes1 (h1 : s.tp1Hit = false) (hr : s.Reaches bar s.tp1) (hr2 : ¬ s.Reaches bar s.tp2) :
    ∃ u as, processBar s bar = .ok (u, as) ∧
      Outcome s.toPositionFields bar u.toPositionFields as := by
  have hb : 0 < s.barsHeld + 1 := by have := hm.bars_nonneg; omega
  obtain ⟨v, hv, -, ht⟩ := takes_tp1 hm ho h1 hr
  have hbreak := takeProfits_break (s := v) (w := s.tick.actions1)
    (l := [⟨s.tp3, .tp3, 1 / 5, none⟩]) (p := ⟨s.tp2, .tp2, 3 / 10, some .tp1⟩) (by
      change v.tp2Hit = false
      rw [hv]
      exact hm.tp2_unhit h1) (by rw [hv]; exact not_reaches_iff.mp hr2)
  obtain ⟨u, hu, hp⟩ := processBar_left ho (ht.trans hbreak) (by rw [hv]; rfl)
    (by rw [hv]; exact ho.isOpen) (by rw [hv]; exact hb)
  refine ⟨u, _, hp, ?_⟩
  rw [hu, hv]
  exact .took1 ho h1 hr hr2

/-- The loop behind the second target. -/
theorem takes_tp12 (h1 : s.tp1Hit = false) (hr : s.Reaches bar s.tp1) (hr2 : s.Reaches bar s.tp2) :
    ∃ w : PositionState, w.toPositionFields = (s.tick.takeTp1 bar).takeTp2 ∧ w.sizeRemaining = 1 / 5 ∧
      takeProfits bar (tpTargets s.tick) s.tick [] = takeProfits bar [⟨s.tp3, .tp3, 1 / 5, none⟩] w
        (s.tick.actions1 ++ (s.tick.takeTp1 bar).actions2) := by
  obtain ⟨v, hv, hvz, ht⟩ := takes_tp1 hm ho h1 hr
  obtain ⟨w, hw, hl⟩ := takeProfits_second (s := v) (x := s.tp2) (y := s.tp3)
    (w := s.tick.actions1) (by rw [hv]; exact hm.tp2_unhit h1) hvz (by rw [hv]; exact hr2)
  rw [hv] at hw hl
  refine ⟨w, hw, ?_, ht.trans hl⟩
  rw [hw, ← hv]
  change v.sizeRemaining - 3 / 10 = 1 / 5
  rw [hvz]
  norm_num

theorem outcome_takes12 (h1 : s.tp1Hit = false) (hr : s.Reaches bar s.tp1) (hr2 : s.Reaches bar s.tp2)
    (hr3 : ¬ s.Reaches bar s.tp3) : ∃ u as, processBar s bar = .ok (u, as) ∧
      Outcome s.toPositionFields bar u.toPositionFields as := by
  have hb : 0 < s.barsHeld + 1 := by have := hm.bars_nonneg; omega
  obtain ⟨w, hw, -, ht⟩ := takes_tp12 hm ho h1 hr hr2
  have hbreak := takeProfits_break (s := w)
    (w := s.tick.actions1 ++ (s.tick.takeTp1 bar).actions2) (l := [])
    (p := ⟨s.tp3, .tp3, 1 / 5, none⟩) (by
      change w.tp3Hit = false
      rw [hw]
      exact hm.open_tp3 ho.isOpen) (by rw [hw]; exact not_reaches_iff.mp hr3)
  obtain ⟨u, hu, hp⟩ := processBar_left ho (ht.trans hbreak) (by rw [hw]; rfl)
    (by rw [hw]; exact ho.isOpen) (by rw [hw]; exact hb)
  refine ⟨u, _, hp, ?_⟩
  rw [hu, hw]
  exact .took12 ho h1 hr hr2 hr3

theorem outcome_takes123 (h1 : s.tp1Hit = false) (hr : s.Reaches bar s.tp1) (hr2 : s.Reaches bar s.tp2)
    (hr3 : s.Reaches bar s.tp3) : ∃ u as, processBar s bar = .ok (u, as) ∧
      Outcome s.toPositionFields bar u.toPositionFields as := by
  obtain ⟨w, hw, hwz, ht⟩ := takes_tp12 hm ho h1 hr hr2
  obtain ⟨u, hu, he⟩ := takeProfits_last (s := w) (x := s.tp3)
    (w := s.tick.actions1 ++ (s.tick.takeTp1 bar).actions2)
    (by rw [hw]; exact hm.open_tp3 ho.isOpen) hwz (by rw [hw]; exact hr3)
  refine ⟨u, _, processBar_returned ho (ht.trans he) (by rw [hu]; rfl), ?_⟩
  rw [hu, hw]
  exact .took123 ho h1 hr hr2 hr3

theorem outcome_before_tp1 (h1 : s.tp1Hit = false) :
    ∃ u as, processBar s bar = .ok (u, as) ∧
      Outcome s.toPositionFields bar u.toPositionFields as := by
  by_cases hr : s.Reaches bar s.tp1
  · by_cases hr2 : s.Reaches bar s.tp2
    · by_cases hr3 : s.Reaches bar s.tp3
      · exact outcome_takes123 hm ho h1 hr hr2 hr3
      · exact outcome_takes12 hm ho h1 hr hr2 hr3
    · exact outcome_takes1 hm ho h1 hr hr2
  · exact outcome_waits ho h1 hr

end Outcome

/-- While targets are taken in order `process_bar` never raises, and these are its successors. -/
theorem processBar_outcome (hm : Flags s.toPositionFields) (bar : Bar) :
    ∃ u as, processBar s bar = .ok (u, as) ∧
      Outcome s.toPositionFields bar u.toPositionFields as := by
  cases hc : s.closed with
  | true =>
    refine ⟨s, _, processBar_of_advance (by rw [advance, if_pos hc]) ?_, .absorbed hc⟩
    intro _
    rw [← hm.closed_reason, hc]
  | false =>
    have ho : ¬ s.closed = true := by simp [hc]
    cases hs : stopHit bar.high bar.low s.currentStop s.bullish with
    | true =>
      refine ⟨s.tick.close .stop, _, processBar_of_advance ?_ (fun _ => rfl), .stopped hc hs⟩
      rw [advance, if_neg ho]
      exact if_pos hs
    | false =>
      have hs' : ¬ stopHit bar.high bar.low s.tick.currentStop s.tick.bullish = true := by
        simpa [PositionState.tick] using hs
      by_cases ht : s.timeStopCdMult * s.cdLegBars < s.barsHeld + 1
      · have ht' : s.tick.timeStopCdMult * s.tick.cdLegBars < s.tick.barsHeld := by
          simpa [PositionState.tick] using ht
        refine ⟨s.tick.close .timeStop, _, processBar_of_advance ?_ (fun _ => rfl),
          .timedOut hc hs ht⟩
        rw [advance, if_neg ho]
        simp only [if_neg hs', if_pos ht']
      · have hv : s.Survives bar := ⟨hc, hs, ht⟩
        cases h1 : s.tp1Hit with
        | false => exact outcome_before_tp1 hm hv h1
        | true =>
          cases h2 : s.tp2Hit with
          | false => exact outcome_after_tp1 hm hv h1 h2
          | true => exact outcome_after_tp2 hm hv h1 h2

/-- The levels and multipliers that no bar changes. -/
structure SamePlan (f g : PositionFields) : Prop where
  bullish : g.bullish = f.bullish
  entryPrice : g.entryPrice = f.entryPrice
  initialStop : g.initialStop = f.initialStop
  tp1 : g.tp1 = f.tp1
  tp2 : g.tp2 = f.tp2
  tp3 : g.tp3 = f.tp3
  atr : g.atr = f.atr
  cdLegBars : g.cdLegBars = f.cdLegBars
  chandelierAtrMult : g.chandelierAtrMult = f.chandelierAtrMult
  timeStopCdMult : g.timeStopCdMult = f.timeStopCdMult

theorem outcome_samePlan (h : Outcome f bar g as) : SamePlan f g := by
  cases h <;> exact ⟨rfl, rfl, rfl, rfl, rfl, rfl, rfl, rfl, rfl, rfl⟩

theorem SamePlan.ladder (h : SamePlan f g) (hl : Ladder f) : Ladder g := by
  obtain ⟨h1, h2, h3, h4, h5, h6, h7, h8, h9, h10⟩ := h
  obtain ⟨l1, l2, l3, l4, l5, l6⟩ := hl
  exact ⟨by rwa [h1, h2, h3], by rwa [h1, h2, h4], by rwa [h1, h4, h5], by rwa [h1, h5, h6],
    by rwa [h7], by rwa [h9]⟩

theorem Flags.tick (h : Flags f) : Flags f.tick :=
  { h with bars_nonneg := Int.add_nonneg h.bars_nonneg zero_le_one }

theorem Flags.shut (h : Flags f) (reason : CloseReason) : Flags (f.shut reason) :=
  { h with
    open_tp3 := by simp [PositionFields.shut]
    closed_reason := rfl
    size := by simp [PositionFields.shut, PositionFields.plannedSize] }

theorem Flags.takeTp1 (h : Flags f) (ho : f.closed = false) (h1 : f.tp1Hit = false) :
    Flags (f.takeTp1 bar) := by
  have h2 := h.tp2_unhit h1
  refine { h with tp1_of_tp2 := fun _ => rfl, size := ?_ }
  have := h.size
  simp only [PositionFields.plannedSize, ho, h1, h2, Bool.false_eq_true, if_false] at this
  simp only [PositionFields.plannedSize, PositionFields.takeTp1, ho, h2, this, Bool.false_eq_true,
    if_false, if_true]
  norm_num

theorem Flags.takeTp2 (h : Flags f) (ho : f.closed = false) (h1 : f.tp1Hit = true)
    (h2 : f.tp2Hit = false) : Flags f.takeTp2 := by
  refine { h with tp1_of_tp2 := fun _ => h1, tp2_of_tp3 := fun _ => rfl, size := ?_ }
  have := h.size
  simp only [PositionFields.plannedSize, ho, h1, h2, Bool.false_eq_true, if_false, if_true] at this
  simp only [PositionFields.plannedSize, PositionFields.takeTp2, ho, this, Bool.false_eq_true,
    if_false, if_true]
  norm_num

theorem Flags.takeTp3 (h : Flags f) (h2 : f.tp2Hit = true) : Flags f.takeTp3 :=
  { h.shut .tp3 with
    tp2_of_tp3 := fun _ => h2
    open_tp3 := by simp [PositionFields.takeTp3, PositionFields.shut] }

theorem Flags.ratchet (h : Flags f) : Flags (f.ratchet bar) := { h with }

theorem outcome_flags (h : Outcome f bar g as) (hf : Flags f) : Flags g := by
  cases h with
  | absorbed hc => exact hf
  | stopped ho hs => exact hf.tick.shut .stop
  | timedOut ho hs ht => exact hf.tick.shut .timeStop
  | waited ho h1 r1 => exact hf.tick
  | trailed ho h1 r2 r3 => exact hf.tick.ratchet
  | took1 ho h1 r1 r2 => exact (hf.tick.takeTp1 ho.isOpen h1).ratchet
  | took12 ho h1 r1 r2 r3 =>
    exact ((hf.tick.takeTp1 ho.isOpen h1).takeTp2 ho.isOpen rfl (hf.tp2_unhit h1)).ratchet
  | took2 ho h1 h2 r2 r3 => exact (hf.tick.takeTp2 ho.isOpen h1 h2).ratchet
  | took123 ho h1 r1 r2 r3 =>
    exact ((hf.tick.takeTp1 ho.isOpen h1).takeTp2 ho.isOpen rfl (hf.tp2_unhit h1)).takeTp3 rfl
  | took23 ho h1 h2 r2 r3 => exact (hf.tick.takeTp2 ho.isOpen h1 h2).takeTp3 rfl
  | took3 ho h1 h2 r3 => exact hf.tick.takeTp3 h2

theorem favour_reach : favour f.bullish (f.reach bar) =
    max (favour f.bullish (f.extreme.getD (bar.best f.bullish)))
      (favour f.bullish (bar.best f.bullish)) := by
  cases hb : f.bullish
  · simp [PositionFields.reach, PositionFields.extreme, Bar.best, hb, max_neg_neg]
  · simp [PositionFields.reach, PositionFields.extreme, Bar.best, hb]

theorem favour_trail : favour f.bullish (f.trail bar) =
    favour f.bullish (f.reach bar) - f.chandelierAtrMult * f.atr := by
  cases hb : f.bullish
  · simp only [PositionFields.trail, hb, favour_false, Bool.false_eq_true, if_false]
    ring
  · simp [PositionFields.trail, hb]

theorem ratchet_extreme : (f.ratchet bar).extreme = some (f.reach bar) := by
  cases hb : f.bullish <;> simp [PositionFields.extreme, PositionFields.ratchet, hb]

/-- The block leaves the better of the stop in force and the trail. -/
theorem ratchet_stop : favour f.bullish (f.ratchet bar).currentStop =
    max (favour f.bullish f.currentStop) (favour f.bullish (f.trail bar)) := by
  by_cases h : f.Better (f.trail bar) f.currentStop
  · rw [PositionFields.ratchet, if_pos h, max_eq_right (le_of_lt h)]
  · rw [PositionFields.ratchet, if_neg h, max_eq_left (not_lt.mp h)]

/-- The running extreme only improves, so the trail repairs a stop put back to its floor. -/
theorem ratchet_keeps_floor
    (hs : favour f.bullish f.currentStop = favour f.bullish f.floor ∨
      ∃ e, f.extreme = some e ∧ favour f.bullish f.currentStop =
        max (favour f.bullish f.floor) (favour f.bullish e - f.chandelierAtrMult * f.atr)) :
    ∃ e, (f.ratchet bar).extreme = some e ∧ favour f.bullish (f.ratchet bar).currentStop =
      max (favour f.bullish f.floor) (favour f.bullish e - f.chandelierAtrMult * f.atr) := by
  refine ⟨f.reach bar, ratchet_extreme, ?_⟩
  rw [ratchet_stop, favour_trail]
  rcases hs with hs | ⟨e, he, hs⟩
  · rw [hs]
  · have hreach : favour f.bullish e ≤ favour f.bullish (f.reach bar) := by
      rw [favour_reach, he]
      exact le_max_left _ _
    rw [hs, max_assoc, max_eq_right (sub_le_sub_right hreach _)]

theorem managed_closed (hl : Ladder g) (hf : Flags g) (hc : g.closed = true) : Managed g :=
  ⟨hl, hf, by simp [hc], by simp [hc]⟩

theorem managed_trailed (hl : Ladder (f.ratchet bar)) (hf : Flags (f.ratchet bar))
    (h1 : f.tp1Hit = true)
    (hs : favour f.bullish f.currentStop = favour f.bullish f.floor ∨
      ∃ e, f.extreme = some e ∧ favour f.bullish f.currentStop =
        max (favour f.bullish f.floor) (favour f.bullish e - f.chandelierAtrMult * f.atr)) :
    Managed (f.ratchet bar) := by
  refine ⟨hl, hf, fun _ h => ?_, fun _ _ => ratchet_keeps_floor hs⟩
  have : f.tp1Hit = false := h
  simp [h1] at this

theorem outcome_managed (h : Outcome f bar g as) (hm : Managed f) : Managed g := by
  have hl := (outcome_samePlan h).ladder hm.toLadder
  have hf := outcome_flags h hm.toFlags
  cases h with
  | absorbed hc => exact hm
  | stopped ho hs => exact managed_closed hl hf rfl
  | timedOut ho hs ht => exact managed_closed hl hf rfl
  | waited ho h1 r1 => exact ⟨hl, hf, hm.stop_before, hm.stop_after⟩
  | trailed ho h1 r2 r3 => exact managed_trailed hl hf h1 (Or.inr (hm.stop_after ho.isOpen h1))
  | took1 ho h1 r1 r2 =>
    refine managed_trailed hl hf rfl (Or.inl ?_)
    simp [PositionFields.takeTp1, PositionFields.floor, PositionFields.tick, hm.tp2_unhit h1]
  | took12 ho h1 r1 r2 r3 => exact managed_trailed hl hf rfl (Or.inl rfl)
  | took2 ho h1 h2 r2 r3 => exact managed_trailed hl hf h1 (Or.inl rfl)
  | took123 ho h1 r1 r2 r3 => exact managed_closed hl hf rfl
  | took23 ho h1 h2 r2 r3 => exact managed_closed hl hf rfl
  | took3 ho h1 h2 r3 => exact managed_closed hl hf rfl

end Pyharmonics.Position
