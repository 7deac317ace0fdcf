import Pyharmonics.PositionRuns

/-! A consumer that only sees the actions keeps the size and the stop of the position. -/
namespace Pyharmonics.Position

open Runs

variable {f g : PositionFields} {s t u : PositionState} {bar : Bar} {bars : List Bar}
  {as bs : List Action} {l : Ledger}

/-- What the consumer knows: the size and stop in force, and what has been closed how. -/
structure Ledger where
  size : ℚ
  stop : ℚ
  closedByPartials : ℚ := 0
  closeAlls : ℕ := 0

/-- The ledger of a position as it is opened. -/
def Ledger.opening (f : PositionFields) : Ledger := { size := f.sizeRemaining, stop := f.currentStop }

def Ledger.apply (l : Ledger) (a : Action) : Ledger :=
  match a.type with
  | .hold => l
  | .closePartial =>
    { l with size := l.size - a.sizePct, closedByPartials := l.closedByPartials + a.sizePct }
  | .moveStop => { l with stop := a.newStop }
  | .closeAll => { l with size := 0, closeAlls := l.closeAlls + 1 }

/-- The share of the position the targets hit so far have closed. -/
def PositionFields.taken (f : PositionFields) : ℚ :=
  if f.tp3Hit then 1 else if f.tp2Hit then 4 / 5 else if f.tp1Hit then 1 / 2 else 0

/-- The ledger agrees with the position. -/
structure Mirrors (f : PositionFields) (l : Ledger) : Prop where
  size : l.size = f.sizeRemaining
  stop : f.closed = false → l.stop = f.currentStop
  partials : l.closedByPartials = f.taken
  closeAlls : l.closeAlls = if f.closed then 1 else 0

theorem mirrors_opening (h : Opened f) : Mirrors f (Ledger.opening f) where
  size := rfl
  stop := fun _ => rfl
  partials := by simp [Ledger.opening, PositionFields.taken, h.tp1, h.tp2, h.tp3]
  closeAlls := by simp [Ledger.opening, h.isOpen]

theorem taken_le_one : f.taken ≤ 1 := by
  unfold PositionFields.taken
  split_ifs <;> norm_num

@[simp] theorem foldl_moveTo {x : ℚ} {r : String} (hs : l.stop = f.currentStop) :
    (f.moveTo x r).foldl Ledger.apply l = { l with stop := x } := by
  unfold PositionFields.moveTo
  split_ifs with h
  · rfl
  · rw [not_not.mp h, ← hs]
    rfl

@[simp] theorem foldl_orHold : (orHold as).foldl Ledger.apply l = as.foldl Ledger.apply l := by
  cases as <;> rfl

theorem mirrors_ratchet (h : Mirrors f l) (ho : f.closed = false) :
    Mirrors (f.ratchet bar) ((f.ratchetActions bar).foldl Ledger.apply l) := by
  unfold PositionFields.ratchetActions
  split_ifs with hb
  · refine ⟨h.size, fun _ => ?_, h.partials, h.closeAlls⟩
    simp [PositionFields.ratchet, if_pos hb, Ledger.apply]
  · refine ⟨h.size, fun _ => ?_, h.partials, h.closeAlls⟩
    simpa [PositionFields.ratchet, if_neg hb] using h.stop ho

theorem mirrors_tick (h : Mirrors f l) : Mirrors f.tick l := { h with }

theorem mirrors_shut {reason : CloseReason} {r : String} (h : Mirrors f l)
    (ho : f.closed = false) :
    Mirrors (f.shut reason) (l.apply { type := .closeAll, reason := r }) where
  size := rfl
  stop := by simp [PositionFields.shut]
  partials := h.partials
  closeAlls := by simp [Ledger.apply, h.closeAlls, ho, PositionFields.shut]

theorem mirrors_takeTp1 (h : Mirrors f l) (hf : Flags f) (ho : f.closed = false)
    (h1 : f.tp1Hit = false) : Mirrors (f.takeTp1 bar) (f.actions1.foldl Ledger.apply l) := by
  have h2 := hf.tp2_unhit h1
  have h3 := hf.open_tp3 ho
  rw [PositionFields.actions1, List.foldl_cons, foldl_moveTo (by simpa [Ledger.apply] using h.stop ho)]
  refine ⟨?_, fun _ => rfl, ?_, h.closeAlls⟩
  · simp [Ledger.apply, PositionFields.takeTp1, h.size]
  · simp [Ledger.apply, PositionFields.takeTp1, PositionFields.taken, h.partials, h1, h2, h3]

theorem mirrors_takeTp2 (h : Mirrors f l) (hf : Flags f) (ho : f.closed = false)
    (h1 : f.tp1Hit = true) (h2 : f.tp2Hit = false) :
    Mirrors f.takeTp2 (f.actions2.foldl Ledger.apply l) := by
  have h3 := hf.open_tp3 ho
  rw [PositionFields.actions2, List.foldl_cons, foldl_moveTo (by simpa [Ledger.apply] using h.stop ho)]
  refine ⟨?_, fun _ => rfl, ?_, h.closeAlls⟩
  · simp [Ledger.apply, PositionFields.takeTp2, h.size]
  · simp [Ledger.apply, PositionFields.takeTp2, PositionFields.taken, h.partials, h1, h2, h3]
    norm_num

theorem mirrors_takeTp3 (h : Mirrors f l) (hf : Flags f) (ho : f.closed = false)
    (h2 : f.tp2Hit = true) :
    Mirrors f.takeTp3 (PositionFields.actions3.foldl Ledger.apply l) := by
  have h3 := hf.open_tp3 ho
  refine ⟨rfl, by simp [PositionFields.takeTp3, PositionFields.shut], ?_, ?_⟩
  · simp [Ledger.apply, PositionFields.actions3, PositionFields.takeTp3, PositionFields.taken,
      h.partials, h2, h3]
    norm_num
  · simp [Ledger.apply, PositionFields.actions3, PositionFields.takeTp3, PositionFields.shut,
      h.closeAlls, ho]

theorem outcome_mirrors (h : Outcome f bar g as) (hf : Flags f) (hl : Mirrors f l) :
    Mirrors g (as.foldl Ledger.apply l) := by
  have hk := mirrors_tick hl
  have hft := hf.tick
  cases h with
  | absorbed hc => exact hl
  | stopped ho hs => exact mirrors_shut (r := "initial_or_trail_stop_hit") hk ho
  | timedOut ho hs ht => exact mirrors_shut (r := "time_stop") hk ho
  | waited ho h1 r1 => exact hk
  | trailed ho h1 r2 r3 =>
    rw [foldl_orHold]
    exact mirrors_ratchet hk ho.isOpen
  | took1 ho h1 r1 r2 =>
    rw [List.foldl_append]
    exact mirrors_ratchet (mirrors_takeTp1 hk hft ho.isOpen h1) ho.isOpen
  | took12 ho h1 r1 r2 r3 =>
    rw [List.foldl_append, List.foldl_append]
    exact mirrors_ratchet (mirrors_takeTp2 (mirrors_takeTp1 hk hft ho.isOpen h1)
      (hft.takeTp1 ho.isOpen h1) ho.isOpen rfl (hf.tp2_unhit h1)) ho.isOpen
  | took2 ho h1 h2 r2 r3 =>
    rw [List.foldl_append]
    exact mirrors_ratchet (mirrors_takeTp2 hk hft ho.isOpen h1 h2) ho.isOpen
  | took123 ho h1 r1 r2 r3 =>
    have hf1 : Flags (f.tick.takeTp1 bar) := hft.takeTp1 ho.isOpen h1
    rw [List.foldl_append, List.foldl_append]
    exact mirrors_takeTp3 (mirrors_takeTp2 (mirrors_takeTp1 hk hft ho.isOpen h1) hf1 ho.isOpen
      rfl (hf.tp2_unhit h1)) (hf1.takeTp2 ho.isOpen rfl (hf.tp2_unhit h1)) ho.isOpen rfl
  | took23 ho h1 h2 r2 r3 =>
    rw [List.foldl_append]
    exact mirrors_takeTp3 (mirrors_takeTp2 hk hft ho.isOpen h1 h2)
      (hft.takeTp2 ho.isOpen h1 h2) ho.isOpen rfl
  | took3 ho h1 h2 r3 => exact mirrors_takeTp3 hk hft ho.isOpen h2

/-- Replaying a run on the ledger reproduces the position; at most the whole of it is closed by
partials, and a run that closes says so once. -/
theorem ledger_mirrors (bars : List Bar) (h : Opened s.toPositionFields) :
    ∃ t as, run processBar s bars = .ok (t, as) ∧
      (as.foldl Ledger.apply (Ledger.opening s.toPositionFields)).size = t.sizeRemaining ∧
      (t.closed = false →
        (as.foldl Ledger.apply (Ledger.opening s.toPositionFields)).stop = t.currentStop) ∧
      (as.foldl Ledger.apply (Ledger.opening s.toPositionFields)).closedByPartials ≤ 1 ∧
      (as.foldl Ledger.apply (Ledger.opening s.toPositionFields)).closeAlls =
        if t.closed then 1 else 0 := by
  obtain ⟨t, as, hr, -⟩ := h.run bars
  have hm : Mirrors t.toPositionFields
      (as.foldl Ledger.apply (Ledger.opening s.toPositionFields)) := by
    refine run_simulates (I := fun s : PositionState => Flags s.toPositionFields)
      (F := fun _ => True) (R := fun s l => Mirrors s.toPositionFields l)
      (fun s bar u as l hf _ hl hp => ?_) h.managed.toFlags (fun _ _ => trivial)
      (mirrors_opening h) hr
    have ho := processBar_step hf hp
    exact ⟨outcome_flags ho hf, outcome_mirrors ho hf hl⟩
  exact ⟨t, as, hr, hm.size, hm.stop, hm.partials.trans_le taken_le_one, hm.closeAlls⟩

/-- A run through all three targets. -/
theorem longState_ledger : Opened longState.toPositionFields ∧
    ∃ t as, run processBar longState [strongBar, tp2Bar, gapBar] = .ok (t, as) ∧
      (as.foldl Ledger.apply (Ledger.opening longState.toPositionFields)).closedByPartials ≤ 1 ∧
      (as.foldl Ledger.apply (Ledger.opening longState.toPositionFields)).closeAlls =
        if t.closed then 1 else 0 := by
  obtain ⟨t, as, hr, -, -, hp, hc⟩ :=
    ledger_mirrors [strongBar, tp2Bar, gapBar] longState_opened
  exact ⟨longState_opened, t, as, hr, hp, hc⟩

end Pyharmonics.Position
