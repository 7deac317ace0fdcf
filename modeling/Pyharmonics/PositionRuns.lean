import Pyharmonics.PositionHistory

/-! Whole bar histories of a position opened afresh: invariants, stop moves and the ledger. -/
namespace Pyharmonics.Position

open Runs

variable {f g : PositionFields} {s t u : PositionState} {bar : Bar} {bars : List Bar}
  {actions as bs : List Action} {x : ℚ}

/-- A position as it is opened: nothing taken, nothing held, the stop at its first level. -/
structure Opened (f : PositionFields) : Prop extends Ladder f where
  stop : f.currentStop = f.initialStop
  timeMult_nonneg : 0 ≤ f.timeStopCdMult
  bars : f.barsHeld = 0
  size : f.sizeRemaining = 1
  tp1 : f.tp1Hit = false
  tp2 : f.tp2Hit = false
  tp3 : f.tp3Hit = false
  isOpen : f.closed = false
  reason : f.closeReason = none

theorem Opened.managed (h : Opened f) : Managed f where
  toLadder := h.toLadder
  toFlags := flags_fresh h.bars h.size h.tp1 h.tp2 h.tp3 h.isOpen h.reason
  stop_before := fun _ _ => h.stop
  stop_after := by simp [h.tp1]

/-- What holds of every state of a run. -/
structure SoundState (f : PositionFields) : Prop where
  tp2_of_tp3 : f.tp3Hit = true → f.tp2Hit = true
  tp1_of_tp2 : f.tp2Hit = true → f.tp1Hit = true
  size : f.sizeRemaining = f.plannedSize
  closed_iff : f.closed = true ↔ f.sizeRemaining = 0 ∧ f.closeReason.isSome = true
  breakeven : f.tp1Hit = true → f.closed = false →
    favour f.bullish f.entryPrice ≤ favour f.bullish f.currentStop

/-- The stop has not moved against the position. -/
def KeepsStop (f g : PositionFields) : Prop :=
  favour f.bullish f.currentStop ≤ favour f.bullish g.currentStop

theorem Managed.entry_le_stop (h : Managed f) (h1 : f.tp1Hit = true) (ho : f.closed = false) :
    favour f.bullish f.entryPrice ≤ favour f.bullish f.currentStop := by
  obtain ⟨e, -, hs⟩ := h.stop_after ho h1
  have hfloor : favour f.bullish f.entryPrice ≤ favour f.bullish f.floor := by
    unfold PositionFields.floor
    split
    · exact h.entry_tp1.le
    · exact le_rfl
  rw [hs]
  exact hfloor.trans (le_max_left _ _)

theorem Managed.sound (h : Managed f) : SoundState f where
  tp2_of_tp3 := h.tp2_of_tp3
  tp1_of_tp2 := h.tp1_of_tp2
  size := h.size
  breakeven := h.entry_le_stop
  closed_iff := by
    have hz := h.size
    cases hc : f.closed with
    | true => simpa [PositionFields.plannedSize, hc, h.closed_reason.symm] using hz
    | false =>
      have : 0 < f.sizeRemaining := by
        rw [hz]
        simp only [PositionFields.plannedSize, hc, Bool.false_eq_true, if_false]
        split_ifs <;> norm_num
      simp [this.ne']

/-- The bar takes the second target while the stop in force is already beyond the first. -/
structure RetreatsAtTp2 (f : PositionFields) (bar : Bar) : Prop where
  survives : f.Survives bar
  tp1 : f.tp1Hit = true
  tp2 : f.tp2Hit = false
  reaches : f.Reaches bar f.tp2
  beyond : f.Better f.currentStop f.tp1

/-- The same bar goes on to take the third, so that no trail restores the stop. -/
structure DropsAtTp3 (f : PositionFields) (bar : Bar) : Prop extends RetreatsAtTp2 f bar where
  reaches_tp3 : f.Reaches bar f.tp3

theorem keepsStop_ratchet (h : favour f.bullish g.currentStop ≤ favour f.bullish f.currentStop) :
    favour f.bullish g.currentStop ≤ favour f.bullish (f.ratchet bar).currentStop := by
  rw [ratchet_stop]
  exact h.trans (le_max_left _ _)

/-- The transient return to TP1 is repaired by the trail of the same bar. -/
theorem keepsStop_took2 (hm : Managed f) (ho : f.closed = false) (h1 : f.tp1Hit = true)
    (h2 : f.tp2Hit = false) : favour f.bullish f.currentStop ≤
      favour f.bullish (f.tick.takeTp2.ratchet bar).currentStop := by
  obtain ⟨e, he, hs⟩ := hm.stop_after ho h1
  have hreach : favour f.bullish e ≤ favour f.bullish (f.tick.takeTp2.reach bar) := by
    have hex : f.tick.takeTp2.extreme = some e := he
    refine le_of_le_of_eq ?_ (favour_reach (f := f.tick.takeTp2)).symm
    rw [hex]
    exact le_max_left _ _
  have hstop : favour f.bullish (f.tick.takeTp2.ratchet bar).currentStop =
      max (favour f.bullish f.tp1) (favour f.bullish (f.tick.takeTp2.reach bar) -
        f.chandelierAtrMult * f.atr) := by
    refine (ratchet_stop (f := f.tick.takeTp2)).trans ?_
    rw [favour_trail]
    rfl
  rw [hs, hstop, PositionFields.floor, if_neg (by simp [h2])]
  exact max_le_max hm.entry_tp1.le (sub_le_sub_right hreach _)

/-- The stop worsens only when a bar takes the last two targets past a higher trail. -/
theorem outcome_keepsStop (h : Outcome f bar g as) (hm : Managed f) :
    KeepsStop f g ↔ ¬ DropsAtTp3 f bar := by
  cases h with
  | absorbed hc =>
    refine iff_of_true le_rfl ?_
    intro d
    have := d.survives.isOpen
    simp [hc] at this
  | stopped ho hs =>
    refine iff_of_true le_rfl ?_
    intro d
    have := d.survives.stop
    simp [hs] at this
  | timedOut ho hs ht => exact iff_of_true le_rfl (fun d => d.survives.time ht)
  | waited ho h1 r1 =>
    refine iff_of_true le_rfl ?_
    intro d
    have := d.tp1
    simp [h1] at this
  | trailed ho h1 r2 r3 =>
    exact iff_of_true (keepsStop_ratchet (f := f.tick) le_rfl) (fun d => r2 d.tp2 d.reaches)
  | took1 ho h1 r1 r2 =>
    refine iff_of_true (keepsStop_ratchet (f := f.tick.takeTp1 bar) (g := f) ?_)
      (fun d => r2 d.reaches)
    rw [hm.stop_before ho.isOpen h1]
    exact hm.stop_entry.le
  | took12 ho h1 r1 r2 r3 =>
    refine iff_of_true (keepsStop_ratchet (f := (f.tick.takeTp1 bar).takeTp2) (g := f) ?_)
      (fun d => r3 d.reaches_tp3)
    rw [hm.stop_before ho.isOpen h1]
    exact (hm.stop_entry.trans hm.entry_tp1).le
  | took2 ho h1 h2 r2 r3 =>
    exact iff_of_true (keepsStop_took2 hm ho.isOpen h1 h2) (fun d => r3 d.reaches_tp3)
  | took123 ho h1 r1 r2 r3 =>
    refine iff_of_true ?_ (fun d => ?_)
    · rw [KeepsStop, hm.stop_before ho.isOpen h1]
      exact (hm.stop_entry.trans hm.entry_tp1).le
    · have := d.tp1
      simp [h1] at this
  | took23 ho h1 h2 r2 r3 =>
    constructor
    · intro hk d
      exact absurd d.beyond (not_lt.mpr hk)
    · intro hd
      by_contra hk
      exact hd ⟨⟨ho, h1, h2, r2, not_le.mp hk⟩, r3⟩
  | took3 ho h1 h2 r3 =>
    refine iff_of_true le_rfl ?_
    intro d
    have := d.tp2
    simp [h2] at this

/-! Stop moves in the order they are emitted. -/

/-- Every stop move is a strict improvement on the stop the earlier ones left. -/
def MovesForward (bullish : Bool) : ℚ → List Action → Prop
  | _, [] => True
  | stop, a :: rest =>
    if a.type = .moveStop then
      favour bullish stop < favour bullish a.newStop ∧ MovesForward bullish a.newStop rest
    else MovesForward bullish stop rest

theorem movesForward_moveTo {r : String} :
    MovesForward f.bullish f.currentStop (f.moveTo x r ++ as) ↔
      favour f.bullish f.currentStop ≤ favour f.bullish x ∧ MovesForward f.bullish x as := by
  unfold PositionFields.moveTo
  split_ifs with h
  · have hne : favour f.bullish f.currentStop ≠ favour f.bullish x :=
      fun he => h (favour_injective _ he).symm
    simp [MovesForward, lt_iff_le_and_ne, hne]
  · have he : x = f.currentStop := not_not.mp h
    simp [he]

theorem movesForward_ratchet : MovesForward f.bullish f.currentStop (f.ratchetActions bar) := by
  unfold PositionFields.ratchetActions
  split_ifs with h
  · exact ⟨h, trivial⟩
  · trivial

theorem movesForward_orHold {b : Bool} : MovesForward b x (orHold as) ↔ MovesForward b x as := by
  cases as with
  | nil => simp [orHold, MovesForward]
  | cons a as => simp [orHold]

theorem movesForward_actions1 : MovesForward f.bullish f.currentStop (f.actions1 ++ as) ↔
    favour f.bullish f.currentStop ≤ favour f.bullish f.entryPrice ∧
      MovesForward f.bullish f.entryPrice as := by
  rw [← movesForward_moveTo (r := "after_tp1")]
  simp [PositionFields.actions1, MovesForward]

theorem movesForward_actions2 : MovesForward f.bullish f.currentStop (f.actions2 ++ as) ↔
    favour f.bullish f.currentStop ≤ favour f.bullish f.tp1 ∧
      MovesForward f.bullish f.tp1 as := by
  rw [← movesForward_moveTo (r := "after_tp2")]
  simp [PositionFields.actions2, MovesForward]

theorem movesForward_actions3 {b : Bool} : MovesForward b x PositionFields.actions3 := by
  simp [MovesForward, PositionFields.actions3]

theorem Managed.stop_le_entry (hm : Managed f) (ho : f.closed = false) (h1 : f.tp1Hit = false) :
    favour f.bullish f.currentStop ≤ favour f.bullish f.entryPrice := by
  rw [hm.stop_before ho h1]
  exact hm.stop_entry.le

theorem stop_le_tp1_iff (ho : f.Survives bar) (h1 : f.tp1Hit = true) (h2 : f.tp2Hit = false)
    (r2 : f.Reaches bar f.tp2) :
    favour f.bullish f.currentStop ≤ favour f.bullish f.tp1 ↔ ¬ RetreatsAtTp2 f bar :=
  ⟨fun h d => not_lt.mpr h d.beyond, fun h => not_lt.mp (fun hb => h ⟨ho, h1, h2, r2, hb⟩)⟩

/-- A bar moves the stop back exactly when it takes TP2 with the trail already beyond TP1. -/
theorem outcome_movesForward (h : Outcome f bar g as) (hm : Managed f) :
    MovesForward f.bullish f.currentStop as ↔ ¬ RetreatsAtTp2 f bar := by
  cases h with
  | absorbed hc =>
    refine iff_of_true (by simp [MovesForward]) ?_
    intro d
    have := d.survives.isOpen
    simp [hc] at this
  | stopped ho hs =>
    refine iff_of_true (by simp [MovesForward]) ?_
    intro d
    have := d.survives.stop
    simp [hs] at this
  | timedOut ho hs ht =>
    exact iff_of_true (by simp [MovesForward]) (fun d => d.survives.time ht)
  | waited ho h1 r1 =>
    refine iff_of_true (by simp [MovesForward, orHold]) ?_
    intro d
    have := d.tp1
    simp [h1] at this
  | trailed ho h1 r2 r3 =>
    exact iff_of_true (movesForward_orHold.mpr (movesForward_ratchet (f := f.tick)))
      (fun d => r2 d.tp2 d.reaches)
  | took1 ho h1 r1 r2 =>
    refine iff_of_true ((movesForward_actions1 (f := f.tick)).mpr ⟨?_, ?_⟩)
      (fun d => r2 d.reaches)
    · exact hm.stop_le_entry ho.isOpen h1
    · exact movesForward_ratchet (f := f.tick.takeTp1 bar)
  | took12 ho h1 r1 r2 r3 =>
    refine iff_of_true ?_ (fun d => by simpa [h1] using d.tp1)
    rw [List.append_assoc]
    refine (movesForward_actions1 (f := f.tick)).mpr ⟨hm.stop_le_entry ho.isOpen h1, ?_⟩
    refine (movesForward_actions2 (f := f.tick.takeTp1 bar)).mpr ⟨hm.entry_tp1.le, ?_⟩
    exact movesForward_ratchet (f := (f.tick.takeTp1 bar).takeTp2)
  | took2 ho h1 h2 r2 r3 =>
    refine (movesForward_actions2 (f := f.tick)).trans ?_
    refine Iff.trans ?_ (stop_le_tp1_iff ho h1 h2 r2)
    exact and_iff_left (movesForward_ratchet (f := f.tick.takeTp2))
  | took123 ho h1 r1 r2 r3 =>
    refine iff_of_true ?_ (fun d => by simpa [h1] using d.tp1)
    rw [List.append_assoc]
    refine (movesForward_actions1 (f := f.tick)).mpr ⟨hm.stop_le_entry ho.isOpen h1, ?_⟩
    exact (movesForward_actions2 (f := f.tick.takeTp1 bar)).mpr
      ⟨hm.entry_tp1.le, movesForward_actions3⟩
  | took23 ho h1 h2 r2 r3 =>
    refine (movesForward_actions2 (f := f.tick)).trans ?_
    refine Iff.trans ?_ (stop_le_tp1_iff ho h1 h2 r2)
    exact and_iff_left movesForward_actions3
  | took3 ho h1 h2 r3 =>
    exact iff_of_true movesForward_actions3 (fun d => by simpa [h2] using d.tp2)

/-! The clock. -/

theorem PositionFields.Survives.clock (h : f.Survives bar) (hb : g.barsHeld = f.barsHeld + 1) :
    f.closed = false ∧ g.barsHeld = f.barsHeld + 1 ∧
      (g.barsHeld : ℚ) ≤ f.timeStopCdMult * f.cdLegBars := by
  refine ⟨h.isOpen, hb, ?_⟩
  have := not_lt.mp h.time
  rw [hb]
  push_cast
  exact this

/-- A position left open has counted every bar and is within its time stop. -/
theorem outcome_clock (h : Outcome f bar g as) (ho : g.closed = false) :
    f.closed = false ∧ g.barsHeld = f.barsHeld + 1 ∧
      (g.barsHeld : ℚ) ≤ f.timeStopCdMult * f.cdLegBars := by
  cases h with
  | absorbed hc => simp [ho] at hc
  | stopped hf hs => simp [PositionFields.shut] at ho
  | timedOut hf hs ht => simp [PositionFields.shut] at ho
  | took123 hs h1 r1 r2 r3 => simp [PositionFields.takeTp3, PositionFields.shut] at ho
  | took23 hs h1 h2 r2 r3 => simp [PositionFields.takeTp3, PositionFields.shut] at ho
  | took3 hs h1 h2 r3 => simp [PositionFields.takeTp3, PositionFields.shut] at ho
  | waited hs h1 r1 => exact hs.clock rfl
  | trailed hs h1 r2 r3 => exact hs.clock rfl
  | took1 hs h1 r1 r2 => exact hs.clock rfl
  | took12 hs h1 r1 r2 r3 => exact hs.clock rfl
  | took2 hs h1 h2 r2 r3 => exact hs.clock rfl

theorem PositionState.ext_fields (h : s.toPositionFields = t.toPositionFields) : s = t := by
  cases s
  cases t
  cases h
  rfl

theorem outcome_absorbing (h : Outcome f bar g as) (hc : f.closed = true) : g = f := by
  cases h with
  | absorbed _ => rfl
  | stopped ho hs => simp [hc] at ho
  | timedOut ho hs ht => simp [hc] at ho
  | _ ho => simpa [hc] using ho.isOpen

/-- The outcome of a bar as the successor it leads to. -/
theorem processBar_step (hm : Flags s.toPositionFields) (hp : processBar s bar = .ok (u, as)) :
    Outcome s.toPositionFields bar u.toPositionFields as := by
  obtain ⟨v, bs, hv, ho⟩ := processBar_outcome hm bar
  rw [hp] at hv
  simp only [Except.ok.injEq, Prod.mk.injEq] at hv
  obtain ⟨rfl, rfl⟩ := hv
  exact ho

theorem run_clock (hm : Flags s.toPositionFields) (hr : run processBar s bars = .ok (t, as))
    (ho : t.closed = false) : s.closed = false ∧ t.barsHeld = s.barsHeld + bars.length ∧
      (bars ≠ [] → (t.barsHeld : ℚ) ≤ s.timeStopCdMult * s.cdLegBars) := by
  induction bars generalizing s as with
  | nil =>
    simp only [run_nil, Except.ok.injEq, Prod.mk.injEq] at hr
    obtain ⟨rfl, -⟩ := hr
    simpa using ho
  | cons bar bars ih =>
    obtain ⟨u, bs, cs, hu, ht, -⟩ := run_cons_ok.mp hr
    have hout := processBar_step hm hu
    obtain ⟨huo, hub, hul⟩ := ih (outcome_flags hout hm) ht
    obtain ⟨hso, hsb, hsl⟩ := outcome_clock hout huo
    have hplan := outcome_samePlan hout
    refine ⟨hso, by rw [hub, hsb, List.length_cons]; push_cast; ring, ?_⟩
    intro _
    by_cases hn : bars = []
    · subst hn
      simp only [run_nil, Except.ok.injEq, Prod.mk.injEq] at ht
      exact ht.1 ▸ hsl
    · rw [← hplan.timeStopCdMult, ← hplan.cdLegBars]
      exact hul hn

/-- The run of an opened position never raises and stays managed. -/
theorem Opened.run (h : Opened s.toPositionFields) (bars : List Bar) :
    ∃ t as, run processBar s bars = .ok (t, as) ∧ Managed t.toPositionFields := by
  refine run_total (I := fun s : PositionState => Managed s.toPositionFields) (F := fun _ => True)
    (fun s bar hs _ => ?_) h.managed (fun _ _ => trivial)
  obtain ⟨u, as, hu, ho⟩ := processBar_outcome hs.toFlags bar
  exact ⟨u, as, hu, outcome_managed ho hs⟩

theorem Opened.timeStop (h : Opened s.toPositionFields)
    (hk : s.timeStopCdMult * s.cdLegBars < bars.length) :
    ∃ t as, Runs.run processBar s bars = .ok (t, as) ∧ t.closed = true := by
  obtain ⟨t, as, hr, -⟩ := h.run bars
  refine ⟨t, as, hr, ?_⟩
  by_contra hc
  obtain ⟨-, hb, hle⟩ := run_clock h.managed.toFlags hr (by simpa using hc)
  have hne : bars ≠ [] := by
    rintro rfl
    have hpos : (0 : ℚ) ≤ s.timeStopCdMult * s.cdLegBars :=
      mul_nonneg h.timeMult_nonneg (by exact_mod_cast s.cdLegBars_nonneg)
    simp at hk
    exact absurd hk (not_lt.mpr hpos)
  have := hle hne
  rw [hb, h.bars] at this
  push_cast at this
  linarith

/-- The invariants of a run: in every state, from every state to the next, and in time. -/
structure Lawful (s : PositionState) (bars : List Bar) : Prop where
  start : SoundState s.toPositionFields
  steps : Along processBar (fun s _ u _ => SoundState u.toPositionFields ∧
    KeepsStop s.toPositionFields u.toPositionFields ∧ (s.closed = true → u = s)) s bars
  time : ∀ seen, seen <+: bars → s.timeStopCdMult * s.cdLegBars < seen.length →
    ∃ t as, run processBar s seen = .ok (t, as) ∧ t.closed = true

/-- Every run is lawful but those in which one bar takes TP2 and TP3 from a better stop. -/
theorem lawful_iff (h : Opened s.toPositionFields) : Lawful s bars ↔
    Guarded processBar (fun u bar => ¬ DropsAtTp3 u.toPositionFields bar) s bars := by
  have hsteps : Along processBar (fun s _ u _ => SoundState u.toPositionFields ∧
      KeepsStop s.toPositionFields u.toPositionFields ∧ (s.closed = true → u = s)) s bars ↔
      Guarded processBar (fun u bar => ¬ DropsAtTp3 u.toPositionFields bar) s bars := by
    refine along_iff_guarded (I := fun s : PositionState => Managed s.toPositionFields)
      (F := fun _ => True) (fun s bar hm _ => ?_) h.managed (fun _ _ => trivial)
    obtain ⟨u, as, hu, ho⟩ := processBar_outcome hm.toFlags bar
    have hmu := outcome_managed ho hm
    refine ⟨u, as, hu, hmu, ?_⟩
    rw [← outcome_keepsStop ho hm]
    exact ⟨fun k => k.2.1, fun k =>
      ⟨hmu.sound, k, fun hc => PositionState.ext_fields (outcome_absorbing ho hc)⟩⟩
  rw [← hsteps]
  exact ⟨fun l => l.steps, fun k => ⟨h.managed.sound, k, fun _ _ hk => h.timeStop hk⟩⟩

/-- A long position of the tests, under a tighter Chandelier. -/
def longState : PositionState where
  bullish := true
  entryPrice := 100
  initialStop := 95
  currentStop := 95
  tp1 := 110
  tp2 := 120
  tp3 := 130
  atr := 1
  cdLegBars := 10
  entryPrice_pos := by norm_num
  initialStop_pos := by norm_num
  tps_pos := by norm_num
  atr_pos := by norm_num
  cdLegBars_nonneg := by norm_num
  size_mem := by norm_num

theorem longState_opened : Opened longState.toPositionFields := by
  constructor <;> first | constructor <;> norm_num [longState] | norm_num [longState]

/-- Up through TP1, which leaves the trail at 116. -/
def strongBar : Bar := ⟨118, 100, 115, by norm_num⟩

/-- Up through the other targets, above the trail throughout. -/
def gapBar : Bar := ⟨200, 117, 190, by norm_num⟩

/-- The position closes at TP3 with its stop put back from 116 to 110. -/
theorem longState_not_lawful : ¬ Lawful longState [strongBar, gapBar] := by
  rintro ⟨-, ⟨u, as, hu, -, v, bs, hv, ⟨-, hk, -⟩, -⟩, -⟩
  have hstops : ((processBar longState strongBar).toOption.bind fun p =>
      (processBar p.1 gapBar).toOption.map fun q =>
        (p.1.bullish, p.1.currentStop, q.1.currentStop)) = some (true, 116, 110) := by
    decide +kernel
  simp only [hu, hv, Except.toOption, Option.bind_some, Option.map_some, Option.some.injEq,
    Prod.mk.injEq] at hstops
  obtain ⟨hb, h1, h2⟩ := hstops
  norm_num [KeepsStop, hb, h1, h2] at hk

/-- A history without such a bar. -/
theorem strongBar_lawful : Lawful longState [strongBar] := by
  refine (lawful_iff longState_opened).mpr ⟨fun d => ?_, fun _ _ _ => trivial⟩
  have := d.tp1
  simp [longState] at this

/-- The stream of stop moves goes forward but for the bars that take TP2 from beyond TP1. -/
theorem stopMoves_forward_iff (h : Opened s.toPositionFields) :
    Along processBar (fun s _ _ as => MovesForward s.bullish s.currentStop as) s bars ↔
      Guarded processBar (fun u bar => ¬ RetreatsAtTp2 u.toPositionFields bar) s bars := by
  refine along_iff_guarded (I := fun s : PositionState => Managed s.toPositionFields)
    (F := fun _ => True) (fun s bar hm _ => ?_) h.managed (fun _ _ => trivial)
  obtain ⟨u, as, hu, ho⟩ := processBar_outcome hm.toFlags bar
  exact ⟨u, as, hu, outcome_managed ho hm, outcome_movesForward ho hm⟩

/-- Up through TP2 alone. -/
def tp2Bar : Bar := ⟨125, 117, 124, by norm_num⟩

/-- The second bar moves the stop from 116 back to 110 before the trail restores it. -/
theorem longState_moves_back : ¬ Along processBar
    (fun s _ _ as => MovesForward s.bullish s.currentStop as) longState [strongBar, tp2Bar] := by
  rintro ⟨u, as, hu, -, v, bs, hv, hm, -⟩
  have hmoves : ((processBar longState strongBar).toOption.bind fun p =>
      (processBar p.1 tp2Bar).toOption.map fun q => (p.1.bullish, p.1.currentStop, q.2)) =
      some (true, 116, [{ type := .closePartial, sizePct := 3 / 10, reason := "tp2_hit" },
        { type := .moveStop, newStop := 110, reason := "after_tp2" },
        { type := .moveStop, newStop := 123, reason := "chandelier_ratchet" }]) := by
    decide +kernel
  simp only [hu, hv, Except.toOption, Option.bind_some, Option.map_some, Option.some.injEq,
    Prod.mk.injEq] at hmoves
  obtain ⟨hb, h1, rfl⟩ := hmoves
  norm_num [MovesForward, hb, h1] at hm

theorem strongBar_moves_forward : Along processBar
    (fun s _ _ as => MovesForward s.bullish s.currentStop as) longState [strongBar] := by
  refine (stopMoves_forward_iff longState_opened).mpr ⟨fun d => ?_, fun _ _ _ => trivial⟩
  have := d.tp1
  simp [longState] at this

end Pyharmonics.Position
