import Pyharmonics.Grading
import Pyharmonics.PositionRuns

/-! The exit plan a signal publishes, and the one its position executes. -/
namespace Pyharmonics.Position

open Runs

variable {N : Numerics} {w : Process} {i : BuildInput} {S T : Signal} {c : Candidate} {entry : ℚ}
  {f g : PositionFields} {s : PositionState} {bar : Bar} {bars : List Bar} {as : List Action}

/-- An exit plan: the share each target closes, and where it puts the stop; `none` where the
target leaves nothing to protect. -/
structure Plan where
  share : Tp → ℚ
  stopTo : Tp → Option ℚ

/-- What executing the targets asks for, from the stop in force. -/
def Plan.execute (plan : Plan) : ℚ → List Tp → List Action
  | _, [] => []
  | stop, tp :: rest =>
    { type := .closePartial, sizePct := plan.share tp, reason := tp.hitReason } ::
      match plan.stopTo tp with
      | some level =>
        (if level ≠ stop then
          [{ type := .moveStop, newStop := level, reason := tp.afterReason }] else []) ++
          plan.execute level rest
      | none => [{ type := .closeAll, reason := "tp3_full_close" }]

def PositionFields.hit (f : PositionFields) : Tp → Bool
  | .tp1 => f.tp1Hit
  | .tp2 => f.tp2Hit
  | .tp3 => f.tp3Hit

/-- The targets hit between two states, in their order. -/
def newlyHit (f g : PositionFields) : List Tp :=
  [Tp.tp1, Tp.tp2, Tp.tp3].filter fun tp => !f.hit tp && g.hit tp

/-- A step executes the plan for the targets it hits; beyond it there is only the trail. -/
def Executes (plan : Plan) (f g : PositionFields) (as : List Action) : Prop :=
  ∃ rest, as = plan.execute f.currentStop (newlyHit f g) ++ rest ∧
    (∀ a ∈ rest, a.type ≠ .closePartial) ∧
    (newlyHit f g ≠ [] → ∀ a ∈ rest, a.reason = "chandelier_ratchet")

/-- The plan of `process_bar`. -/
def managedPlan (f : PositionFields) : Plan where
  share
    | .tp1 => 1 / 2
    | .tp2 => 3 / 10
    | .tp3 => 1 / 5
  stopTo
    | .tp1 => some f.entryPrice
    | .tp2 => some f.tp1
    | .tp3 => none

/-- The level a label of `move_stop_to` names; `trail 1*ATR` is not a level. -/
def levelNamed (f : PositionFields) (label : String) : Option ℚ :=
  if label = "breakeven" then some f.entryPrice
  else if label = "tp1" then some f.tp1
  else none

/-- `signal.targets[i]` -/
def Tp.published (tp : Tp) (S : Signal) : Option SignalTarget :=
  match tp with
  | .tp1 => S.targets[0]?
  | .tp2 => S.targets[1]?
  | .tp3 => S.targets[2]?

/-- The plan published in `signal.targets`. -/
def publishedPlan (S : Signal) (f : PositionFields) : Plan where
  share tp := ((tp.published S).map fun t => (t.closePct : ℚ) / 100).getD 0
  stopTo tp := (tp.published S).bind fun t => levelNamed f t.moveStopTo

/-- A position opened from a signal; its ATR, its clock and its trail are the caller's. -/
structure OpenedFrom (S : Signal) (f : PositionFields) : Prop where
  bullish : f.bullish = decide (S.direction = .long)
  entry : f.entryPrice = S.entryReference
  initialStop : f.initialStop = S.stopLoss
  stop : f.currentStop = S.stopLoss
  tps : S.targets.map SignalTarget.price = [f.tp1, f.tp2, f.tp3]
  bars : f.barsHeld = 0
  size : f.sizeRemaining = 1
  tp1 : f.tp1Hit = false
  tp2 : f.tp2Hit = false
  tp3 : f.tp3Hit = false
  isOpen : f.closed = false
  reason : f.closeReason = none

theorem OpenedFrom.flags (h : OpenedFrom S f) : Flags f :=
  flags_fresh h.bars h.size h.tp1 h.tp2 h.tp3 h.isOpen h.reason

theorem ratchetActions_trail : ∀ a ∈ f.ratchetActions bar,
    a.type ≠ .closePartial ∧ a.reason = "chandelier_ratchet" := by
  intro a ha
  unfold PositionFields.ratchetActions at ha
  split_ifs at ha
  · obtain rfl := List.mem_singleton.mp ha
    exact ⟨ActionType.noConfusion, rfl⟩
  · simp at ha

theorem orHold_keeps_partials_out (h : ∀ a ∈ as, a.type ≠ .closePartial) :
    ∀ a ∈ orHold as, a.type ≠ .closePartial := by
  unfold orHold
  split_ifs
  · simp
  · exact h

/-- A step that hits no target closes nothing in part. -/
theorem executes_nothing {plan : Plan} (hn : newlyHit f g = [])
    (h : ∀ a ∈ as, a.type ≠ .closePartial) : Executes plan f g as :=
  ⟨as, by rw [hn]; rfl, h, fun hne => absurd hn hne⟩

/-- A step that hits targets executes them, and the trail may follow. -/
theorem executes_taken {plan : Plan} (tps : List Tp) {h : PositionFields}
    (hn : newlyHit f g = tps) (ha : plan.execute f.currentStop tps = as) :
    Executes plan f g (as ++ h.ratchetActions bar) :=
  ⟨h.ratchetActions bar, by rw [hn, ha], fun a ha => (ratchetActions_trail a ha).1,
    fun _ a ha => (ratchetActions_trail a ha).2⟩

/-- The last target leaves no trail. -/
theorem executes_closed {plan : Plan} (tps : List Tp)
    (hn : newlyHit f g = tps) (ha : plan.execute f.currentStop tps = as) : Executes plan f g as :=
  ⟨[], by rw [hn, ha, List.append_nil], by simp, by simp⟩

theorem execute_tp1 (l : List Tp) : (managedPlan f).execute f.currentStop (.tp1 :: l) =
    f.tick.actions1 ++ (managedPlan f).execute f.entryPrice l := rfl

theorem execute_tp2 (l : List Tp) : (managedPlan f).execute f.currentStop (.tp2 :: l) =
    f.tick.actions2 ++ (managedPlan f).execute f.tp1 l := rfl

theorem execute_tp12 (l : List Tp) : (managedPlan f).execute f.currentStop (.tp1 :: .tp2 :: l) =
    f.tick.actions1 ++ (f.tick.takeTp1 bar).actions2 ++ (managedPlan f).execute f.tp1 l := by
  rw [execute_tp1, List.append_assoc]
  rfl

theorem execute_tp3 {x : ℚ} : (managedPlan f).execute x [.tp3] = PositionFields.actions3 := rfl

/-- Whatever a bar does to a position, it executes the manager's plan for the targets it hits. -/
theorem outcome_executes (h : Outcome f bar g as) (hf : Flags f) :
    Executes (managedPlan f) f g as := by
  cases h with
  | absorbed hc => exact executes_nothing (by simp [newlyHit]) (by simp)
  | stopped ho hs => exact executes_nothing (by simp [newlyHit, PositionFields.hit,
      PositionFields.shut, PositionFields.tick]) (by simp)
  | timedOut ho hs ht => exact executes_nothing (by simp [newlyHit, PositionFields.hit,
      PositionFields.shut, PositionFields.tick]) (by simp)
  | waited ho h1 r1 => exact executes_nothing (by simp [newlyHit, PositionFields.hit,
      PositionFields.tick]) (by simp [orHold])
  | trailed ho h1 r2 r3 =>
    refine executes_nothing ?_ (orHold_keeps_partials_out fun a ha => (ratchetActions_trail a ha).1)
    simp [newlyHit, PositionFields.hit, PositionFields.tick, PositionFields.ratchet]
  | took1 ho h1 r1 r2 =>
    refine executes_taken [.tp1] ?_ (by rw [execute_tp1]; exact List.append_nil _)
    simp [newlyHit, PositionFields.hit, PositionFields.tick, PositionFields.takeTp1,
      PositionFields.ratchet, h1]
  | took12 ho h1 r1 r2 r3 =>
    refine executes_taken [.tp1, .tp2] ?_ (by rw [execute_tp12]; exact List.append_nil _)
    simp [newlyHit, PositionFields.hit, PositionFields.tick, PositionFields.takeTp1,
      PositionFields.takeTp2, PositionFields.ratchet, h1, hf.tp2_unhit h1]
  | took2 ho h1 h2 r2 r3 =>
    refine executes_taken [.tp2] ?_ (by rw [execute_tp2]; exact List.append_nil _)
    simp [newlyHit, PositionFields.hit, PositionFields.tick, PositionFields.takeTp2,
      PositionFields.ratchet, h1, h2]
  | took123 ho h1 r1 r2 r3 =>
    refine executes_closed [.tp1, .tp2, .tp3] ?_ (by rw [execute_tp12, execute_tp3])
    simp [newlyHit, PositionFields.hit, PositionFields.tick, PositionFields.takeTp1,
      PositionFields.takeTp2, PositionFields.takeTp3, PositionFields.shut, h1, hf.tp2_unhit h1,
      hf.open_tp3 ho.isOpen]
  | took23 ho h1 h2 r2 r3 =>
    refine executes_closed [.tp2, .tp3] ?_ (by rw [execute_tp2, execute_tp3])
    simp [newlyHit, PositionFields.hit, PositionFields.tick, PositionFields.takeTp2,
      PositionFields.takeTp3, PositionFields.shut, h1, h2, hf.open_tp3 ho.isOpen]
  | took3 ho h1 h2 r3 =>
    refine executes_closed [.tp3] ?_ execute_tp3
    simp [newlyHit, PositionFields.hit, PositionFields.tick, PositionFields.takeTp3,
      PositionFields.shut, h1, h2, hf.open_tp3 ho.isOpen]

theorem take_three {l : List ℤ} {a b d : ℤ} (h0 : l[0]? = some a) (h1 : l[1]? = some b)
    (h2 : l[2]? = some d) : l.take 3 = [a, b, d] := by
  match l with
  | [] => simp at h0
  | [_] => simp at h1
  | [_, _] => simp at h2
  | x :: y :: z :: l => simp_all

theorem closePctAt_ok {t : TuningFields} {k : ℕ} {p : ℤ} (h : closePctAt t k = .ok p) :
    t.tpClosePcts[k]? = some p := by
  unfold closePctAt at h
  split at h
  · next q hq => rw [hq, Except.ok.inj h]
  · simp at h

/-- The targets carry the percentages of the tuning and three fixed labels. -/
theorem computeTargets_plan {targets : List SignalTarget}
    (h : computeTargets N w c entry = .ok targets) :
    targets.map SignalTarget.closePct = w.getTuning.tpClosePcts.take 3 ∧
      targets.map SignalTarget.moveStopTo = ["breakeven", "tp1", "trail 1*ATR"] := by
  obtain ⟨a, -, h⟩ := bind_ok.mp h
  obtain ⟨p1, h1, h⟩ := bind_ok.mp h
  obtain ⟨p2, h2, h⟩ := bind_ok.mp h
  obtain ⟨p3, h3, h⟩ := bind_ok.mp h
  obtain rfl := Except.ok.inj h
  rw [take_three (closePctAt_ok h1) (closePctAt_ok h2) (closePctAt_ok h3)]
  exact ⟨rfl, rfl⟩

theorem buildSignal_targets (h : buildSignal N w i = .ok (some S)) :
    S.targets.map SignalTarget.closePct = w.getTuning.tpClosePcts.take 3 ∧
      S.targets.map SignalTarget.moveStopTo = ["breakeven", "tp1", "trail 1*ATR"] := by
  obtain ⟨ctx, c, ho⟩ := buildSignal_some h
  obtain ⟨T, k, hT, rfl⟩ := ho.scored
  obtain ⟨s, rfl⟩ := scoreCandidate_some hT
  exact computeTargets_plan s.targets_ok

section Published

variable {a b d : SignalTarget} (h : S.targets = [a, b, d])
include h

theorem published_stopTo
    (hl : S.targets.map SignalTarget.moveStopTo = ["breakeven", "tp1", "trail 1*ATR"]) :
    (publishedPlan S f).stopTo = (managedPlan f).stopTo := by
  rw [h] at hl
  simp only [List.map_cons, List.map_nil, List.cons.injEq, and_true] at hl
  obtain ⟨ha, hb, hd⟩ := hl
  funext tp
  cases tp <;> simp [publishedPlan, managedPlan, Tp.published, h, levelNamed, ha, hb, hd]

/-- The published shares are those of the manager for one triple of percentages only. -/
theorem published_share_iff : (publishedPlan S f).share = (managedPlan f).share ↔
    S.targets.map SignalTarget.closePct = [50, 30, 20] := by
  have hpct : ∀ {k n : ℤ} {q : ℚ}, q = n / 100 → ((k : ℚ) / 100 = q ↔ k = n) := by
    intro k n q hq
    rw [hq, div_left_inj' (by norm_num), Int.cast_inj]
  have h1 := hpct (k := a.closePct) (n := 50) (q := 1 / 2) (by norm_num)
  have h2 := hpct (k := b.closePct) (n := 30) (q := 3 / 10) (by norm_num)
  have h3 := hpct (k := d.closePct) (n := 20) (q := 1 / 5) (by norm_num)
  have hall : ∀ p q : Tp → ℚ, p = q ↔ p .tp1 = q .tp1 ∧ p .tp2 = q .tp2 ∧ p .tp3 = q .tp3 := by
    intro p q
    refine ⟨fun he => by simp [he], ?_⟩
    rintro ⟨e1, e2, e3⟩
    funext tp
    cases tp <;> assumption
  rw [hall]
  simp only [publishedPlan, managedPlan, Tp.published, h, List.getElem?_cons_zero,
    List.getElem?_cons_succ, Option.map_some, Option.getD_some, h1, h2, h3, List.map_cons,
    List.map_nil, List.cons.injEq, and_true]

end Published

/-- Managing a position executes the stops its signal publishes, and its percentages when they
are those of the manager. -/
theorem plan_executed (h : buildSignal N w i = .ok (some S))
    (ho : OpenedFrom S s.toPositionFields) :
    Along processBar (fun u _ v as =>
        Executes (managedPlan u.toPositionFields) u.toPositionFields v.toPositionFields as) s bars ∧
      (∀ f, (publishedPlan S f).stopTo = (managedPlan f).stopTo) ∧
      ∀ f, (publishedPlan S f).share = (managedPlan f).share ↔
        w.getTuning.tpClosePcts.take 3 = [50, 30, 20] := by
  obtain ⟨hpct, hlabel⟩ := buildSignal_targets h
  obtain ⟨a, b, d, habd⟩ : ∃ a b d, S.targets = [a, b, d] := by
    have hlen := congrArg List.length hlabel
    rw [List.length_map] at hlen
    exact List.length_eq_three.mp hlen
  refine ⟨?_, fun f => published_stopTo habd hlabel, fun f => ?_⟩
  · refine along_of_inv (I := fun s : PositionState => Flags s.toPositionFields)
      (F := fun _ => True) (fun s bar hf _ => ?_) ho.flags (fun _ _ => trivial)
    obtain ⟨u, as, hu, hout⟩ := processBar_outcome hf bar
    exact ⟨u, as, hu, outcome_flags hout hf, outcome_executes hout hf⟩
  · rw [published_share_iff habd, hpct]

/-! A signal of a tuning with other percentages. -/

/-- A process inside the scope of 40, 40 and 20 percent. -/
def planProcess : Process := defaultProcess.enter ⟨{ tpClosePcts := [40, 40, 20] }, by decide +kernel⟩

/-- A position opened from the long signal of the alternating market. -/
def planState : PositionState :=
  { longState with
    initialStop := 96
    currentStop := 96
    tp1 := 104202 / 1000
    tp2 := 106798 / 1000
    tp3 := 113992 / 1000
    atr := 4
    initialStop_pos := by norm_num
    tps_pos := by norm_num
    atr_pos := by norm_num }

/-- Up through TP1 alone. -/
def tp1Bar : Bar := ⟨105, 99, 104, by norm_num⟩

theorem plan_view : (buildSignal plainNumerics planProcess
    alternatingInput).toOption.join.map (fun S => (S.direction, S.entryReference, S.stopLoss,
      S.targets.map SignalTarget.price, S.targets.map SignalTarget.closePct)) =
      some (.long, 100, 96, [104202 / 1000, 106798 / 1000, 113992 / 1000], [40, 40, 20]) := by
  decide +kernel

theorem planState_opened : ∃ S, buildSignal plainNumerics planProcess alternatingInput =
    .ok (some S) ∧ OpenedFrom S planState.toPositionFields ∧
      S.targets.map SignalTarget.closePct = [40, 40, 20] := by
  obtain ⟨S, hS, hv⟩ := exists_of_view plan_view
  simp only [Prod.mk.injEq] at hv
  obtain ⟨hd, he, hs, ht, hp⟩ := hv
  refine ⟨S, hS, ?_, hp⟩
  constructor <;> simp [planState, longState, hd, he, hs, ht]

/-- TP1 closes half of the position where the signal publishes two fifths. -/
theorem planState_off_plan : ∃ S, buildSignal plainNumerics planProcess alternatingInput =
    .ok (some S) ∧ OpenedFrom S planState.toPositionFields ∧
      ¬ Along processBar (fun u _ v as => Executes (publishedPlan S u.toPositionFields)
        u.toPositionFields v.toPositionFields as) planState [tp1Bar] := by
  obtain ⟨S, hS, ho, hp⟩ := planState_opened
  refine ⟨S, hS, ho, ?_⟩
  rintro ⟨u, as, hu, ⟨rest, has, -, -⟩, -⟩
  have hstep : (processBar planState tp1Bar).toOption.map (fun p =>
      (newlyHit planState.toPositionFields p.1.toPositionFields, p.2.head?.map Action.sizePct)) =
        some ([.tp1], some (1 / 2)) := by
    decide +kernel
  simp only [hu, Except.toOption, Option.map_some, Option.some.injEq, Prod.mk.injEq] at hstep
  obtain ⟨hhit, hsize⟩ := hstep
  rw [has, hhit] at hsize
  simp only [Plan.execute, List.cons_append, List.head?_cons, Option.map_some,
    Option.some.injEq] at hsize
  have hshare : (publishedPlan S planState.toPositionFields).share .tp1 = 2 / 5 := by
    obtain ⟨t, ts, hts, ht, -⟩ := List.map_eq_cons_iff.mp hp
    simp only [publishedPlan, Tp.published, hts, List.getElem?_cons_zero, Option.map_some,
      Option.getD_some, ht]
    norm_num
  rw [hshare] at hsize
  norm_num at hsize

theorem planState_executes : ∃ S, buildSignal plainNumerics planProcess alternatingInput =
    .ok (some S) ∧ OpenedFrom S planState.toPositionFields ∧
      Along processBar (fun u _ v as => Executes (managedPlan u.toPositionFields)
        u.toPositionFields v.toPositionFields as) planState [tp1Bar] := by
  obtain ⟨S, hS, ho, -⟩ := planState_opened
  exact ⟨S, hS, ho, (plan_executed hS ho).1⟩

end Pyharmonics.Position
