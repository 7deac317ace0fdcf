import Pyharmonics.PositionRuns

/-! A managed position and its mirror image: every price `p` turned into `M - p`. -/
namespace Pyharmonics.Position

open Runs

variable {M : ℚ} {s t u : PositionState} {bar : Bar} {targets : List TpTarget}
  {actions : List Action} {tp : Tp} {label : NextStop} {reason : CloseReason} {size x : ℚ}

def Bar.reflect (M : ℚ) (bar : Bar) : Bar where
  high := M - bar.low
  low := M - bar.high
  close := M - bar.close
  low_le_high := sub_le_sub_left bar.low_le_high M

def PositionFields.reflect (M : ℚ) (f : PositionFields) : PositionFields :=
  { f with
    bullish := !f.bullish
    entryPrice := M - f.entryPrice
    initialStop := M - f.initialStop
    currentStop := M - f.currentStop
    tp1 := M - f.tp1
    tp2 := M - f.tp2
    tp3 := M - f.tp3
    chandelierHigh := f.chandelierLow.map (M - ·)
    chandelierLow := f.chandelierHigh.map (M - ·) }

/-- Only a moved stop has a price. -/
def Action.reflect (M : ℚ) (a : Action) : Action :=
  if a.type = .moveStop then { a with newStop := M - a.newStop } else a

def TpTarget.reflect (M : ℚ) (p : TpTarget) : TpTarget := { p with price := M - p.price }

/-- The second state is the first one upside down. -/
def Reflected (M : ℚ) (s t : PositionState) : Prop :=
  t.toPositionFields = s.toPositionFields.reflect M

theorem tpHit_reflect {high low price : ℚ} {bullish : Bool} :
    tpHit (M - low) (M - high) (M - price) (!bullish) = tpHit high low price bullish := by
  cases bullish <;> simp only [tpHit, Bool.not_false, Bool.not_true, sub_le_sub_iff_left] <;> rfl

theorem stopHit_reflect {high low stop : ℚ} {bullish : Bool} :
    stopHit (M - low) (M - high) (M - stop) (!bullish) = stopHit high low stop bullish := by
  cases bullish <;> simp only [stopHit, Bool.not_false, Bool.not_true, sub_le_sub_iff_left] <;> rfl

theorem Reflected.field {β : Type} (h : Reflected M s t) (f : PositionFields → β) :
    f t.toPositionFields = f (s.toPositionFields.reflect M) := congrArg f h

theorem Reflected.bullish (h : Reflected M s t) : t.bullish = !s.bullish := h.field (·.bullish)

theorem Reflected.currentStop (h : Reflected M s t) : t.currentStop = M - s.currentStop :=
  h.field (·.currentStop)

theorem Reflected.hit (h : Reflected M s t) : t.hit tp = s.hit tp := by
  have h1 : t.tp1Hit = s.tp1Hit := h.field (·.tp1Hit)
  have h2 : t.tp2Hit = s.tp2Hit := h.field (·.tp2Hit)
  have h3 : t.tp3Hit = s.tp3Hit := h.field (·.tp3Hit)
  cases tp <;> assumption

theorem Reflected.stopAfter (h : Reflected M s t) : t.stopAfter label = M - s.stopAfter label := by
  cases label
  · exact h.field (·.entryPrice)
  · exact h.field (·.tp1)

theorem Reflected.tpTargets (h : Reflected M s t) :
    tpTargets t = (tpTargets s).map (TpTarget.reflect M) := by
  have h1 : t.tp1 = M - s.tp1 := h.field (·.tp1)
  have h2 : t.tp2 = M - s.tp2 := h.field (·.tp2)
  have h3 : t.tp3 = M - s.tp3 := h.field (·.tp3)
  simp only [Position.tpTargets, h1, h2, h3]
  rfl

theorem Reflected.tick (h : Reflected M s t) : Reflected M s.tick t.tick := by
  change { t.toPositionFields with barsHeld := t.toPositionFields.barsHeld + 1 } = _
  rw [h]
  rfl

theorem Reflected.close (h : Reflected M s t) : Reflected M (s.close reason) (t.close reason) := by
  change { t.toPositionFields with
    closed := true, sizeRemaining := 0, closeReason := some reason } = _
  rw [h]
  rfl

theorem Reflected.moveTo (h : Reflected M s t) :
    Reflected M { s with currentStop := x } { t with currentStop := M - x } := by
  change { t.toPositionFields with currentStop := M - x } = _
  rw [h]
  rfl

theorem Reflected.markHit (h : Reflected M s t) (bar : Bar) (tp : Tp) :
    Reflected M (s.markHit bar tp) (t.markHit (bar.reflect M) tp) := by
  cases tp
  · change { t.toPositionFields with
      tp1Hit := true
      chandelierHigh := if t.toPositionFields.bullish then some (M - bar.low) else none
      chandelierLow := if t.toPositionFields.bullish then none else some (M - bar.high) } = _
    rw [h]
    cases hb : s.bullish <;> simp [PositionState.markHit, PositionFields.reflect, hb]
  · change { t.toPositionFields with tp2Hit := true } = _
    rw [h]
    rfl
  · change { t.toPositionFields with tp3Hit := true } = _
    rw [h]
    rfl

theorem max_getD_reflect {o : Option ℚ} :
    max ((o.map (M - ·)).getD (M - x)) (M - x) = M - min (o.getD x) x := by
  cases o with
  | none => simp
  | some y => exact max_sub_sub_left M y x

theorem min_getD_reflect {o : Option ℚ} :
    min ((o.map (M - ·)).getD (M - x)) (M - x) = M - max (o.getD x) x := by
  cases o with
  | none => simp
  | some y => exact min_sub_sub_left M y x

theorem Reflected.extend (h : Reflected M s t) (bar : Bar) :
    Reflected M (s.extend bar) (t.extend (bar.reflect M)) := by
  have hhigh : t.chandelierHigh = s.chandelierLow.map (M - ·) :=
    h.field (·.chandelierHigh)
  have hlow : t.chandelierLow = s.chandelierHigh.map (M - ·) :=
    h.field (·.chandelierLow)
  unfold PositionState.extend
  by_cases hs : s.bullish = true
  · have ht : ¬ t.bullish = true := by simp [h.bullish, hs]
    rw [if_pos hs, if_neg ht]
    change { t.toPositionFields with
      chandelierLow := some (min (t.chandelierLow.getD (M - bar.high)) (M - bar.high)) } = _
    rw [hlow, min_getD_reflect, h]
    rfl
  · have ht : t.bullish = true := by simp [h.bullish, hs]
    rw [if_neg hs, if_pos ht]
    change { t.toPositionFields with
      chandelierHigh := some (max (t.chandelierHigh.getD (M - bar.low)) (M - bar.low)) } = _
    rw [hhigh, max_getD_reflect, h]
    rfl

theorem Reflected.chandelierStop (h : Reflected M s t) :
    chandelierStop t = (chandelierStop s).map (M - ·) := by
  have hhigh : t.chandelierHigh = s.chandelierLow.map (M - ·) :=
    h.field (·.chandelierHigh)
  have hlow : t.chandelierLow = s.chandelierHigh.map (M - ·) :=
    h.field (·.chandelierLow)
  have hk : t.chandelierAtrMult = s.chandelierAtrMult := h.field (·.chandelierAtrMult)
  have hatr : t.atr = s.atr := h.field (·.atr)
  simp only [Position.chandelierStop, hhigh, hlow, hk, hatr, h.bullish]
  cases s.bullish with
  | false =>
    cases s.chandelierLow with
    | none => rfl
    | some l =>
      change Except.ok (M - l - _) = Except.ok (M - (l + _))
      rw [sub_sub]
  | true =>
    cases s.chandelierHigh with
    | none => rfl
    | some l =>
      change Except.ok (M - l + _) = Except.ok (M - (l - _))
      rw [sub_add]

/-- Shrinking the position depends on its size alone. -/
theorem Reflected.replaceSize (h : Reflected M s t) (size : ℚ) :
    (∃ u v, s.replaceSize (s.sizeRemaining - size) = .ok u ∧
      t.replaceSize (t.sizeRemaining - size) = .ok v ∧ Reflected M u v) ∨
    ∃ e, s.replaceSize (s.sizeRemaining - size) = .error e ∧
      t.replaceSize (t.sizeRemaining - size) = .error e := by
  have hsize : t.sizeRemaining = s.sizeRemaining := h.field (·.sizeRemaining)
  rw [hsize]
  unfold PositionState.replaceSize
  by_cases hok : 0 ≤ s.sizeRemaining - size ∧ s.sizeRemaining - size ≤ 1
  · refine .inl ⟨_, _, dif_pos hok, dif_pos hok, ?_⟩
    change { t.toPositionFields with sizeRemaining := s.sizeRemaining - size } = _
    rw [h]
    rfl
  · exact .inr ⟨_, dif_neg hok, dif_neg hok⟩

/-- How the loop over the targets ends for a state and its image. -/
def ExitAlike (M : ℚ) : Except PyError LoopExit → Except PyError LoopExit → Prop
  | .ok (.left s as), .ok (.left t bs) => Reflected M s t ∧ bs = as.map (Action.reflect M)
  | .ok (.returned s as), .ok (.returned t bs) => Reflected M s t ∧ bs = as.map (Action.reflect M)
  | .error e, .error e' => e = e'
  | _, _ => False

theorem map_append_kept {a : Action} (h : a.type ≠ .moveStop) :
    (actions ++ [a]).map (Action.reflect M) = actions.map (Action.reflect M) ++ [a] := by
  rw [List.map_append, List.map_singleton, Action.reflect, if_neg h]

theorem map_append_moved {r : String} :
    (actions ++ [(⟨.moveStop, 0, x, r⟩ : Action)]).map (Action.reflect M) =
      actions.map (Action.reflect M) ++ [⟨.moveStop, 0, M - x, r⟩] := by
  rw [List.map_append, List.map_singleton]
  rfl

theorem takeProfits_reflect (targets : List TpTarget) (actions : List Action)
    (h : Reflected M s t) :
    ExitAlike M (takeProfits bar targets s actions)
      (takeProfits (bar.reflect M) (targets.map (TpTarget.reflect M)) t
        (actions.map (Action.reflect M))) := by
  induction targets generalizing s t actions with
  | nil => exact ⟨h, rfl⟩
  | cons p rest ih =>
    obtain ⟨price, name, closePct, nextStop⟩ := p
    have htarget : (⟨price, name, closePct, nextStop⟩ : TpTarget).reflect M =
        ⟨M - price, name, closePct, nextStop⟩ := rfl
    rw [List.map_cons, htarget, takeProfits, takeProfits]
    have htouch : tpHit (bar.reflect M).high (bar.reflect M).low (M - price) t.bullish =
        tpHit bar.high bar.low price s.bullish := by
      rw [h.bullish]
      exact tpHit_reflect
    by_cases hhit : s.hit name = true
    · rw [if_pos hhit, if_pos (h.hit.trans hhit)]
      exact ih _ h
    rw [if_neg hhit, if_neg (fun hc => hhit (h.hit.symm.trans hc))]
    by_cases hreach : (!tpHit bar.high bar.low price s.bullish) = true
    · rw [if_pos hreach, if_pos (by rw [htouch, hreach])]
      exact ⟨h, rfl⟩
    rw [if_neg hreach, if_neg (by rw [htouch]; exact hreach)]
    obtain ⟨u, v, hu, hv, huv⟩ | ⟨e, hu, hv⟩ :=
      (h.markHit bar name).replaceSize closePct
    · dsimp only
      rw [hu, hv]
      dsimp only
      rw [← map_append_kept (a := ⟨.closePartial, closePct, 0, name.hitReason⟩) (by simp)]
      cases nextStop with
      | none => exact ⟨huv.close, (map_append_kept (by simp)).symm⟩
      | some label =>
        have hmoves : v.stopAfter label ≠ v.currentStop ↔ u.stopAfter label ≠ u.currentStop := by
          rw [huv.stopAfter, huv.currentStop, Ne, sub_right_inj]
        dsimp only
        by_cases hmove : u.stopAfter label ≠ u.currentStop
        · rw [if_pos hmove, if_pos (hmoves.mpr hmove), huv.stopAfter, ← map_append_moved]
          exact ih _ huv.moveTo
        · rw [if_neg hmove, if_neg (hmoves.not.mpr hmove)]
          exact ih _ huv
    · dsimp only
      rw [hu, hv]
      exact rfl

theorem chandelierRatchet_reflect (h : Reflected M s t) :
    Alike (Reflected M) (Action.reflect M) (chandelierRatchet bar s actions)
      (chandelierRatchet (bar.reflect M) t (actions.map (Action.reflect M))) := by
  have h1 : t.tp1Hit = s.tp1Hit := h.field (·.tp1Hit)
  have hclosed : t.closed = s.closed := h.field (·.closed)
  have hbars : t.barsHeld = s.barsHeld := h.field (·.barsHeld)
  have hext := h.extend bar
  unfold chandelierRatchet
  rw [h1, hclosed, hbars]
  by_cases hon : (s.tp1Hit && !s.closed && decide (0 < s.barsHeld)) = true
  · rw [if_pos hon, if_pos hon]
    dsimp only
    rw [hext.chandelierStop]
    cases chandelierStop (s.extend bar) with
    | error e => exact rfl
    | ok trail =>
      have himproves : ((t.extend (bar.reflect M)).bullish &&
            decide ((t.extend (bar.reflect M)).currentStop < M - trail) ||
          !(t.extend (bar.reflect M)).bullish &&
            decide (M - trail < (t.extend (bar.reflect M)).currentStop)) =
          ((s.extend bar).bullish && decide ((s.extend bar).currentStop < trail) ||
            !(s.extend bar).bullish && decide (trail < (s.extend bar).currentStop)) := by
        rw [hext.bullish, hext.currentStop]
        cases (s.extend bar).bullish <;> simp only [sub_lt_sub_iff_left] <;> simp
      change Alike _ _ _ (if ((t.extend (bar.reflect M)).bullish &&
            decide ((t.extend (bar.reflect M)).currentStop < M - trail) ||
          !(t.extend (bar.reflect M)).bullish &&
            decide (M - trail < (t.extend (bar.reflect M)).currentStop)) = true then
        Except.ok ({ t.extend (bar.reflect M) with currentStop := M - trail }, _) else _)
      rw [himproves]
      dsimp only
      split_ifs
      · exact ⟨hext.moveTo, map_append_moved.symm⟩
      · exact ⟨hext, rfl⟩
  · rw [if_neg hon, if_neg hon]
    exact ⟨h, rfl⟩

/-- A bar without actions holds in both. -/
theorem orHold_reflect (x y : Except PyError (PositionState × List Action)) :
    Alike (Reflected M) (Action.reflect M) x y → Alike (Reflected M) (Action.reflect M)
      (match x with
        | .error e => .error e
        | .ok (s, actions) => .ok (s, if actions.isEmpty then
            [{ type := .hold, reason := "bar_no_event" }] else actions))
      (match y with
        | .error e => .error e
        | .ok (s, actions) => .ok (s, if actions.isEmpty then
            [{ type := .hold, reason := "bar_no_event" }] else actions)) := by
  cases x with
  | error e =>
    cases y with
    | error e' => exact id
    | ok r => exact False.elim
  | ok r =>
    cases y with
    | error e' => exact False.elim
    | ok r' =>
      obtain ⟨s, as⟩ := r
      obtain ⟨t, bs⟩ := r'
      rintro ⟨hst, rfl⟩
      refine ⟨hst, ?_⟩
      cases as <;> rfl

theorem advance_reflect (h : Reflected M s t) (bar : Bar) :
    Alike (Reflected M) (Action.reflect M) (advance s bar) (advance t (bar.reflect M)) := by
  have hclosed : t.closed = s.closed := h.field (·.closed)
  have hstop : stopHit (bar.reflect M).high (bar.reflect M).low t.tick.currentStop t.tick.bullish =
      stopHit bar.high bar.low s.tick.currentStop s.tick.bullish := by
    rw [h.tick.bullish, h.tick.currentStop]
    exact stopHit_reflect
  have hmult : t.tick.timeStopCdMult = s.tick.timeStopCdMult := h.tick.field (·.timeStopCdMult)
  have hleg : t.tick.cdLegBars = s.tick.cdLegBars := h.tick.field (·.cdLegBars)
  have hbars : t.tick.barsHeld = s.tick.barsHeld := h.tick.field (·.barsHeld)
  unfold advance
  dsimp only
  rw [hclosed, hstop, hmult, hleg, hbars]
  by_cases hc : s.closed = true
  · rw [if_pos hc, if_pos hc]
    exact ⟨h, rfl⟩
  rw [if_neg hc, if_neg hc]
  by_cases hs : stopHit bar.high bar.low s.tick.currentStop s.tick.bullish = true
  · rw [if_pos hs, if_pos hs]
    exact ⟨h.tick.close, rfl⟩
  rw [if_neg hs, if_neg hs]
  by_cases ht : s.tick.timeStopCdMult * s.tick.cdLegBars < s.tick.barsHeld
  · rw [if_pos ht, if_pos ht]
    exact ⟨h.tick.close, rfl⟩
  rw [if_neg ht, if_neg ht]
  have htake := @takeProfits_reflect _ _ _ bar (tpTargets s.tick) [] h.tick
  rw [← h.tick.tpTargets, List.map_nil] at htake
  revert htake
  cases takeProfits bar (tpTargets s.tick) s.tick [] with
  | error e =>
    cases takeProfits (bar.reflect M) (tpTargets t.tick) t.tick [] with
    | error e' => exact id
    | ok exit => exact False.elim
  | ok exit =>
    cases takeProfits (bar.reflect M) (tpTargets t.tick) t.tick [] with
    | error e' => cases exit <;> exact False.elim
    | ok exit' =>
      cases exit with
      | returned u as =>
        cases exit' with
        | returned v bs => exact id
        | left v bs => exact False.elim
      | left u as =>
        cases exit' with
        | returned v bs => exact False.elim
        | left v bs =>
          rintro ⟨huv, rfl⟩
          exact orHold_reflect _ _ (chandelierRatchet_reflect huv)

theorem processBar_reflect (h : Reflected M s t) :
    Alike (Reflected M) (Action.reflect M) (processBar s bar) (processBar t (bar.reflect M)) := by
  have hadvance := advance_reflect h bar
  unfold processBar
  revert hadvance
  cases advance s bar with
  | error e =>
    cases advance t (bar.reflect M) with
    | error e' => exact id
    | ok r => exact False.elim
  | ok r =>
    cases advance t (bar.reflect M) with
    | error e' => exact False.elim
    | ok r' =>
      obtain ⟨u, as⟩ := r
      obtain ⟨v, bs⟩ := r'
      rintro ⟨huv, rfl⟩
      have hclosed : v.closed = u.closed := huv.field (·.closed)
      have hreason : v.closeReason = u.closeReason := huv.field (·.closeReason)
      dsimp only
      rw [hclosed, hreason]
      split_ifs
      · exact ⟨huv, rfl⟩
      · exact rfl

/-- A state whose prices stay positive upside down. -/
structure Below (M : ℚ) (f : PositionFields) : Prop where
  entryPrice : f.entryPrice < M
  initialStop : f.initialStop < M
  tps : f.tp1 < M ∧ f.tp2 < M ∧ f.tp3 < M

/-- The state upside down. -/
def PositionState.reflect (M : ℚ) (s : PositionState) (h : Below M s.toPositionFields) :
    PositionState :=
  { s.toPositionFields.reflect M with
    entryPrice_pos := sub_pos.mpr h.entryPrice
    initialStop_pos := sub_pos.mpr h.initialStop
    tps_pos := ⟨sub_pos.mpr h.tps.1, sub_pos.mpr h.tps.2.1, sub_pos.mpr h.tps.2.2⟩
    atr_pos := s.atr_pos
    cdLegBars_nonneg := s.cdLegBars_nonneg
    size_mem := s.size_mem }

/-- Over any bars the position and its image stay in step: bar for bar the reflected state and the
actions with reflected stops. -/
theorem run_reflect (M : ℚ) (s : PositionState) (h : Below M s.toPositionFields)
    (bars : List Bar) : Lockstep processBar processBar (Reflected M) (Bar.reflect M)
      (Action.reflect M) s (s.reflect M h) bars :=
  lockstep_of_alike (fun _ _ _ hst => processBar_reflect hst) rfl

theorem longState_below : Below 300 longState.toPositionFields where
  entryPrice := by decide +kernel
  initialStop := by decide +kernel
  tps := by decide +kernel

theorem run_reflect_long : Below 300 longState.toPositionFields ∧
    Lockstep processBar processBar (Reflected 300) (Bar.reflect 300) (Action.reflect 300)
      longState (longState.reflect 300 longState_below) [strongBar, gapBar] :=
  ⟨longState_below, run_reflect 300 longState longState_below [strongBar, gapBar]⟩

end Pyharmonics.Position
