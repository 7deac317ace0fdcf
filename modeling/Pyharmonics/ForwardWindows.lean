import Pyharmonics.WalkForward

/-! The detection windows of a walk and the forward bars they are evaluated on. -/
namespace Pyharmonics.Backtest

variable {N : Numerics} {w : Process} {df : Frame} {interval : String} {detect : Detect}
  {o : WalkOptions} {e n : ℕ} {es : List ℕ} {records : List BacktestSignalRecord}

/-- `n` bars from position `a` on. -/
def barsFrom (df : Frame) (a n : ℕ) : List Row := (df.rows.drop a).take n

/-- What is documented: the ends are those with `horizon` bars behind them, in steps, and each
window is evaluated on these bars. -/
structure Documented (df : Frame) (o : WalkOptions) : Prop where
  ends : ∀ e, e ∈ windowEnds df.length o ↔
    (∃ k, e = o.window - 1 + k * o.step) ∧ e + o.horizon < df.length
  forward : ∀ e ∈ windowEnds df.length o,
    (forwardAt df o e).rows = barsFrom df (e + 1) o.horizon

theorem mem_windowEnds : e ∈ windowEnds n o ↔
    o.window + o.horizon < n ∧ (∃ k, e = o.window - 1 + k * o.step) ∧ e + o.horizon < n := by
  have hwindow := o.windowPos
  have hstep := o.stepPos
  unfold windowEnds
  split_ifs with hshort
  · exact iff_of_false List.not_mem_nil fun h => by omega
  · simp only [List.mem_range']
    constructor
    · rintro ⟨i, hi, rfl⟩
      refine ⟨by omega, ⟨i, by rw [mul_comm]⟩, ?_⟩
      have hlt : i * o.step < n - o.horizon - (o.window - 1) := by
        have := (Nat.le_div_iff_mul_le hstep).mp hi
        rw [Nat.succ_mul] at this
        omega
      rw [mul_comm]
      omega
    · rintro ⟨-, ⟨k, rfl⟩, hk⟩
      refine ⟨k, ?_, by rw [mul_comm]⟩
      refine (Nat.le_div_iff_mul_le hstep).mpr ?_
      rw [Nat.succ_mul]
      omega

theorem windowEnds_sorted : (windowEnds n o).Pairwise (· < ·) := by
  unfold windowEnds
  split_ifs
  · exact List.Pairwise.nil
  · exact List.pairwise_lt_range' _ o.stepPos

theorem windowAt_rows (he : e ∈ windowEnds df.length o) :
    (windowAt df o e).rows = barsFrom df (e + 1 - o.window) o.window := by
  obtain ⟨-, ⟨k, rfl⟩, -⟩ := mem_windowEnds.mp he
  have hwindow := o.windowPos
  simp only [windowAt, Frame.slice, barsFrom]
  congr 1
  omega

theorem forwardAt_rows : (forwardAt df o e).rows = barsFrom df (e + 1) (o.horizon + 1) := by
  simp only [forwardAt, Frame.slice, barsFrom]
  congr 1
  omega

theorem barsFrom_append (a m n : ℕ) :
    barsFrom df a m ++ barsFrom df (a + m) n = barsFrom df a (m + n) := by
  rw [barsFrom, barsFrom, barsFrom, ← List.drop_drop, List.take_add]

theorem length_forwardAt (h : e + o.horizon < df.length) :
    (forwardAt df o e).rows.length =
      if e + o.horizon + 1 < df.length then o.horizon + 1 else o.horizon := by
  rw [forwardAt_rows, barsFrom, List.length_take, List.length_drop]
  have : df.rows.length = df.length := rfl
  split_ifs <;> omega

/-- A detection window and its forward bars are consecutive stretches of the frame. -/
theorem windowAt_append_forwardAt (he : e ∈ windowEnds df.length o) :
    (windowAt df o e).rows ++ (forwardAt df o e).rows =
      barsFrom df (e + 1 - o.window) (o.window + (o.horizon + 1)) := by
  obtain ⟨-, ⟨k, rfl⟩, -⟩ := mem_windowEnds.mp he
  have hwindow := o.windowPos
  have happend := @barsFrom_append df (o.window - 1 + k * o.step + 1 - o.window) o.window
    (o.horizon + 1)
  rw [show o.window - 1 + k * o.step + 1 - o.window + o.window = o.window - 1 + k * o.step + 1 by
    omega] at happend
  rw [windowAt_rows he, forwardAt_rows, happend]

/-- Every record of a walk is that of a signal extracted from one of its windows. -/
theorem mem_walkSteps (h : (walkSteps N df interval detect o es w).records = .ok records) :
    ∀ r ∈ records, ∃ e ∈ es, ∃ d s,
      (extractSignal N w (windowAt df o e) interval d).result = .ok (some s) ∧
      r = recordOf df o e s := by
  induction es generalizing records with
  | nil =>
    obtain rfl := Except.ok.inj h
    simp
  | cons e es ih =>
    unfold walkSteps at h
    split at h
    · cases h
    · next d hd =>
      dsimp only at h
      split at h
      · cases h
      · next s hs =>
        rw [extractSignal_after] at h
        cases hrest : (walkSteps N df interval detect o es w).records with
        | error err =>
          rw [hrest] at h
          cases h
        | ok rest =>
          rw [hrest] at h
          obtain rfl := Except.ok.inj h
          intro r hr
          rcases List.mem_append.mp hr with hr | hr
          · obtain ⟨s', hs', rfl⟩ := List.mem_map.mp hr
            obtain rfl := (Option.filter_eq_some_iff.mp (Option.mem_toList.mp hs')).1
            exact ⟨e, by simp, d, s', hs, rfl⟩
          · obtain ⟨e', he', hr⟩ := ih hrest r hr
            exact ⟨e', List.mem_cons_of_mem _ he', hr⟩

theorem documented_iff : Documented df o ↔ df.length < o.window + o.horizon := by
  have hwindow := o.windowPos
  constructor
  · rintro ⟨hends, hforward⟩
    by_contra hlong
    -- the first window has its forward bars, so that it has to be visited
    have hfirst : o.window - 1 ∈ windowEnds df.length o :=
      (hends _).mpr ⟨⟨0, by simp⟩, by omega⟩
    have hlen := congrArg List.length (hforward _ hfirst)
    obtain ⟨hlt, -, hbars⟩ := mem_windowEnds.mp hfirst
    rw [length_forwardAt hbars, if_pos (by omega), barsFrom, List.length_take] at hlen
    omega
  · intro hshort
    have hnone : ∀ e, e ∉ windowEnds df.length o := fun e he => by
      have := (mem_windowEnds.mp he).1
      omega
    refine ⟨fun e => iff_of_false (hnone e) ?_, fun e he => absurd he (hnone e)⟩
    rintro ⟨⟨k, rfl⟩, hk⟩
    omega

/-- The records of a walk are those of its windows, in order, and no window shares a bar with its
forward bars. But it is the documented walk only over frames too short for a window and its forward
bars: every window but the last is evaluated on one bar more, and the one window of a frame that
just holds it is not visited. -/
theorem walkForward_documented_iff (N : Numerics) (w : Process) (df : Frame) (interval : String)
    (detect : Detect) (o : WalkOptions) :
    (∀ records, (walkForward N w df interval detect o).records = .ok records →
      ∀ r ∈ records, ∃ e ∈ windowEnds df.length o, ∃ s, r = recordOf df o e s) ∧
    (windowEnds df.length o).Pairwise (· < ·) ∧
    (∀ e ∈ windowEnds df.length o, (windowAt df o e).rows ++ (forwardAt df o e).rows =
      barsFrom df (e + 1 - o.window) (o.window + (o.horizon + 1))) ∧
    (Documented df o ↔ df.length < o.window + o.horizon) := by
  refine ⟨?_, windowEnds_sorted, fun e he => windowAt_append_forwardAt he, documented_iff⟩
  intro records h r hr
  obtain ⟨e, he, d, s, -, hrec⟩ := mem_walkSteps h r hr
  exact ⟨e, he, s, hrec⟩

/-- Windows of two bars, each evaluated on one bar. -/
def oneBarAhead : WalkOptions :=
  { window := 2, step := 1, horizon := 1, windowPos := Nat.two_pos, stepPos := Nat.one_pos }

def flatBar (label : ℤ) : Row :=
  { openPrice := 1, high := 1, low := 1, close := 1, volume := 1, closeTime := label, dts := label
    index := label }

/-- Of four bars the first window is evaluated on two, and of three bars none is visited. -/
theorem oneBarAhead_overruns :
    ¬ Documented (frameOf ((List.range 4).map fun i => flatBar i)) oneBarAhead ∧
    windowEnds 4 oneBarAhead = [1, 2] ∧
    (forwardAt (frameOf ((List.range 4).map fun i => flatBar i)) oneBarAhead 1).rows =
      [flatBar 2, flatBar 3] ∧
    windowEnds 3 oneBarAhead = [] := by
  refine ⟨?_, by decide, by decide +kernel, by decide⟩
  intro h
  have hlen := congrArg List.length (h.forward 1 (by decide +kernel))
  exact absurd hlen (by decide +kernel)

end Pyharmonics.Backtest
