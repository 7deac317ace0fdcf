import Pyharmonics.PositionPlan

/-! The prices of a published signal against the positions that can be opened from it. -/
namespace Pyharmonics

variable {N : Numerics} {w : Process} {ctx : ScoreContext} {c : Candidate} {level : String}
  {S : Signal} {i : BuildInput} {entry stop target atr : ℚ} {a : StopArgs} {r : StopPlan}
  {sqrt : ℚ → ℚ} {resample : String → List (ℤ × ℚ) → List ℚ} {unknown : String → Bool}

/-- The prices of the frame and of the candidates are positive. -/
structure PositiveInput (i : BuildInput) : Prop where
  frame : ∀ df ∈ i.df, ∀ r ∈ df.rows, 0 < r.openPrice ∧ 0 < r.high ∧ 0 < r.low ∧ 0 < r.close
  candidates : ∀ c ∈ i.candidates, (∀ p ∈ c.points, 0 < p) ∧ 0 < c.przLow ∧ 0 < c.przHigh

/-- Every price of the signal is positive. -/
structure AllPositive (S : Signal) : Prop where
  entry : 0 < S.entryReference
  stop : 0 < S.stopLoss
  targets : ∀ t ∈ S.targets, 0 < t.price

/-- The prices are positive and every position opened from the signal passes its checks. -/
structure Openable (S : Signal) : Prop where
  positive : AllPositive S
  opens : ∀ f : Position.PositionFields, Position.OpenedFrom S f → 0 < f.atr → 0 ≤ f.cdLegBars →
    Returns f.postInit

/-- A target of the ladder before it is rounded. -/
def projection (c : Candidate) (aPrice entry fib : ℚ) : ℚ :=
  if c.bullish then entry + fib * |aPrice - entry| else entry - fib * |aPrice - entry|

/-- The extension of a short stays more than half a unit of the last digit above zero. -/
def ExtensionFits (w : Process) (ctx : ScoreContext) (c : Candidate) : Prop :=
  c.bullish = true ∨ ∃ aPrice, c.aPrice = .ok aPrice ∧
    1 / (2 * 10 ^ 8) < projection c aPrice (ctx.entryPrice c) w.getTuning.fibTp3

theorem computeTargets_prices {targets : List SignalTarget}
    (h : computeTargets N w c entry = .ok targets) :
    ∃ aPrice, c.aPrice = .ok aPrice ∧ targets.map SignalTarget.price =
      [w.getTuning.fibTp1, w.getTuning.fibTp2, w.getTuning.fibTp3].map fun fib =>
        N.round 8 (projection c aPrice entry fib) := by
  obtain ⟨aPrice, ha, h⟩ := bind_ok.mp h
  obtain ⟨_, -, h⟩ := bind_ok.mp h
  obtain ⟨_, -, h⟩ := bind_ok.mp h
  obtain ⟨_, -, h⟩ := bind_ok.mp h
  cases h
  exact ⟨aPrice, ha, rfl⟩

/-- A stop that was returned is a positive decimal. -/
theorem computeStop_pos (h : computeStop N w c atr level a = .ok r) :
    0 < r.stop ∧ ∃ x, r.stop = N.round 8 x := by
  obtain ⟨-, hplan, hpos⟩ := computeStop_inv h
  obtain ⟨_, -, hplan⟩ := bind_ok.mp hplan
  obtain ⟨_, -, hplan⟩ := bind_ok.mp hplan
  cases hplan
  exact ⟨hpos, _, rfl⟩

theorem netRr_target_pos {rr : Option ℚ} (h : netRr N w entry stop target = .ok rr) :
    0 < target := by
  obtain ⟨_, ht, -⟩ := bind_ok.mp h
  exact require_ok.mp ht

namespace Scoring

variable (s : Scoring (.decimal sqrt resample unknown) w ctx c level)
include s

/-- The three prices of a scoring; the first two are positive and the geometry holds. -/
theorem ladder : ∃ aPrice p1 p2 p3, c.aPrice = .ok aPrice ∧
    s.targets.map SignalTarget.price = [p1, p2, p3] ∧ 0 < p1 ∧ 0 < p2 ∧
      (∃ x, p1 = Rounding.roundTo 8 x) ∧
      p3 = Rounding.roundTo 8 (projection c aPrice (ctx.entryPrice c) w.getTuning.fibTp3) ∧
      directionInvariantOk c.direction (ctx.entryPrice c) s.first.stop [p1, p2, p3] = true := by
  obtain ⟨aPrice, ha, hp⟩ := computeTargets_prices s.targets_ok
  have hgeo := s.geometry
  have h1 := netRr_target_pos s.rr1_ok
  have h2 := netRr_target_pos s.rr2_ok
  have hat : ∀ k, targetPrice s.targets k = ((s.targets.map SignalTarget.price)[k]?).getD 0 := by
    intro k
    rw [targetPrice, List.getElem?_map]
  rw [hat, hp] at h1 h2
  rw [hp] at hgeo
  exact ⟨aPrice, _, _, _, ha, hp, h1, h2, ⟨_, rfl⟩, rfl, hgeo⟩

theorem entryReference_pos : 0 < Rounding.roundTo 8 (ctx.entryPrice c) := by
  obtain ⟨aPrice, p1, p2, p3, -, -, h1, -, ⟨x, rfl⟩, -, hgeo⟩ := s.ladder
  cases hb : c.bullish with
  | true =>
    -- the stop of a long is a positive decimal below the entry
    have hgeo : s.first.stop < ctx.entryPrice c := by
      simp only [directionInvariantOk, Candidate.direction, hb, if_true, decide_eq_true_eq] at hgeo
      exact hgeo.1
    obtain ⟨hpos, y, hy⟩ := computeStop_pos s.first_ok
    rw [hy] at hpos hgeo
    exact Rounding.roundTo_pos_of_le hpos hgeo.le
  | false =>
    -- the first target of a short is a positive decimal up to the entry
    have hgeo : Rounding.roundTo 8 x ≤ ctx.entryPrice c := by
      simp only [directionInvariantOk, Candidate.direction, hb, Bool.false_eq_true, if_false,
        reduceCtorEq, decide_eq_true_eq] at hgeo
      exact hgeo.2.1
    exact Rounding.roundTo_pos_of_le h1 hgeo

/-- Only the extension can fail to be positive, and only that of a short. -/
theorem targets_pos_iff : (∀ t ∈ s.targets, 0 < t.price) ↔ ExtensionFits w ctx c := by
  obtain ⟨aPrice, p1, p2, p3, ha, hp, h1, h2, -, hp3, hgeo⟩ := s.ladder
  have hall : (∀ t ∈ s.targets, 0 < t.price) ↔ 0 < p3 := by
    rw [← List.forall_mem_map (f := SignalTarget.price) (P := fun p => 0 < p), hp]
    simp [h1, h2]
  rw [hall, ExtensionFits]
  cases hb : c.bullish with
  | true =>
    simp only [directionInvariantOk, Candidate.direction, hb, if_true, decide_eq_true_eq] at hgeo
    exact iff_of_true (h2.trans hgeo.2.2.2) (Or.inl rfl)
  | false =>
    rw [hp3, Rounding.roundTo_pos_iff]
    constructor
    · intro h
      exact Or.inr ⟨aPrice, ha, h⟩
    · rintro (h | ⟨b, hb', h⟩)
      · cases h
      · obtain rfl : aPrice = b := Except.ok.inj (ha.symm.trans hb')
        exact h

end Scoring

/-- Positive prices are all a position asks of the signal it is opened from. -/
theorem openable_iff : Openable S ↔ AllPositive S := by
  refine ⟨Openable.positive, fun h => ⟨h, ?_⟩⟩
  intro f ho hatr hbars
  have hall : ∀ p ∈ S.targets.map SignalTarget.price, 0 < p := by
    intro p hp
    obtain ⟨t, ht, rfl⟩ := List.mem_map.mp hp
    exact h.targets t ht
  rw [ho.tps] at hall
  unfold Position.PositionFields.postInit
  rw [dif_pos (ho.entry ▸ h.entry), dif_pos (ho.initialStop ▸ h.stop),
    dif_pos ⟨hall _ (by simp), hall _ (by simp), hall _ (by simp)⟩, dif_pos hatr, dif_pos hbars,
    dif_pos (by rw [ho.size]; norm_num)]
  exact returns_ok

/-- A position can be opened from a returned signal exactly when it is a long or its extension
target stays above zero. -/
theorem openable_iff_extensionFits
    (h : buildSignal (.decimal sqrt resample unknown) w i = .ok (some S)) :
    ∃ ctx c, Origin (.decimal sqrt resample unknown) w i S ctx c ∧
      (Openable S ↔ ExtensionFits w ctx c) := by
  obtain ⟨ctx, c, ho⟩ := buildSignal_some h
  obtain ⟨T, k, hT, rfl⟩ := ho.scored
  refine ⟨ctx, c, ho, ?_⟩
  obtain ⟨s, rfl⟩ := scoreCandidate_some hT
  rw [openable_iff, ← s.targets_pos_iff]
  constructor
  · intro h
    exact h.targets
  · intro h
    exact ⟨s.entryReference_pos, (computeStop_pos s.final_ok).1, h⟩

/-! A short whose A-D leg is longer than its price allows for. -/

/-- The bars of the alternating market turned over: closes under the opens, long upper wicks. -/
def cappedBar (k : ℕ) : Row :=
  let close : ℚ := if k % 2 = 0 then 101 else 100
  { openPrice := close + 1 / 10, high := close + 11 / 5, low := close - 9 / 5, close := close
    volume := if k % 2 = 0 then 3 else 1, closeTime := k, dts := k, index := k }

def deepGartley : Candidate :=
  { family := "XABCD", name := "gartley", bullish := false, formed := true
    points := [103, 20, 70, 40, 100], completionMin := 199 / 2, completionMax := 201 / 2 }

def cappedInput : BuildInput :=
  { df := frameOf ((List.range 60).map cappedBar), interval := "4h", candidates := [deepGartley]
    divergences := some ⟨[("rsi", [{ name := "Regular", bullish := false }]),
      ("macd", [{ name := "Regular", bullish := false }])], by decide⟩ }

theorem capped_view : (buildSignal plainNumerics defaultProcess cappedInput).toOption.join.map
    (fun S => S.targets.map SignalTarget.price) =
      some [6944 / 100, 5056 / 100, -176 / 100] := by
  decide +kernel

theorem cappedInput_positive : PositiveInput cappedInput where
  frame := by decide +kernel
  candidates := by decide +kernel

theorem capped_signal : ∃ S, buildSignal plainNumerics defaultProcess cappedInput = .ok (some S) ∧
    ¬ AllPositive S := by
  obtain ⟨S, hS, ht⟩ := exists_of_view capped_view
  refine ⟨S, hS, ?_⟩
  intro h
  have hmem : (-176 / 100 : ℚ) ∈ S.targets.map SignalTarget.price := by simp [ht]
  obtain ⟨t, hmt, hp⟩ := List.mem_map.mp hmem
  have := h.targets t hmt
  rw [hp] at this
  norm_num at this

/-- The extension of a short from 100 on a leg of 80 ends at -1.76. -/
theorem capped_not_openable : PositiveInput cappedInput ∧ ∃ S,
    buildSignal plainNumerics defaultProcess cappedInput = .ok (some S) ∧ ¬ Openable S := by
  obtain ⟨S, hS, hn⟩ := capped_signal
  exact ⟨cappedInput_positive, S, hS, fun h => hn h.positive⟩

theorem capped_beyond_extension : ∃ S ctx c,
    Origin plainNumerics defaultProcess cappedInput S ctx c ∧
      ¬ ExtensionFits defaultProcess ctx c := by
  obtain ⟨S, hS, hn⟩ := capped_signal
  obtain ⟨ctx, c, ho, hiff⟩ := openable_iff_extensionFits hS
  exact ⟨S, ctx, c, ho, fun h => hn (hiff.mpr h).positive⟩

end Pyharmonics
