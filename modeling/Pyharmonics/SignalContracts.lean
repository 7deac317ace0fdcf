import Pyharmonics.SignalGeometry

/-! The inputs on which no contract on the way of `build_signal` fails. -/
namespace Pyharmonics

variable {w : Process} {ctx : ScoreContext} {c : Candidate} {level : String}
  {i : BuildInput} {entry target atr price : ℚ} {a : StopArgs} {r : StopPlan}
  {t : TuningFields} {df : Frame} {last : Row} {cts : Option (List ℤ)} {cs : List Candidate}
  {sqrt : ℚ → ℚ} {resample : String → List (ℤ × ℚ) → List ℚ} {unknown : String → Bool}
  {α : Type}

/-- The points and the zone of a candidate are positive. -/
def Candidate.Positive (c : Candidate) : Prop :=
  (∀ p ∈ c.points, 0 < p) ∧ 0 < c.przLow ∧ 0 < c.przHigh

/-! The stop. -/

/-- A stop before it is rounded, and the anchor it hangs from. -/
structure PlannedStop where
  anchor : ℚ
  price : ℚ

/-- Where a stop is put; there is none without the point or the buffer it is made from. -/
def plannedStop (w : Process) (c : Candidate) (atr : ℚ) (level : String) (a : StopArgs) :
    Option PlannedStop := do
  let anchor ← (stopAnchor w c level "" a.swingAnchor a.entry).toOption
  let base ← (stopBase w level a).toOption
  return ⟨anchor.price, if c.bullish then anchor.price - effectiveMult base a * atr
    else anchor.price + effectiveMult base a * atr⟩

/-- Both prices are more than half a unit of the last digit above zero. -/
def PlannedStop.Fits (p : PlannedStop) : Prop :=
  1 / (2 * 10 ^ 8) < p.anchor ∧ 1 / (2 * 10 ^ 8) < p.price

def PlannedStop.stop (p : PlannedStop) : ℚ := Rounding.roundTo 8 p.price

theorem PlannedStop.Fits.stop_pos {p : PlannedStop} (h : p.Fits) : 0 < p.stop :=
  Rounding.roundTo_pos_iff.mpr h.2

theorem plannedStop_eq_some {p : PlannedStop} : plannedStop w c atr level a = some p ↔
    ∃ anchor base, stopAnchor w c level "" a.swingAnchor a.entry = .ok anchor ∧
      stopBase w level a = .ok base ∧
      p = ⟨anchor.price, if c.bullish then anchor.price - effectiveMult base a * atr
        else anchor.price + effectiveMult base a * atr⟩ := by
  simp only [plannedStop, Option.bind_eq_bind, Option.bind_eq_some_iff, toOption_eq_some]
  constructor
  · rintro ⟨anchor, ha, base, hb, h⟩
    exact ⟨anchor, base, ha, hb, (Option.some.inj h).symm⟩
  · rintro ⟨anchor, base, ha, hb, rfl⟩
    exact ⟨anchor, ha, base, hb, rfl⟩

theorem append_length_pos {s : String} (h : 0 < s.length) (u : String) : 0 < (s ++ u).length := by
  rw [String.length_append]
  omega

/-- A basis that starts with a text of the source is not empty. -/
theorem basis_pos {x : ℚ} {s l : String} {p : ℚ × String} (hs : 0 < s.length)
    (h : (.ok (x, s ++ l) : Except PyError (ℚ × String)) = .ok p) : 0 < p.2.length := by
  cases h
  exact append_length_pos hs l

theorem longAnchor_basis {e : Bool} {l : String} {p : ℚ × String}
    (h : longAnchor c level e l = .ok p) : 0 < p.2.length := by
  unfold longAnchor at h
  split_ifs at h
  · exact basis_pos (by decide) h
  · obtain ⟨_, -, h⟩ := bind_ok.mp h
    exact basis_pos (by decide) h
  · exact basis_pos (by decide) h
  · obtain ⟨_, -, h⟩ := bind_ok.mp h
    exact basis_pos (by decide) h

theorem shortAnchor_basis {e : Bool} {l : String} {p : ℚ × String}
    (h : shortAnchor c level e l = .ok p) : 0 < p.2.length := by
  unfold shortAnchor at h
  split_ifs at h
  · exact basis_pos (by decide) h
  · obtain ⟨_, -, h⟩ := bind_ok.mp h
    exact basis_pos (by decide) h
  · exact basis_pos (by decide) h
  · obtain ⟨_, -, h⟩ := bind_ok.mp h
    exact basis_pos (by decide) h

/-- The reason for a stop is never empty. -/
theorem stopAnchor_basis {l : String} {swing e : Option ℚ} {s : StopAnchor}
    (h : stopAnchor w c level l swing e = .ok s) : 0 < s.basis.length := by
  unfold stopAnchor at h
  simp only at h
  split_ifs at h
  · obtain ⟨p, hp, h⟩ := bind_ok.mp h
    cases h
    exact longAnchor_basis hp
  · obtain ⟨p, hp, h⟩ := bind_ok.mp h
    cases h
    exact shortAnchor_basis hp

theorem stopLevel_mem_keys (hl : level ∈ stopLevels) : level ∈ w.tuning.atrStopBuffer.keys := by
  apply w.tuning.stopLevel_mem
  simpa [stopLevels, requiredStopLossLevels] using hl

theorem placeStop_ok (hl : level ∈ stopLevels)
    (h : placeStop (.decimal sqrt resample unknown) w c atr level a = .ok r) :
    ∃ p, plannedStop w c atr level a = some p ∧ r.stop = p.stop ∧
      r.invalidation = Rounding.roundTo 8 p.anchor ∧ 0 < r.basis.length := by
  unfold placeStop at h
  simp only [if_pos (stopLevel_mem_keys hl)] at h
  obtain ⟨base, hbase, h⟩ := bind_ok.mp h
  obtain ⟨anchor, hanchor, h⟩ := bind_ok.mp h
  cases h
  obtain ⟨anchor', ha, hp⟩ := stopAnchor_label "" hanchor
  refine ⟨_, plannedStop_eq_some.mpr ⟨anchor', base, ha, hbase, rfl⟩, ?_, ?_, ?_⟩
  · rw [PlannedStop.stop, hp]
    rfl
  · rw [hp]
    rfl
  · exact append_length_pos (append_length_pos (stopAnchor_basis hanchor) _) _

theorem placeStop_of_planned {p : PlannedStop} (hl : level ∈ stopLevels)
    (h : plannedStop w c atr level a = some p) :
    Returns (placeStop (.decimal sqrt resample unknown) w c atr level a) := by
  obtain ⟨anchor, base, ha, hb, -⟩ := plannedStop_eq_some.mp h
  obtain ⟨anchor', ha', -⟩ := stopAnchor_label (Rounding.fixedText 2 base ++ "*ATR") ha
  unfold placeStop
  simp only [if_pos (stopLevel_mem_keys hl)]
  rw [returns_bind]
  refine ⟨base, hb, ?_⟩
  rw [returns_bind]
  exact ⟨anchor', ha', returns_pure⟩

/-- A stop is returned when it fits, and then it is the planned one. -/
theorem computeStop_eq_ok_iff (hl : level ∈ stopLevels) (hc : c.Positive) (hatr : 0 < atr) :
    computeStop (.decimal sqrt resample unknown) w c atr level a = .ok r ↔
      placeStop (.decimal sqrt resample unknown) w c atr level a = .ok r ∧
        ∃ p, plannedStop w c atr level a = some p ∧ p.Fits := by
  unfold computeStop
  simp only [require_bind_ok]
  rw [bind_ok]
  simp only [require_bind_ok]
  constructor
  · rintro ⟨-, -, -, s, hs, -, hinv, hstop, h⟩
    cases h
    obtain ⟨p, hp, hps, hpi, -⟩ := placeStop_ok hl hs
    rw [hpi, Rounding.roundTo_pos_iff] at hinv
    rw [hps, PlannedStop.stop, Rounding.roundTo_pos_iff] at hstop
    exact ⟨hs, p, hp, hinv, hstop⟩
  · rintro ⟨hr, q, hq, hfits⟩
    obtain ⟨p, hp, hps, hpi, hbasis⟩ := placeStop_ok hl hr
    obtain rfl : q = p := Option.some.inj (hq.symm.trans hp)
    refine ⟨hc.1, hc.2, hatr, r, hr, hbasis, ?_, ?_, rfl⟩
    · rw [hpi, Rounding.roundTo_pos_iff]
      exact hfits.1
    · rw [hps]
      exact hfits.stop_pos

/-- A call that goes on with the price of a stop. -/
theorem returns_stop_bind (hl : level ∈ stopLevels) (hc : c.Positive) (hatr : 0 < atr)
    {f : StopPlan → Except PyError α} {Q : PlannedStop → Prop}
    (hf : ∀ r p, p.Fits → r.stop = p.stop → (Returns (f r) ↔ Q p)) :
    Returns (computeStop (.decimal sqrt resample unknown) w c atr level a >>= f) ↔
      ∃ p, plannedStop w c atr level a = some p ∧ p.Fits ∧ Q p := by
  rw [returns_bind]
  constructor
  · rintro ⟨r, hr, hfr⟩
    obtain ⟨hplace, p, hp, hfits⟩ := (computeStop_eq_ok_iff hl hc hatr).mp hr
    obtain ⟨q, hq, hstop, -⟩ := placeStop_ok hl hplace
    obtain rfl : p = q := Option.some.inj (hp.symm.trans hq)
    exact ⟨p, hp, hfits, (hf r p hfits hstop).mp hfr⟩
  · rintro ⟨p, hp, hfits, hQ⟩
    obtain ⟨r, hr⟩ : Returns (placeStop (.decimal sqrt resample unknown) w c atr level a) :=
      placeStop_of_planned hl hp
    obtain ⟨q, hq, hstop, -⟩ := placeStop_ok hl hr
    obtain rfl : p = q := Option.some.inj (hp.symm.trans hq)
    exact ⟨r, (computeStop_eq_ok_iff hl hc hatr).mpr ⟨hr, p, hp, hfits⟩, (hf r p hfits hstop).mpr hQ⟩

/-! The targets and their ratios. -/

/-- A published target of the ladder. -/
def targetAt (c : Candidate) (aPrice entry fib : ℚ) : ℚ :=
  Rounding.roundTo 8 (projection c aPrice entry fib)

/-- The prices the geometry is checked on. -/
def ladderPrices (t : TuningFields) (c : Candidate) (aPrice entry : ℚ) : List ℚ :=
  [t.fibTp1, t.fibTp2, t.fibTp3].map (targetAt c aPrice entry)

/-- The ladder has a leg to project and three shares to close. -/
structure Ladder (t : TuningFields) (c : Candidate) (aPrice : ℚ) : Prop where
  leg : c.aPrice = .ok aPrice
  shares : 3 ≤ t.tpClosePcts.length

/-- A positive target whose net ratio does not round to zero. -/
structure RatioFits (t : TuningFields) (entry stop target : ℚ) : Prop where
  target_pos : 0 < target
  ratio : 0 < |entry - stop| → 0 < |target - entry| - cost t entry →
    0 < |entry - stop| + cost t entry →
      1 / (2 * 10 ^ 4) < (|target - entry| - cost t entry) / (|entry - stop| + cost t entry)

theorem closePctAt_returns {k : ℕ} : Returns (closePctAt t k) ↔ k < t.tpClosePcts.length := by
  unfold closePctAt
  by_cases h : k < t.tpClosePcts.length
  · simp [h]
  · simp [h]

/-- A call that goes on with the prices of the targets. -/
theorem returns_targets_bind {f : List SignalTarget → Except PyError α} {Q : ℚ → Prop}
    (hf : ∀ targets aPrice, targets.map SignalTarget.price =
      ladderPrices w.getTuning.toTuningFields c aPrice entry → (Returns (f targets) ↔ Q aPrice)) :
    Returns (computeTargets (.decimal sqrt resample unknown) w c entry >>= f) ↔
      ∃ aPrice, Ladder w.getTuning.toTuningFields c aPrice ∧ Q aPrice := by
  rw [returns_bind]
  constructor
  · rintro ⟨targets, ht, hft⟩
    obtain ⟨aPrice, ha, hp⟩ := computeTargets_prices ht
    obtain ⟨_, -, ht⟩ := bind_ok.mp ht
    obtain ⟨_, -, ht⟩ := bind_ok.mp ht
    obtain ⟨_, -, ht⟩ := bind_ok.mp ht
    obtain ⟨_, h3, -⟩ := bind_ok.mp ht
    exact ⟨aPrice, ⟨ha, closePctAt_returns.mp ⟨_, h3⟩⟩, (hf targets aPrice hp).mp hft⟩
  · rintro ⟨aPrice, ⟨ha, hlen⟩, hQ⟩
    obtain ⟨p1, h1⟩ := closePctAt_returns.mpr (show 0 < w.getTuning.tpClosePcts.length by omega)
    obtain ⟨p2, h2⟩ := closePctAt_returns.mpr (show 1 < w.getTuning.tpClosePcts.length by omega)
    obtain ⟨p3, h3⟩ := closePctAt_returns.mpr (show 2 < w.getTuning.tpClosePcts.length by omega)
    have hok : Returns (computeTargets (.decimal sqrt resample unknown) w c entry) := by
      unfold computeTargets
      rw [ha, ok_bind, h1, ok_bind, h2, ok_bind, h3, ok_bind]
      exact returns_pure
    obtain ⟨targets, ht⟩ := hok
    obtain ⟨b, hb, hp⟩ := computeTargets_prices ht
    obtain rfl : aPrice = b := Except.ok.inj (ha.symm.trans hb)
    exact ⟨targets, ht, (hf targets aPrice hp).mpr hQ⟩

theorem netRatio_pos_iff {stop : ℚ} (he : 0 < entry) :
    (∀ x ∈ netRatio (.decimal sqrt resample unknown) t entry stop target, 0 < x) ↔
      (0 < |entry - stop| → 0 < |target - entry| - cost t entry →
        0 < |entry - stop| + cost t entry → 1 / (2 * 10 ^ 4) <
          (|target - entry| - cost t entry) / (|entry - stop| + cost t entry)) := by
  constructor
  · intro h hk hr hn
    have := h _ (netRatio_of he hr hk hn)
    exact Rounding.roundTo_pos_iff.mp this
  · intro h x hx
    obtain ⟨-, hr, hk, hn, rfl⟩ := netRatio_some hx
    exact Rounding.roundTo_pos_iff.mpr (h hk hr hn)

/-- A call that goes on with a ratio, between a positive entry and a positive stop. -/
theorem returns_netRr_bind {stop : ℚ} (he : 0 < entry) (hs : 0 < stop)
    {f : Option ℚ → Except PyError α} :
    Returns (netRr (.decimal sqrt resample unknown) w entry stop target >>= f) ↔
      RatioFits w.getTuning.toTuningFields entry stop target ∧
        Returns (f (netRatio (.decimal sqrt resample unknown) w.getTuning.toTuningFields entry stop
          target)) := by
  have hok : ∀ x, netRr (.decimal sqrt resample unknown) w entry stop target = .ok x ↔
      RatioFits w.getTuning.toTuningFields entry stop target ∧
        x = netRatio (.decimal sqrt resample unknown) w.getTuning.toTuningFields entry stop
          target := by
    intro x
    unfold netRr
    simp only [require_bind_ok, netRatio_pos_iff he]
    constructor
    · rintro ⟨ht, -, -, hr, h⟩
      exact ⟨⟨ht, hr⟩, (Except.ok.inj h).symm⟩
    · rintro ⟨hfits, rfl⟩
      exact ⟨hfits.target_pos, hs, he, hfits.ratio, rfl⟩
  rw [returns_bind]
  simp only [hok]
  constructor
  · rintro ⟨_, ⟨hfits, rfl⟩, hf⟩
    exact ⟨hfits, hf⟩
  · rintro ⟨hfits, hf⟩
    exact ⟨_, ⟨hfits, rfl⟩, hf⟩

/-! The grade. -/

theorem gradeOf_ne_c {score aMin : ℚ} {rr1 rr2 x : Option ℚ} {al co : Bool} :
    gradeOf score rr1 rr2 al co aMin x ≠ some .c := by
  unfold gradeOf
  split
  · simp only
    split_ifs <;> simp
  · simp

/-- A call that goes on with the grade of a score on its scale. -/
theorem returns_grade_bind {score aMin : ℚ} {rr1 rr2 x : Option ℚ} {al co : Bool}
    (hac : ¬ (al = true ∧ co = true)) (ha : 0 < aMin) (hs : 0 ≤ score ∧ score ≤ 100)
    {f : Option Grade → Except PyError α} :
    Returns (gradeSignal score rr1 rr2 al co aMin x >>= f) ↔
      aMin ≤ 100 ∧ Returns (f (gradeOf score rr1 rr2 al co aMin x)) := by
  have hok : ∀ g, gradeSignal score rr1 rr2 al co aMin x = .ok g ↔
      aMin ≤ 100 ∧ g = gradeOf score rr1 rr2 al co aMin x := by
    intro g
    unfold gradeSignal
    simp only [require_bind_ok]
    constructor
    · rintro ⟨-, ⟨-, h⟩, -, -, hg⟩
      exact ⟨h, (Except.ok.inj hg).symm⟩
    · rintro ⟨h, rfl⟩
      exact ⟨hac, ⟨ha, h⟩, hs, gradeOf_ne_c, rfl⟩
  rw [returns_bind]
  simp only [hok]
  constructor
  · rintro ⟨_, ⟨h, rfl⟩, hf⟩
    exact ⟨h, hf⟩
  · rintro ⟨h, hf⟩
    exact ⟨_, ⟨h, rfl⟩, hf⟩

theorem not_aligned_and_counter (c : Candidate) (trend : Trend) :
    ¬ (htfAligned c trend = true ∧ htfCounter c trend = true) := by
  cases hb : c.bullish <;> cases trend <;> simp [htfAligned, htfCounter, hb]

/-- The trap score is on the scale of the multiplier, which stays at one. -/
theorem trapStopMultiplier_eq (df : Frame) (lo hi : ℚ) (b : Bool) (n : ℤ) :
    trapStopMultiplier (quantTrapRisk df lo hi b n).score = .ok 1 := by
  have hrange : 0 ≤ (quantTrapRisk df lo hi b n).score ∧
      (quantTrapRisk df lo hi b n).score ≤ 100 := by
    unfold quantTrapRisk
    simp only
    split_ifs <;> simp
  unfold trapStopMultiplier
  simp only [require_bind_ok]
  rw [trapCurve_eq_one]
  exact ⟨hrange, by norm_num, rfl⟩

end Pyharmonics
