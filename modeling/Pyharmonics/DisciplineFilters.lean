import Pyharmonics.Signals
import Pyharmonics.Library.Series

/-! The checks a forming candidate has to pass after its pattern was detected. -/
namespace Pyharmonics.Discipline

open Series

structure CandidateMetrics where
  barsSinceC : ℤ := 0
  stale : Bool := false
  breachedStop : Bool := false
  pastTp2 : Bool := false
  inPrz : Bool := false
  distPct : ℚ := 0
  liquiditySweep : Bool := false
  deriving DecidableEq

structure DisciplineResult where
  passed : Bool
  metrics : CandidateMetrics
  deriving DecidableEq

/-- `_bars_since` of a pivot position, which is always set where it is called. -/
def barsSince (cIdx totalBars : ℤ) : ℤ := if cIdx < 0 then 0 else max 0 (totalBars - 1 - cIdx)

/-- `_prz_was_touched`: some bar's range meets the zone. -/
def przWasTouched (after : List Row) (przLow przHigh : ℚ) (bullish : Bool) : Bool :=
  if bullish then after.any fun r => decide (przLow ≤ r.high) && decide (r.low ≤ przHigh)
  else after.any fun r => decide (r.low ≤ przHigh) && decide (przLow ≤ r.high)

/-- `_past_tp2` -/
def pastTp2 (N : Numerics) (w : Process) (currentPrice : ℚ) (c : Candidate) (bullish : Bool) :
    Except PyError Bool := do
  let przMid := (c.przLow + c.przHigh) / 2
  if przMid ≤ 0 then
    return false
  let targets ← computeTargets N w c przMid
  let tp2 := (targets[1]?.map SignalTarget.price).getD 0
  return if bullish then decide (tp2 < currentPrice) else decide (currentPrice < tp2)

/-- `LIQUIDITY_SWEEP_MULT` -/
def liquiditySweepMult : ℚ := 3

/-- `_liquidity_sweep`: a surge of volume at the D bar over the mean of the twenty before it. -/
def liquiditySweep (df : Frame) (c : Candidate) : Bool :=
  match c.indices.getLast? with
  | none => false
  | some dIdx =>
    if c.indices.length < 2 ∨ dIdx ≤ 0 ∨ (df.length : ℤ) ≤ dIdx then false
    else
      let volumes := df.rows.map Row.volume
      let window := (volumes.take dIdx.toNat).drop (dIdx.toNat - 20)
      if mean window ≤ 0 then false
      else decide (mean window * liquiditySweepMult < volumes.getD dIdx.toNat 0)

/-- `_dist_pct`: how far the price is from the nearest edge of the zone. -/
def distPct (currentPrice : ℚ) (c : Candidate) (bullish : Bool) : ℚ :=
  let lo := c.przLow
  let hi := c.przHigh
  if currentPrice ≤ 0 ∨ lo ≤ 0 ∨ hi ≤ 0 then 0
  else if lo ≤ currentPrice ∧ currentPrice ≤ hi then 0
  else if bullish then
    if hi < currentPrice then (currentPrice / hi - 1) * 100 else (lo / currentPrice - 1) * 100
  else if currentPrice < lo then (lo / currentPrice - 1) * 100
  else (currentPrice / hi - 1) * 100

/-- The C pivot of a candidate: its bar position, else the time of older candidates, else zero. -/
def pivotIndex (c : Candidate) : ℤ :=
  if 2 ≤ c.indices.length then c.indices.getD (c.indices.length - 2) 0
  else if 2 ≤ c.times.length then c.times.getD (c.times.length - 2) 0
  else 0

/-- `df.iloc[start:]`, where a negative start counts from the end. -/
def rowsFrom (df : Frame) (start : ℤ) : List Row :=
  if 0 ≤ start then df.rows.drop start.toNat else Series.tail (-start) df.rows

/-- `evaluate`: path integrity, age, the second target and the liquidity sweep. -/
def evaluate (N : Numerics) (w : Process) (df : Frame) (c : Candidate) (currentPrice : ℚ)
    (maxTtl cIdx : Option ℤ) : Except PyError DisciplineResult := do
  let maxTtl := maxTtl.getD w.getTuning.defaultTtlBars
  require (0 ≤ maxTtl) "max_ttl must be non-negative"
  require (0 < currentPrice) "current_price must be positive"
  require (0 < c.przLow ∧ 0 < c.przHigh) "candidate PRZ bounds must be positive"
  require (0 < df.length) "df must not be empty"
  let n : ℤ := df.length
  let cIdx := cIdx.getD (pivotIndex c)
  let bars := barsSince cIdx n
  let after := if cIdx + 1 < n then rowsFrom df (cIdx + 1) else []
  let breached := przWasTouched after c.przLow c.przHigh c.bullish
  let past ← pastTp2 N w currentPrice c c.bullish
  return {
    passed := !breached && !past
    metrics := {
      barsSinceC := bars
      stale := decide (maxTtl < bars)
      breachedStop := breached
      pastTp2 := past
      inPrz := decide (c.przLow ≤ currentPrice ∧ currentPrice ≤ c.przHigh)
      distPct := distPct currentPrice c c.bullish
      liquiditySweep := liquiditySweep df c } }

variable {N : Numerics} {w : Process} {c : Candidate} {currentPrice : ℚ} {bullish : Bool}

theorem defaultTtl_nonneg : 0 ≤ w.getTuning.defaultTtlBars :=
  (w.getTuning.intFields_pos (by simp [TuningFields.intFields])).le

/-- The second target is looked at once the targets are there. -/
theorem pastTp2_returns (h : Returns (computeTargets N w c ((c.przLow + c.przHigh) / 2))) :
    Returns (pastTp2 N w currentPrice c bullish) := by
  unfold pastTp2
  simp only
  rw [returns_ite]
  intro _
  obtain ⟨targets, ht⟩ := h
  exact returns_bind.mpr ⟨targets, ht, returns_pure⟩

end Pyharmonics.Discipline
