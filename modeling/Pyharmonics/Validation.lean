import Pyharmonics.Signals

/-! The validity verifiers: freshness, trap risk, volume authenticity, regime and momentum. -/
namespace Pyharmonics

open Series

inductive RejectionReason
  | staleDistance | staleAge | degeneratePrz | violated | completed
  deriving DecidableEq

structure Rejection where
  candidate : Candidate
  reason : RejectionReason
  deriving DecidableEq

/-- `rejection_reason` -/
def rejectionReason (N : Numerics) (w : Process) (c : Candidate) (price atr : ℚ)
    (closeTimes : Option (List ℤ)) : Except PyError (Option RejectionReason) := do
  let t := w.getTuning
  let przMid := (c.przLow + c.przHigh) / 2
  if 0 < atr ∧ t.maxPrzDistanceAtr * atr < |price - przMid| then
    return some .staleDistance
  let age : Option ℤ :=
    match closeTimes, c.times.getLast? with
    | some cts, some dTime => some (count (fun ct => dTime < ct) cts)
    | _, _ => none
  if ∃ a ∈ age, t.maxDAgeBars < a then
    return some .staleAge
  let width := c.przHigh - c.przLow
  if !c.formed ∧ (width ≤ 0 ∨ (0 < atr ∧ t.maxFormingPrzWidthAtr * atr < width)) then
    return some .degeneratePrz
  -- the stop is only defined for a positive ATR
  let violated ← if 0 < atr then do
      let s ← computeStop N w c atr
      pure (if c.bullish then decide (price < s.stop) else decide (s.stop < price))
    else pure false
  if violated then
    return some .violated
  let targets ← computeTargets N w c przMid
  let tp2 := (targets[1]?.map SignalTarget.price).getD 0
  if (c.bullish ∧ tp2 < price) ∨ (!c.bullish ∧ price < tp2) then
    return some .completed
  return none

/-- `rejection_reason` as the module attribute is bound when it is looked up. -/
def boundRejectionReason (N : Numerics) (w : Process) (c : Candidate) (price atr : ℚ)
    (closeTimes : Option (List ℤ)) : Except PyError (Option RejectionReason) :=
  match w.rejectionReason with
  | .original => rejectionReason N w c price atr closeTimes
  | .noop => .ok none

/-- `filter_candidates`: the valid ones and the rejections, in order. -/
def filterCandidates (N : Numerics) (w : Process) (price atr : ℚ)
    (closeTimes : Option (List ℤ)) :
    List Candidate → Except PyError (List Candidate × List Rejection)
  | [] => .ok ([], [])
  | c :: cs => do
    let reason ← boundRejectionReason N w c price atr closeTimes
    let (valid, rejected) ← filterCandidates N w price atr closeTimes cs
    match reason with
    | none => .ok (c :: valid, rejected)
    | some r => .ok (valid, ⟨c, r⟩ :: rejected)

/-- `direction_invariant_ok` -/
def directionInvariantOk (direction : DirectionWord) (entry stop : ℚ) : List ℚ → Bool
  | t1 :: t2 :: t3 :: _ =>
    if direction = .long then decide (stop < entry ∧ entry ≤ t1 ∧ t1 < t2 ∧ t2 < t3)
    else decide (entry < stop ∧ t1 ≤ entry ∧ t2 < t1 ∧ t3 < t2)
  | _ => false

structure TrapRisk where
  score : ℤ
  veto : Bool
  reasons : List String
  deriving DecidableEq

/-- Bars from the sixth on that pierce the extreme of the five before them and close back. -/
def falseBreaks (d : List Row) : ℕ :=
  count (fun i =>
    let before := (d.drop (i - 5)).take 5
    let prevHigh := maximum (before.map Row.high)
    let prevLow := minimum (before.map Row.low)
    ∃ r ∈ d[i]?, (prevHigh * (101 / 100) < r.high ∧ r.close < prevHigh) ∨
      (r.low < prevLow * (99 / 100) ∧ prevLow < r.close)) (List.range' 5 (d.length - 5))

/-- New three-bar lows that the next bar recovers in full. -/
def stopHunts (d : List Row) : ℕ :=
  count (fun i =>
    let recentLow := minimum (((d.drop (i - 3)).take 3).map Row.low)
    ∃ r ∈ d[i]?, ∃ next ∈ d[i + 1]?, r.low < recentLow * (995 / 1000) ∧ r.high < next.close)
    (List.range' 3 (d.length - 4))

/-- Bars of more than twice the volume before them with a tiny body. -/
def climaxes (d : List Row) : ℕ :=
  count (· = true) (paired (fun before r : Row =>
    let price := if 0 < r.close then r.close else r.openPrice
    decide (0 < before.volume ∧ 2 * before.volume < r.volume ∧ 0 < price ∧
      |r.close - r.openPrice| / price < 15 / 1000)) d)

/-- A wick into the zone and a close through it. -/
def przFails (przLow przHigh : ℚ) (bullish : Bool) (r : Row) : Bool :=
  if bullish then decide (przLow ≤ r.low ∧ r.low ≤ przHigh ∧ r.close < przLow)
  else decide (przLow ≤ r.high ∧ r.high ≤ przHigh ∧ przHigh < r.close)

/-- `quant_trap_risk` -/
def quantTrapRisk (df : Frame) (przLow przHigh : ℚ) (bullish : Bool) (lookback : ℤ) : TrapRisk :=
  let d := df.tail lookback
  let n := d.length
  if n < 15 then ⟨50, false, []⟩
  else
    let fbRate : ℚ := falseBreaks d / (n - 5)
    let shRate : ℚ := stopHunts d / (n - 4)
    let vcRate : ℚ := climaxes d / (n - 1)
    let fb : ℤ × Bool × List String :=
      if 25 / 100 < fbRate then (0, true, ["假突破率" ++ Rounding.percentText fbRate])
      else if 15 / 100 < fbRate then (-20, false, ["假突破频繁(" ++ Rounding.percentText fbRate ++ ")"])
      else if 8 / 100 < fbRate then (-8, false, ["存在假突破(" ++ Rounding.percentText fbRate ++ ")"])
      else (0, false, [])
    let sh : ℤ × List String :=
      if 10 / 100 < shRate then (-15, ["止损猎杀(" ++ Rounding.percentText shRate ++ ")"]) else (0, [])
    let vc : ℤ × List String :=
      if 12 / 100 < vcRate then (-15, ["量能高潮(" ++ Rounding.percentText vcRate ++ ")"]) else (0, [])
    let fails := d.any (przFails przLow przHigh bullish)
    ⟨min 90 (max 10 (50 + fb.1 + sh.1 + vc.1)), fb.2.1 || fails,
      fb.2.2 ++ sh.2 ++ vc.2 ++
        if fails then [if bullish then "PRZ支撑失败" else "PRZ阻力失败"] else []⟩

/-- The soft-knee curve of `trap_stop_multiplier`. -/
def trapCurve (trapScore : ℤ) : ℚ :=
  if trapScore < 60 then 1
  else if trapScore < 75 then 1 + (trapScore - 60) / 15 * (1 / 2)
  else if trapScore < 85 then 3 / 2 + (trapScore - 75) / 10 * (3 / 10)
  else min 2 (9 / 5 + (trapScore - 85) / 5 * (1 / 5))

/-- `trap_stop_multiplier` under its contract. -/
def trapStopMultiplier (trapScore : ℤ) : Except PyError ℚ := do
  require (0 ≤ trapScore ∧ trapScore ≤ 100) "trap_score must be 0-100"
  let m := trapCurve trapScore
  require (1 ≤ m ∧ m ≤ 2) "trap multiplier must be in [1.0, 2.0]"
  return m

/-- `int(min(100, max(0, round(score))))` -/
def percentScore (score : ℚ) : ℤ := min 100 (max 0 (Rounding.halfEven score))

/-- `volume_authenticity` -/
def volumeAuthenticity (df : Frame) (window : ℤ) : ℤ :=
  let d := df.tail window
  let n := d.length
  if n < 10 then 50
  else
    let vols := d.map Row.volume
    let aligned := count (· = true) (paired (fun before r : Row =>
      decide (before.close < r.close) == decide (before.volume < r.volume)) d)
    let alignmentRate : ℚ := aligned / (n - 1)
    let volMean := mean vols
    let spikeRate : ℚ := if 0 < volMean then
      (count (fun v => volMean * (5 / 2) < v) vols : ℚ) / n else 0
    let v := vols.map (· - volMean)
    let denom := (v.map (· ^ 2)).sum
    let autocorr : ℚ := if 0 < denom then (paired (· * ·) v).sum / denom else 0
    percentScore (alignmentRate * 100 * (40 / 100) + max 0 (100 - spikeRate * 400) * (40 / 100) +
      max 0 (50 + autocorr * 50) * (20 / 100))

/-- `bool(name)` of a detector's answer. -/
def found (name : Option String) : Bool := name.any (· ≠ "")

/-- `stability_verdict` -/
def stabilityVerdict (full sub1 sub2 : Option String) : ℤ × Bool :=
  if found full && found sub1 && found sub2 then
    if full = sub1 ∧ sub1 = sub2 then (85, false)
    else if full = sub1 ∨ full = sub2 then (55, false)
    else (25, false)
  else if found full && (found sub1 || found sub2) then (40, false)
  else if found full then (20, true)
  else (60, false)

/-- Bars that open away from the last close. -/
def gaps (d : List Row) : ℕ :=
  count (· = true) (paired (fun before r : Row =>
    decide (0 < before.close ∧ 8 / 1000 < |r.openPrice - before.close| / before.close)) d)

/-- Wide bars that close where they open. -/
def reversals (d : List Row) : ℕ :=
  count (fun r : Row => 0 < r.openPrice ∧ 0 < r.low ∧ 3 / 100 < (r.high - r.low) / r.low ∧
    |r.close - r.openPrice| / r.openPrice < 5 / 1000) d

/-- Returns more than three deviations from their mean; none when one of them is not a number. -/
def tailReturns (N : Numerics) (closes : List ℚ) : ℕ :=
  if 0 ∈ closes.dropLast then 0
  else
    let rets := paired (fun a b => (b - a) / a) closes
    let retStd := N.sqrt (variance 0 rets)
    if 0 < retStd then count (fun r => 3 * retStd < |r - mean rets|) rets else 0

/-- The score of `quant_regime` on a long enough window. -/
def regimeScore (N : Numerics) (d : List Row) : ℤ :=
  let n : ℚ := d.length
  let vols := d.map Row.volume
  let volMean := mean vols
  let volCv := if 0 < volMean then N.sqrt (variance 0 vols) / volMean else 0
  let gapScore := min 100 ((gaps d : ℚ) / (n - 1) * 300)
  let reversalScore := min 100 ((reversals d : ℚ) / n * 500)
  let volScore := min 100 (volCv * 80)
  let tailScore := min 100 ((tailReturns N (d.map Row.close) : ℚ) / (n - 1) * 1000)
  percentScore (gapScore * (25 / 100) + reversalScore * (25 / 100) + volScore * (30 / 100) +
    tailScore * (20 / 100))

/-- `quant_regime` -/
def quantRegime (N : Numerics) (w : Process) (df : Frame) (window : ℤ) : ℤ × Regime :=
  let d := df.tail window
  if d.length < 20 then (50, .normal)
  else
    let score := regimeScore N d
    let t := w.getTuning
    (score, if t.regimeHigh ≤ score then .highQuant
      else if t.regimeModerate ≤ score then .moderateQuant else .normal)

/-- One step of `closes.pct_change()`; `none` is NaN. -/
def pctChange (a b : ℚ) : Option Extended :=
  if a ≠ 0 then some (.finite (b / a - 1))
  else if 0 < b then some .posInf
  else if b < 0 then some .negInf
  else none

/-- The sign of a momentum without variance. -/
def drift (mean : ℚ) : Extended :=
  if 0 < mean then .posInf else if mean < 0 then .negInf else .finite 0

/-- `per_bar_sharpe` -/
def perBarSharpe (N : Numerics) (w : Process) (closes : List ℚ) : Extended :=
  let rets := tail w.getTuning.perBarSharpeWindow ((paired pctChange closes).filterMap id)
  if rets.length < 3 then .finite 0
  else if .posInf ∈ rets then if .negInf ∈ rets then .finite 0 else .posInf
  else if .negInf ∈ rets then .negInf
  else
    let xs := rets.filterMap fun r => match r with
      | .finite x => some x
      | _ => none
    let std := N.sqrt (variance 1 xs)
    if std < 1 / 10 ^ 12 then drift (mean xs) else .finite (mean xs / std)

/-- `adverse_momentum_veto` -/
def adverseMomentumVeto (w : Process) (direction : DirectionWord) (sharpe : Extended) : Bool :=
  let threshold := w.getTuning.adverseSharpeThreshold
  if direction = .long then sharpe.below (-threshold) else sharpe.above threshold

/-- `volatility_multiplier` -/
def volatilityMultiplier (N : Numerics) (w : Process) (atr close : ℚ) : ℚ :=
  if close ≤ 0 then 1
  else
    let atrPct := atr / close * 100
    let mult := w.getTuning.targetAtrPct / max atrPct (1 / 2)
    N.round 4 (min (3 / 2) (max (1 / 2) mult))

end Pyharmonics
