import Pyharmonics.Errors
import Pyharmonics.Library.Dict
import Mathlib.Algebra.Order.Field.Rat
import Mathlib.Data.Finset.Sort
import Mathlib.Data.String.Basic
import Mathlib.Tactic

/-! The tunable constants, their checks, and the tuning in force in a process. -/
namespace Pyharmonics

def requiredExtendedFamilies : Finset String :=
  {"butterfly", "deep butterfly", "crab", "deep crab", "shark", "deep shark"}

def requiredPatternFamilies : Finset String :=
  {"gartley", "bat", "butterfly", "crab", "deep crab", "shark"}

def requiredConfluenceKeys : Finset String :=
  {"price_action", "htf_trend", "rsi", "structure", "macd", "funding"}

def requiredStopLossLevels : Finset String := {"conservative", "standard", "aggressive"}

def requiredHtfKeys : Finset String := {"15m", "1h", "4h", "1d", "1w"}

def defaultHtfRule : Dict String String :=
  ⟨[("15m", "1h"), ("1h", "4h"), ("4h", "1D"), ("1d", "1W"), ("1w", "1ME")], by decide⟩

def defaultStopBuffer : Dict String ℚ :=
  ⟨[("conservative", 1), ("standard", 3 / 10), ("aggressive", 1 / 4)], by decide⟩

def defaultWeights : Dict String ℚ :=
  ⟨[("price_action", 25), ("htf_trend", 25), ("rsi", 15), ("structure", 15), ("macd", 10),
    ("funding", 10)], by decide⟩

def defaultBaseScores : Dict String ℚ :=
  ⟨[("gartley", 5), ("bat", 2), ("butterfly", 0), ("crab", -3), ("deep crab", -5),
    ("shark", -8)], by decide⟩

/-- The fields of a `TuningConstants` with their defaults. -/
structure TuningFields where
  fibTp1 : ℚ := 382 / 1000
  fibTp2 : ℚ := 618 / 1000
  fibTp3 : ℚ := 1272 / 1000
  extendedPatterns : Finset String := requiredExtendedFamilies
  htfRule : Dict String String := defaultHtfRule
  atrStopBuffer : Dict String ℚ := defaultStopBuffer
  atrPrzSweep : ℚ := 3 / 10
  tpClosePcts : List ℤ := [50, 30, 20]
  feeRate : ℚ := 1 / 1000
  slippageRate : ℚ := 5 / 10000
  maxDAgeBars : ℤ := 20
  maxPrzDistanceAtr : ℚ := 3
  maxFormingPrzWidthAtr : ℚ := 1
  authenticityHalve : ℤ := 40
  authenticityVeto : ℤ := 25
  adverseSharpeThreshold : ℚ := 1
  regimeModerate : ℤ := 35
  regimeHigh : ℤ := 60
  targetAtrPct : ℚ := 5 / 2
  defaultTtlBars : ℤ := 40
  fundingConfluenceDefault : ℤ := 5
  confluenceWeights : Dict String ℚ := defaultWeights
  aGradeMin : ℤ := 70
  aGradeMinHighQuant : ℤ := 85
  highQuantPositionMult : ℚ := 6 / 10
  patternBaseScore : Dict String ℚ := defaultBaseScores
  stabilityWindow : ℤ := 5
  minCandles : ℤ := 60
  atrWindow : ℤ := 14
  atrLongWindow : ℤ := 100
  rsiWindow : ℤ := 14
  volumeMaWindow : ℤ := 20
  swingLookback : ℤ := 60
  quantTrapLookback : ℤ := 60
  volumeAuthenticityWindow : ℤ := 60
  quantRegimeWindow : ℤ := 100
  perBarSharpeWindow : ℤ := 20
  slopeTrendUp : ℚ := 1 / 2
  slopeTrendDown : ℚ := -1 / 2
  multTrendingAligned : ℚ := 1
  multRangingAligned : ℚ := 1
  multTrendingInverse : ℚ := 6 / 10
  multRangingInverse : ℚ := 1 / 2
  multExtremeInverse : ℚ := 6 / 5
  multDataShort : ℚ := 8 / 10
  extremeDeviationPct : ℚ := 20
  minDailyBars : ℤ := 210
  deriving DecidableEq

/-- `sorted(names)` -/
def sortedNames (names : Finset String) : List String := names.sort (· ≤ ·)

/-- `str(sorted(names))`. -/
def sortedText (names : Finset String) : String :=
  "[" ++ ", ".intercalate ((sortedNames names).map fun s => "'" ++ s ++ "'") ++ "]"

/-- `if bad: raise ValueError(…)`. -/
def refuse (bad : Prop) [Decidable bad] (message : String) (got : List ℚ) : Except PyError Unit :=
  if bad then .error (.valueError message got) else .ok ()

@[simp] theorem refuse_ok {bad : Prop} [Decidable bad] {message : String} {got : List ℚ} :
    refuse bad message got = .ok () ↔ ¬ bad := by
  simp [refuse]

/-- A refusal in front of the rest of a call. -/
theorem returns_refuse {bad : Prop} [Decidable bad] {message : String} {got : List ℚ} {α : Type}
    {f : Unit → Except PyError α} : Returns (refuse bad message got >>= f) ↔ ¬ bad ∧ Returns (f ()) := by
  rw [returns_bind]
  constructor
  · rintro ⟨_, h, hf⟩
    exact ⟨refuse_ok.mp h, hf⟩
  · rintro ⟨h, hf⟩
    exact ⟨(), refuse_ok.mpr h, hf⟩

/-- The same for a set of names that has to be empty. -/
def refuseMissing (missing : Finset String) (message : String) : Except PyError Unit :=
  refuse (missing ≠ ∅) (message ++ sortedText missing) []

/-- The fields that have to be positive, in the order they are checked. -/
def TuningFields.intFields (t : TuningFields) : List ℤ :=
  [t.maxDAgeBars, t.defaultTtlBars, t.atrWindow, t.atrLongWindow, t.rsiWindow, t.volumeMaWindow,
    t.swingLookback, t.stabilityWindow, t.minCandles, t.minDailyBars, t.quantTrapLookback,
    t.volumeAuthenticityWindow, t.quantRegimeWindow, t.perBarSharpeWindow, t.authenticityHalve,
    t.authenticityVeto, t.regimeModerate, t.regimeHigh, t.aGradeMin, t.aGradeMinHighQuant]

/-- The hard constraints of `__post_init__`. -/
def TuningFields.checkHard (t : TuningFields) : Except PyError Unit := do
  refuse (¬ (t.fibTp1 < t.fibTp2 ∧ t.fibTp2 < t.fibTp3)) "fib_tp ordering violated: % < % < %"
    [t.fibTp1, t.fibTp2, t.fibTp3]
  refuse (t.tpClosePcts.sum ≠ 100) "tp_close_pcts must sum to 100, got %" [t.tpClosePcts.sum]
  refuse (¬ t.authenticityVeto < t.authenticityHalve)
    "authenticity_veto (%) must be < authenticity_halve (%)"
    [t.authenticityVeto, t.authenticityHalve]
  refuse (¬ t.regimeModerate < t.regimeHigh) "regime_moderate (%) must be < regime_high (%)"
    [t.regimeModerate, t.regimeHigh]
  let weightSum := t.confluenceWeights.values.sum
  refuse (1 / 10 ^ 6 < |weightSum - 100|) "confluence_weights must sum to 100, got %" [weightSum]
  refuseMissing (requiredConfluenceKeys \ t.confluenceWeights.keys.toFinset)
    "confluence_weights missing keys: "
  refuseMissing (requiredExtendedFamilies \ t.extendedPatterns)
    "extended_patterns missing required families: "
  refuseMissing (requiredStopLossLevels \ t.atrStopBuffer.keys.toFinset)
    "atr_stop_buffer missing levels: "
  match t.atrStopBuffer.get? "standard" with
  | none => pure ()
  | some std =>
    refuse (std < 2 / 10 ∨ 5 / 10 < std)
      ("atr_stop_buffer['standard']=% out of bounds [0.2, 0.5]; if a wider standard stop is " ++
        "genuinely required, also update docs/plans/stop-loss-expert-tuning-plan.md") [std]
  refuseMissing (requiredHtfKeys \ t.htfRule.keys.toFinset) "htf_rule missing intervals: "
  refuseMissing (requiredPatternFamilies \ t.patternBaseScore.keys.toFinset)
    "pattern_base_score missing families: "

/-- The soft constraints: the position multipliers are coherent. -/
def TuningFields.checkSoft (t : TuningFields) : Except PyError Unit := do
  let inverseMax := max t.multTrendingInverse t.multRangingInverse
  refuse (t.multExtremeInverse < inverseMax)
    "mult_extreme_inverse (%) must be >= max(trending_inverse, ranging_inverse) = %"
    [t.multExtremeInverse, inverseMax]
  let inverseMin := min t.multTrendingInverse t.multRangingInverse
  refuse (t.multTrendingAligned < inverseMin)
    "mult_trending_aligned (%) must be >= min(inverse bands) = %"
    [t.multTrendingAligned, inverseMin]
  refuse (t.multRangingAligned < inverseMin)
    "mult_ranging_aligned (%) must be >= min(inverse bands) = %" [t.multRangingAligned, inverseMin]
  refuse (¬ (1 / 2 ≤ t.multDataShort ∧ t.multDataShort ≤ 1))
    "mult_data_short (%) must lie in [0.5, 1.0]" [t.multDataShort]
  refuse (3 / 2 < t.multExtremeInverse)
    "mult_extreme_inverse (%) > 1.5 violates risk-parity product ceiling" [t.multExtremeInverse]

/-- Window positivity. -/
def TuningFields.checkWindows (t : TuningFields) : Except PyError Unit := do
  t.intFields.forM fun v => refuse (v ≤ 0) "window/grade field must be > 0, got %" [v]
  refuse (t.atrLongWindow < t.atrWindow) "atr_long_window (%) must be >= atr_window (%)"
    [t.atrLongWindow, t.atrWindow]

/-- `TuningConstants.__post_init__` -/
def TuningFields.postInit (t : TuningFields) : Except PyError Unit := do
  t.checkHard
  t.checkSoft
  t.checkWindows

/-- The immutable bundle: fields that have passed `__post_init__`. -/
structure TuningConstants extends TuningFields where
  valid : toTuningFields.postInit = .ok ()

/-- Construction, and `dataclasses.replace`, of which `t` is the outcome of the replacement. -/
def TuningFields.build (t : TuningFields) : Except PyError TuningConstants :=
  match h : t.postInit with
  | .ok () => .ok ⟨t, h⟩
  | .error e => .error e

theorem build_of_valid {t : TuningFields} (h : t.postInit = .ok ()) : t.build = .ok ⟨t, h⟩ := by
  unfold TuningFields.build
  split
  · rfl
  · next e he => rw [h] at he; cases he

/-- `TuningConstants()` -/
def TuningConstants.defaults : TuningConstants := ⟨{}, by decide +kernel⟩

theorem forM_refuse_ok {l : List ℤ} {bad : ℤ → Prop} [DecidablePred bad] {m : String} :
    (l.forM fun v => refuse (bad v) m [(v : ℚ)]) = .ok () ↔ ∀ v ∈ l, ¬ bad v := by
  induction l with
  | nil => exact iff_of_true rfl (by simp)
  | cons v l ih =>
    rw [List.forall_mem_cons, ← ih]
    constructor
    · intro h
      obtain ⟨_, hv, hl⟩ := bind_ok.mp h
      exact ⟨refuse_ok.mp hv, hl⟩
    · rintro ⟨hv, hl⟩
      exact bind_ok.mpr ⟨(), refuse_ok.mpr hv, hl⟩

/-- What a tuning has passed. -/
structure TuningFields.Checked (t : TuningFields) : Prop where
  fibOrder : t.fibTp1 < t.fibTp2 ∧ t.fibTp2 < t.fibTp3
  closePcts : t.tpClosePcts.sum = 100
  authenticity : t.authenticityVeto < t.authenticityHalve
  regime : t.regimeModerate < t.regimeHigh
  weightSum : |t.confluenceWeights.values.sum - 100| ≤ 1 / 10 ^ 6
  weightKeys : requiredConfluenceKeys ⊆ t.confluenceWeights.keys.toFinset
  families : requiredExtendedFamilies ⊆ t.extendedPatterns
  stopLevels : requiredStopLossLevels ⊆ t.atrStopBuffer.keys.toFinset
  standard : ∀ std ∈ t.atrStopBuffer.get? "standard", 2 / 10 ≤ std ∧ std ≤ 5 / 10
  htfKeys : requiredHtfKeys ⊆ t.htfRule.keys.toFinset
  baseScores : requiredPatternFamilies ⊆ t.patternBaseScore.keys.toFinset
  extremeTop : max t.multTrendingInverse t.multRangingInverse ≤ t.multExtremeInverse
  trendingAligned : min t.multTrendingInverse t.multRangingInverse ≤ t.multTrendingAligned
  rangingAligned : min t.multTrendingInverse t.multRangingInverse ≤ t.multRangingAligned
  dataShort : 1 / 2 ≤ t.multDataShort ∧ t.multDataShort ≤ 1
  extremeCeiling : t.multExtremeInverse ≤ 3 / 2
  positive : ∀ v ∈ t.intFields, 0 < v
  atrWindows : t.atrWindow ≤ t.atrLongWindow

theorem refuseMissing_ok {required found : Finset String} {m : String} :
    refuseMissing (required \ found) m = .ok () ↔ required ⊆ found := by
  rw [refuseMissing, refuse_ok, not_not, Finset.sdiff_eq_empty_iff_subset]

theorem TuningConstants.checked (t : TuningConstants) : t.Checked := by
  obtain ⟨_, hard, h⟩ := bind_ok.mp t.valid
  obtain ⟨_, soft, windows⟩ := bind_ok.mp h
  unfold TuningFields.checkHard at hard
  obtain ⟨_, fib, hard⟩ := bind_ok.mp hard
  obtain ⟨_, closePcts, hard⟩ := bind_ok.mp hard
  obtain ⟨_, authenticity, hard⟩ := bind_ok.mp hard
  obtain ⟨_, regime, hard⟩ := bind_ok.mp hard
  obtain ⟨_, weightSum, hard⟩ := bind_ok.mp hard
  obtain ⟨_, weightKeys, hard⟩ := bind_ok.mp hard
  obtain ⟨_, families, hard⟩ := bind_ok.mp hard
  obtain ⟨_, stopLevels, hard⟩ := bind_ok.mp hard
  obtain ⟨standard, htfKeys, baseScores⟩ :
      (∀ std ∈ t.atrStopBuffer.get? "standard", 2 / 10 ≤ std ∧ std ≤ 5 / 10) ∧
        requiredHtfKeys ⊆ t.htfRule.keys.toFinset ∧
        requiredPatternFamilies ⊆ t.patternBaseScore.keys.toFinset := by
    cases hstd : t.atrStopBuffer.get? "standard" with
    | none =>
      rw [hstd] at hard
      obtain ⟨_, htfKeys, baseScores⟩ := bind_ok.mp hard
      exact ⟨by simp, refuseMissing_ok.mp htfKeys, refuseMissing_ok.mp baseScores⟩
    | some std =>
      rw [hstd] at hard
      obtain ⟨_, standard, hard⟩ := bind_ok.mp hard
      obtain ⟨_, htfKeys, baseScores⟩ := bind_ok.mp hard
      obtain ⟨hlow, hhigh⟩ := not_or.mp (refuse_ok.mp standard)
      refine ⟨?_, refuseMissing_ok.mp htfKeys, refuseMissing_ok.mp baseScores⟩
      intro x hx
      obtain rfl := Option.some.inj hx
      exact ⟨not_lt.mp hlow, not_lt.mp hhigh⟩
  obtain ⟨_, extremeTop, soft⟩ := bind_ok.mp soft
  obtain ⟨_, trendingAligned, soft⟩ := bind_ok.mp soft
  obtain ⟨_, rangingAligned, soft⟩ := bind_ok.mp soft
  obtain ⟨_, dataShort, extremeCeiling⟩ := bind_ok.mp soft
  obtain ⟨_, positive, atrWindows⟩ := bind_ok.mp windows
  exact
    { fibOrder := not_not.mp (refuse_ok.mp fib)
      closePcts := not_not.mp (refuse_ok.mp closePcts)
      authenticity := not_not.mp (refuse_ok.mp authenticity)
      regime := not_not.mp (refuse_ok.mp regime)
      weightSum := not_lt.mp (refuse_ok.mp weightSum)
      weightKeys := refuseMissing_ok.mp weightKeys
      families := refuseMissing_ok.mp families
      stopLevels := refuseMissing_ok.mp stopLevels
      standard := standard
      htfKeys := htfKeys
      baseScores := baseScores
      extremeTop := not_lt.mp (refuse_ok.mp extremeTop)
      trendingAligned := not_lt.mp (refuse_ok.mp trendingAligned)
      rangingAligned := not_lt.mp (refuse_ok.mp rangingAligned)
      dataShort := not_not.mp (refuse_ok.mp dataShort)
      extremeCeiling := not_lt.mp (refuse_ok.mp extremeCeiling)
      positive := fun v hv => not_le.mp (forM_refuse_ok.mp positive v hv)
      atrWindows := not_lt.mp (refuse_ok.mp atrWindows) }

/-- Fields that meet every constraint pass `__post_init__`. -/
theorem TuningFields.Checked.valid {t : TuningFields} (h : t.Checked) : t.postInit = .ok () := by
  have hard : t.checkHard = .ok () := by
    refine bind_ok.mpr ⟨(), refuse_ok.mpr (not_not.mpr h.fibOrder), ?_⟩
    refine bind_ok.mpr ⟨(), refuse_ok.mpr (not_not.mpr h.closePcts), ?_⟩
    refine bind_ok.mpr ⟨(), refuse_ok.mpr (not_not.mpr h.authenticity), ?_⟩
    refine bind_ok.mpr ⟨(), refuse_ok.mpr (not_not.mpr h.regime), ?_⟩
    refine bind_ok.mpr ⟨(), refuse_ok.mpr (not_lt.mpr h.weightSum), ?_⟩
    refine bind_ok.mpr ⟨(), refuseMissing_ok.mpr h.weightKeys, ?_⟩
    refine bind_ok.mpr ⟨(), refuseMissing_ok.mpr h.families, ?_⟩
    refine bind_ok.mpr ⟨(), refuseMissing_ok.mpr h.stopLevels, ?_⟩
    cases hstd : t.atrStopBuffer.get? "standard" with
    | none =>
      exact bind_ok.mpr ⟨(), refuseMissing_ok.mpr h.htfKeys, refuseMissing_ok.mpr h.baseScores⟩
    | some std =>
      obtain ⟨hlow, hhigh⟩ := h.standard std hstd
      have standard := not_or.mpr ⟨not_lt.mpr hlow, not_lt.mpr hhigh⟩
      exact bind_ok.mpr ⟨(), refuse_ok.mpr standard,
        bind_ok.mpr ⟨(), refuseMissing_ok.mpr h.htfKeys, refuseMissing_ok.mpr h.baseScores⟩⟩
  have soft : t.checkSoft = .ok () := by
    refine bind_ok.mpr ⟨(), refuse_ok.mpr (not_lt.mpr h.extremeTop), ?_⟩
    refine bind_ok.mpr ⟨(), refuse_ok.mpr (not_lt.mpr h.trendingAligned), ?_⟩
    refine bind_ok.mpr ⟨(), refuse_ok.mpr (not_lt.mpr h.rangingAligned), ?_⟩
    exact bind_ok.mpr ⟨(), refuse_ok.mpr (not_not.mpr h.dataShort),
      refuse_ok.mpr (not_lt.mpr h.extremeCeiling)⟩
  have windows : t.checkWindows = .ok () :=
    bind_ok.mpr ⟨(), forM_refuse_ok.mpr fun v hv => not_le.mpr (h.positive v hv),
      refuse_ok.mpr (not_lt.mpr h.atrWindows)⟩
  exact bind_ok.mpr ⟨(), hard, bind_ok.mpr ⟨(), soft, windows⟩⟩

/-- Every window and every threshold on the list of checked fields is positive. -/
theorem TuningConstants.intFields_pos (t : TuningConstants) {v : ℤ} (hv : v ∈ t.intFields) :
    0 < v := t.checked.positive v hv

/-- Every stop level the engine accepts is a key of the stop buffers. -/
theorem TuningConstants.stopLevel_mem (t : TuningConstants) {level : String}
    (h : level ∈ requiredStopLossLevels) : level ∈ t.atrStopBuffer.keys :=
  List.mem_toFinset.mp (t.checked.stopLevels h)

end Pyharmonics
