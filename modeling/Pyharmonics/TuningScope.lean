import Pyharmonics.Tuning

/-! The tuning in force in a process: scopes over an applied tuning over the committed defaults. -/
namespace Pyharmonics

/-- A plain dict read from a tuning file; a missing key is `none`. -/
structure TuningDict where
  fibTp1 : Option ℚ := none
  fibTp2 : Option ℚ := none
  fibTp3 : Option ℚ := none
  extendedPatterns : Option (Finset String) := none
  htfRule : Option (Dict String String) := none
  atrStopBuffer : Option (Dict String ℚ) := none
  atrPrzSweep : Option ℚ := none
  tpClosePcts : Option (List ℤ) := none
  feeRate : Option ℚ := none
  slippageRate : Option ℚ := none
  maxDAgeBars : Option ℤ := none
  maxPrzDistanceAtr : Option ℚ := none
  maxFormingPrzWidthAtr : Option ℚ := none
  authenticityHalve : Option ℤ := none
  authenticityVeto : Option ℤ := none
  adverseSharpeThreshold : Option ℚ := none
  regimeModerate : Option ℤ := none
  regimeHigh : Option ℤ := none
  targetAtrPct : Option ℚ := none
  defaultTtlBars : Option ℤ := none
  fundingConfluenceDefault : Option ℤ := none
  confluenceWeights : Option (Dict String ℚ) := none
  aGradeMin : Option ℤ := none
  aGradeMinHighQuant : Option ℤ := none
  highQuantPositionMult : Option ℚ := none
  patternBaseScore : Option (Dict String ℚ) := none
  stabilityWindow : Option ℤ := none
  minCandles : Option ℤ := none
  atrWindow : Option ℤ := none
  atrLongWindow : Option ℤ := none
  rsiWindow : Option ℤ := none
  volumeMaWindow : Option ℤ := none
  swingLookback : Option ℤ := none
  quantTrapLookback : Option ℤ := none
  volumeAuthenticityWindow : Option ℤ := none
  quantRegimeWindow : Option ℤ := none
  perBarSharpeWindow : Option ℤ := none
  slopeTrendUp : Option ℚ := none
  slopeTrendDown : Option ℚ := none
  multTrendingAligned : Option ℚ := none
  multRangingAligned : Option ℚ := none
  multTrendingInverse : Option ℚ := none
  multRangingInverse : Option ℚ := none
  multExtremeInverse : Option ℚ := none
  multDataShort : Option ℚ := none
  extremeDeviationPct : Option ℚ := none
  minDailyBars : Option ℤ := none

/-- The defaults with the entries of the dict put in. -/
def TuningDict.over (d : TuningDict) (base : TuningFields) : TuningFields where
    fibTp1 := d.fibTp1.getD base.fibTp1
    fibTp2 := d.fibTp2.getD base.fibTp2
    fibTp3 := d.fibTp3.getD base.fibTp3
    extendedPatterns := d.extendedPatterns.getD base.extendedPatterns
    htfRule := d.htfRule.getD base.htfRule
    atrStopBuffer := d.atrStopBuffer.getD base.atrStopBuffer
    atrPrzSweep := d.atrPrzSweep.getD base.atrPrzSweep
    tpClosePcts := d.tpClosePcts.getD base.tpClosePcts
    feeRate := d.feeRate.getD base.feeRate
    slippageRate := d.slippageRate.getD base.slippageRate
    maxDAgeBars := d.maxDAgeBars.getD base.maxDAgeBars
    maxPrzDistanceAtr := d.maxPrzDistanceAtr.getD base.maxPrzDistanceAtr
    maxFormingPrzWidthAtr := d.maxFormingPrzWidthAtr.getD base.maxFormingPrzWidthAtr
    authenticityHalve := d.authenticityHalve.getD base.authenticityHalve
    authenticityVeto := d.authenticityVeto.getD base.authenticityVeto
    adverseSharpeThreshold := d.adverseSharpeThreshold.getD base.adverseSharpeThreshold
    regimeModerate := d.regimeModerate.getD base.regimeModerate
    regimeHigh := d.regimeHigh.getD base.regimeHigh
    targetAtrPct := d.targetAtrPct.getD base.targetAtrPct
    defaultTtlBars := d.defaultTtlBars.getD base.defaultTtlBars
    fundingConfluenceDefault := d.fundingConfluenceDefault.getD base.fundingConfluenceDefault
    confluenceWeights := d.confluenceWeights.getD base.confluenceWeights
    aGradeMin := d.aGradeMin.getD base.aGradeMin
    aGradeMinHighQuant := d.aGradeMinHighQuant.getD base.aGradeMinHighQuant
    highQuantPositionMult := d.highQuantPositionMult.getD base.highQuantPositionMult
    patternBaseScore := d.patternBaseScore.getD base.patternBaseScore
    stabilityWindow := d.stabilityWindow.getD base.stabilityWindow
    minCandles := d.minCandles.getD base.minCandles
    atrWindow := d.atrWindow.getD base.atrWindow
    atrLongWindow := d.atrLongWindow.getD base.atrLongWindow
    rsiWindow := d.rsiWindow.getD base.rsiWindow
    volumeMaWindow := d.volumeMaWindow.getD base.volumeMaWindow
    swingLookback := d.swingLookback.getD base.swingLookback
    quantTrapLookback := d.quantTrapLookback.getD base.quantTrapLookback
    volumeAuthenticityWindow := d.volumeAuthenticityWindow.getD base.volumeAuthenticityWindow
    quantRegimeWindow := d.quantRegimeWindow.getD base.quantRegimeWindow
    perBarSharpeWindow := d.perBarSharpeWindow.getD base.perBarSharpeWindow
    slopeTrendUp := d.slopeTrendUp.getD base.slopeTrendUp
    slopeTrendDown := d.slopeTrendDown.getD base.slopeTrendDown
    multTrendingAligned := d.multTrendingAligned.getD base.multTrendingAligned
    multRangingAligned := d.multRangingAligned.getD base.multRangingAligned
    multTrendingInverse := d.multTrendingInverse.getD base.multTrendingInverse
    multRangingInverse := d.multRangingInverse.getD base.multRangingInverse
    multExtremeInverse := d.multExtremeInverse.getD base.multExtremeInverse
    multDataShort := d.multDataShort.getD base.multDataShort
    extremeDeviationPct := d.extremeDeviationPct.getD base.extremeDeviationPct
    minDailyBars := d.minDailyBars.getD base.minDailyBars

/-- `from_dict`: a missing field falls back to the default of the dataclass. -/
def fromDict (d : TuningDict) : Except PyError TuningConstants :=
  (d.over TuningConstants.defaults.toTuningFields).build

/-- What `rejection_reason` is bound to in the validation module. -/
inductive RejectionReasonBinding
  | original | noop
  deriving DecidableEq

/-- The module state the engine reads. -/
structure Process where
  /-- The committed defaults, which default arguments froze at import. -/
  tuning : TuningConstants
  /-- `_applied_tuning` -/
  applied : Option TuningConstants := none
  /-- `_tuning_context`, innermost scope first. -/
  context : List TuningConstants := []
  /-- `validation.MAX_PRZ_DISTANCE_ATR` -/
  maxPrzDistanceAtr : ℚ := tuning.maxPrzDistanceAtr
  /-- `validation.MAX_D_AGE_BARS` -/
  maxDAgeBars : ℚ := tuning.maxDAgeBars
  /-- `validation.rejection_reason` -/
  rejectionReason : RejectionReasonBinding := .original

namespace Process

variable {w : Process} {t : TuningConstants}

/-- `get_tuning` -/
def getTuning (w : Process) : TuningConstants :=
  match w.context with
  | t :: _ => t
  | [] =>
    match w.applied with
    | some t => t
    | none => w.tuning

/-- `apply_tuning` -/
def applyTuning (w : Process) (t : TuningConstants) : Process := { w with applied := some t }

/-- `TuningScope(t).__enter__()` -/
def enter (w : Process) (t : TuningConstants) : Process := { w with context := t :: w.context }

/-- `TuningScope.__exit__` -/
def exit (w : Process) : Process := { w with context := w.context.tail }

@[simp] theorem getTuning_enter : (w.enter t).getTuning = t := rfl

@[simp] theorem exit_enter : (w.enter t).exit = w := rfl

end Process

end Pyharmonics
