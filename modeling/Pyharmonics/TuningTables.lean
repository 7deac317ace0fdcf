import Pyharmonics.Tuning

/-! The fields of a tuning by name: what `getattr` reads and what `replace` writes. -/
namespace Pyharmonics

/-- The number fields. -/
inductive RatField
  | fibTp1 | fibTp2 | fibTp3 | atrPrzSweep | feeRate | slippageRate | maxPrzDistanceAtr
  | maxFormingPrzWidthAtr | adverseSharpeThreshold | targetAtrPct | highQuantPositionMult
  | slopeTrendUp | slopeTrendDown | multTrendingAligned | multRangingAligned
  | multTrendingInverse | multRangingInverse | multExtremeInverse | multDataShort
  | extremeDeviationPct
  deriving DecidableEq

/-- The integer fields. -/
inductive IntField
  | maxDAgeBars | authenticityHalve | authenticityVeto | regimeModerate | regimeHigh
  | defaultTtlBars | fundingConfluenceDefault | aGradeMin | aGradeMinHighQuant | stabilityWindow
  | minCandles | atrWindow | atrLongWindow | rsiWindow | volumeMaWindow | swingLookback
  | quantTrapLookback | volumeAuthenticityWindow | quantRegimeWindow | perBarSharpeWindow
  | minDailyBars
  deriving DecidableEq

/-- The fields that map names to numbers. -/
inductive DictField
  | atrStopBuffer | confluenceWeights | patternBaseScore
  deriving DecidableEq

inductive TuningField
  | rat (f : RatField) | int (f : IntField) | dict (f : DictField)
  | extendedPatterns | htfRule | tpClosePcts
  deriving DecidableEq

def RatField.all : List RatField :=
  [.fibTp1, .fibTp2, .fibTp3, .atrPrzSweep, .feeRate, .slippageRate, .maxPrzDistanceAtr,
    .maxFormingPrzWidthAtr, .adverseSharpeThreshold, .targetAtrPct, .highQuantPositionMult,
    .slopeTrendUp, .slopeTrendDown, .multTrendingAligned, .multRangingAligned,
    .multTrendingInverse, .multRangingInverse, .multExtremeInverse, .multDataShort,
    .extremeDeviationPct]

def RatField.name : RatField → String
  | fibTp1 => "fib_tp1"
  | fibTp2 => "fib_tp2"
  | fibTp3 => "fib_tp3"
  | atrPrzSweep => "atr_prz_sweep"
  | feeRate => "fee_rate"
  | slippageRate => "slippage_rate"
  | maxPrzDistanceAtr => "max_prz_distance_atr"
  | maxFormingPrzWidthAtr => "max_forming_prz_width_atr"
  | adverseSharpeThreshold => "adverse_sharpe_threshold"
  | targetAtrPct => "target_atr_pct"
  | highQuantPositionMult => "high_quant_position_mult"
  | slopeTrendUp => "slope_trend_up"
  | slopeTrendDown => "slope_trend_down"
  | multTrendingAligned => "mult_trending_aligned"
  | multRangingAligned => "mult_ranging_aligned"
  | multTrendingInverse => "mult_trending_inverse"
  | multRangingInverse => "mult_ranging_inverse"
  | multExtremeInverse => "mult_extreme_inverse"
  | multDataShort => "mult_data_short"
  | extremeDeviationPct => "extreme_deviation_pct"

def IntField.all : List IntField :=
  [.maxDAgeBars, .authenticityHalve, .authenticityVeto, .regimeModerate, .regimeHigh,
    .defaultTtlBars, .fundingConfluenceDefault, .aGradeMin, .aGradeMinHighQuant,
    .stabilityWindow, .minCandles, .atrWindow, .atrLongWindow, .rsiWindow, .volumeMaWindow,
    .swingLookback, .quantTrapLookback, .volumeAuthenticityWindow, .quantRegimeWindow,
    .perBarSharpeWindow, .minDailyBars]

def IntField.name : IntField → String
  | maxDAgeBars => "max_d_age_bars"
  | authenticityHalve => "authenticity_halve"
  | authenticityVeto => "authenticity_veto"
  | regimeModerate => "regime_moderate"
  | regimeHigh => "regime_high"
  | defaultTtlBars => "default_ttl_bars"
  | fundingConfluenceDefault => "funding_confluence_default"
  | aGradeMin => "a_grade_min"
  | aGradeMinHighQuant => "a_grade_min_high_quant"
  | stabilityWindow => "stability_window"
  | minCandles => "min_candles"
  | atrWindow => "atr_window"
  | atrLongWindow => "atr_long_window"
  | rsiWindow => "rsi_window"
  | volumeMaWindow => "volume_ma_window"
  | swingLookback => "swing_lookback"
  | quantTrapLookback => "quant_trap_lookback"
  | volumeAuthenticityWindow => "volume_authenticity_window"
  | quantRegimeWindow => "quant_regime_window"
  | perBarSharpeWindow => "per_bar_sharpe_window"
  | minDailyBars => "min_daily_bars"

def DictField.all : List DictField :=
  [.atrStopBuffer, .confluenceWeights, .patternBaseScore]

def DictField.name : DictField → String
  | atrStopBuffer => "atr_stop_buffer"
  | confluenceWeights => "confluence_weights"
  | patternBaseScore => "pattern_base_score"

def TuningField.name : TuningField → String
  | rat f => f.name
  | int f => f.name
  | dict f => f.name
  | extendedPatterns => "extended_patterns"
  | htfRule => "htf_rule"
  | tpClosePcts => "tp_close_pcts"

/-- The fields, by kind. -/
def TuningField.all : List TuningField :=
  RatField.all.map .rat ++ IntField.all.map .int ++ DictField.all.map .dict ++
    [.extendedPatterns, .htfRule, .tpClosePcts]

theorem TuningField.mem_all (f : TuningField) : f ∈ TuningField.all := by
  cases f with
  | rat f => cases f <;> decide
  | int f => cases f <;> decide
  | dict f => cases f <;> decide
  | _ => decide

namespace TuningFields

def rat (t : TuningFields) : RatField → ℚ
  | .fibTp1 => t.fibTp1
  | .fibTp2 => t.fibTp2
  | .fibTp3 => t.fibTp3
  | .atrPrzSweep => t.atrPrzSweep
  | .feeRate => t.feeRate
  | .slippageRate => t.slippageRate
  | .maxPrzDistanceAtr => t.maxPrzDistanceAtr
  | .maxFormingPrzWidthAtr => t.maxFormingPrzWidthAtr
  | .adverseSharpeThreshold => t.adverseSharpeThreshold
  | .targetAtrPct => t.targetAtrPct
  | .highQuantPositionMult => t.highQuantPositionMult
  | .slopeTrendUp => t.slopeTrendUp
  | .slopeTrendDown => t.slopeTrendDown
  | .multTrendingAligned => t.multTrendingAligned
  | .multRangingAligned => t.multRangingAligned
  | .multTrendingInverse => t.multTrendingInverse
  | .multRangingInverse => t.multRangingInverse
  | .multExtremeInverse => t.multExtremeInverse
  | .multDataShort => t.multDataShort
  | .extremeDeviationPct => t.extremeDeviationPct

def int (t : TuningFields) : IntField → ℤ
  | .maxDAgeBars => t.maxDAgeBars
  | .authenticityHalve => t.authenticityHalve
  | .authenticityVeto => t.authenticityVeto
  | .regimeModerate => t.regimeModerate
  | .regimeHigh => t.regimeHigh
  | .defaultTtlBars => t.defaultTtlBars
  | .fundingConfluenceDefault => t.fundingConfluenceDefault
  | .aGradeMin => t.aGradeMin
  | .aGradeMinHighQuant => t.aGradeMinHighQuant
  | .stabilityWindow => t.stabilityWindow
  | .minCandles => t.minCandles
  | .atrWindow => t.atrWindow
  | .atrLongWindow => t.atrLongWindow
  | .rsiWindow => t.rsiWindow
  | .volumeMaWindow => t.volumeMaWindow
  | .swingLookback => t.swingLookback
  | .quantTrapLookback => t.quantTrapLookback
  | .volumeAuthenticityWindow => t.volumeAuthenticityWindow
  | .quantRegimeWindow => t.quantRegimeWindow
  | .perBarSharpeWindow => t.perBarSharpeWindow
  | .minDailyBars => t.minDailyBars

def dict (t : TuningFields) : DictField → Dict String ℚ
  | .atrStopBuffer => t.atrStopBuffer
  | .confluenceWeights => t.confluenceWeights
  | .patternBaseScore => t.patternBaseScore

/-- The tuning with these values in its number, integer and dict fields. -/
def withTables (t : TuningFields) (r : RatField → ℚ) (i : IntField → ℤ)
    (d : DictField → Dict String ℚ) : TuningFields where
  fibTp1 := r .fibTp1
  fibTp2 := r .fibTp2
  fibTp3 := r .fibTp3
  extendedPatterns := t.extendedPatterns
  htfRule := t.htfRule
  atrStopBuffer := d .atrStopBuffer
  atrPrzSweep := r .atrPrzSweep
  tpClosePcts := t.tpClosePcts
  feeRate := r .feeRate
  slippageRate := r .slippageRate
  maxDAgeBars := i .maxDAgeBars
  maxPrzDistanceAtr := r .maxPrzDistanceAtr
  maxFormingPrzWidthAtr := r .maxFormingPrzWidthAtr
  authenticityHalve := i .authenticityHalve
  authenticityVeto := i .authenticityVeto
  adverseSharpeThreshold := r .adverseSharpeThreshold
  regimeModerate := i .regimeModerate
  regimeHigh := i .regimeHigh
  targetAtrPct := r .targetAtrPct
  defaultTtlBars := i .defaultTtlBars
  fundingConfluenceDefault := i .fundingConfluenceDefault
  confluenceWeights := d .confluenceWeights
  aGradeMin := i .aGradeMin
  aGradeMinHighQuant := i .aGradeMinHighQuant
  highQuantPositionMult := r .highQuantPositionMult
  patternBaseScore := d .patternBaseScore
  stabilityWindow := i .stabilityWindow
  minCandles := i .minCandles
  atrWindow := i .atrWindow
  atrLongWindow := i .atrLongWindow
  rsiWindow := i .rsiWindow
  volumeMaWindow := i .volumeMaWindow
  swingLookback := i .swingLookback
  quantTrapLookback := i .quantTrapLookback
  volumeAuthenticityWindow := i .volumeAuthenticityWindow
  quantRegimeWindow := i .quantRegimeWindow
  perBarSharpeWindow := i .perBarSharpeWindow
  slopeTrendUp := r .slopeTrendUp
  slopeTrendDown := r .slopeTrendDown
  multTrendingAligned := r .multTrendingAligned
  multRangingAligned := r .multRangingAligned
  multTrendingInverse := r .multTrendingInverse
  multRangingInverse := r .multRangingInverse
  multExtremeInverse := r .multExtremeInverse
  multDataShort := r .multDataShort
  extremeDeviationPct := r .extremeDeviationPct
  minDailyBars := i .minDailyBars

/-- `replace(t, **{name: v})` -/
def replaceRat (t : TuningFields) (f : RatField) (v : ℚ) : TuningFields :=
  t.withTables (Function.update t.rat f v) t.int t.dict

def replaceInt (t : TuningFields) (f : IntField) (v : ℤ) : TuningFields :=
  t.withTables t.rat (Function.update t.int f v) t.dict

def replaceDict (t : TuningFields) (f : DictField) (v : Dict String ℚ) : TuningFields :=
  t.withTables t.rat t.int (Function.update t.dict f v)

variable {t u v : TuningFields} {r : RatField → ℚ} {i : IntField → ℤ}
  {d : DictField → Dict String ℚ} {f : TuningField}

@[simp] theorem rat_withTables : (t.withTables r i d).rat = r := by
  funext f
  cases f <;> rfl

@[simp] theorem int_withTables : (t.withTables r i d).int = i := by
  funext f
  cases f <;> rfl

@[simp] theorem dict_withTables : (t.withTables r i d).dict = d := by
  funext f
  cases f <;> rfl

/-- The two tunings have the same value in this field. -/
def Same (t u : TuningFields) : TuningField → Prop
  | .rat f => t.rat f = u.rat f
  | .int f => t.int f = u.int f
  | .dict f => t.dict f = u.dict f
  | .extendedPatterns => t.extendedPatterns = u.extendedPatterns
  | .htfRule => t.htfRule = u.htfRule
  | .tpClosePcts => t.tpClosePcts = u.tpClosePcts

instance : DecidablePred (Same t u) := fun f => by
  unfold Same
  split <;> infer_instance

theorem Same.refl (t : TuningFields) (f : TuningField) : Same t t f := by
  cases f <;> rfl

theorem Same.trans (h : Same t u f) (h' : Same u v f) : Same t v f := by
  cases f <;> exact Eq.trans h h'

theorem Same.symm (h : Same t u f) : Same u t f := by
  cases f <;> exact Eq.symm h

/-- The fields in which two tunings differ. -/
def changed (t u : TuningFields) : Finset TuningField :=
  (TuningField.all.filter fun f => ¬ Same t u f).toFinset

theorem notMem_changed : f ∉ changed t u ↔ Same t u f := by
  simp [changed, TuningField.mem_all]

/-- A tuning is its fields. -/
theorem changed_eq_empty_iff : changed t u = ∅ ↔ t = u := by
  constructor
  · intro h
    have hall : ∀ f, Same t u f := fun f =>
      notMem_changed.mp (by rw [h]; exact Finset.notMem_empty f)
    have hself : ∀ t : TuningFields, t = t.withTables t.rat t.int t.dict := fun _ => rfl
    have hrat : t.rat = u.rat := funext fun f => hall (.rat f)
    have hint : t.int = u.int := funext fun f => hall (.int f)
    have hdict : t.dict = u.dict := funext fun f => hall (.dict f)
    rw [hself t, hself u, hrat, hint, hdict]
    have h₁ : t.extendedPatterns = u.extendedPatterns := hall .extendedPatterns
    have h₂ : t.htfRule = u.htfRule := hall .htfRule
    have h₃ : t.tpClosePcts = u.tpClosePcts := hall .tpClosePcts
    unfold withTables
    rw [h₁, h₂, h₃]
  · rintro rfl
    exact Finset.eq_empty_of_forall_notMem fun f => notMem_changed.mpr (Same.refl t f)

/-- Writing tables leaves a field as it is whose table has its old value. -/
theorem same_withTables (hr : ∀ g, f = .rat g → r g = t.rat g)
    (hi : ∀ g, f = .int g → i g = t.int g) (hd : ∀ g, f = .dict g → d g = t.dict g) :
    Same t (t.withTables r i d) f := by
  cases f with
  | rat g => exact (congrFun rat_withTables g).trans (hr g rfl) |>.symm
  | int g => exact (congrFun int_withTables g).trans (hi g rfl) |>.symm
  | dict g => exact (congrFun dict_withTables g).trans (hd g rfl) |>.symm
  | _ => rfl

/-- Replacing one field changes at most that field. -/
theorem same_replaceRat {g : RatField} {x : ℚ} (h : f ≠ .rat g) : Same t (t.replaceRat g x) f := by
  refine same_withTables (fun g' hf => ?_) (fun _ _ => rfl) fun _ _ => rfl
  exact Function.update_of_ne (fun heq => h (hf.trans (congrArg TuningField.rat heq))) _ _

theorem same_replaceInt {g : IntField} {x : ℤ} (h : f ≠ .int g) : Same t (t.replaceInt g x) f := by
  refine same_withTables (fun _ _ => rfl) (fun g' hf => ?_) fun _ _ => rfl
  exact Function.update_of_ne (fun heq => h (hf.trans (congrArg TuningField.int heq))) _ _

theorem same_replaceDict {g : DictField} {x : Dict String ℚ} (h : f ≠ .dict g) :
    Same t (t.replaceDict g x) f := by
  refine same_withTables (fun _ _ => rfl) (fun _ _ => rfl) fun g' hf => ?_
  exact Function.update_of_ne (fun heq => h (hf.trans (congrArg TuningField.dict heq))) _ _

end TuningFields

end Pyharmonics
