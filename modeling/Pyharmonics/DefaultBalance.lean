import Pyharmonics.WhatIf

/-! The balance made from a configuration, and the checks that a configuration passes. -/
namespace Pyharmonics.Wallet

/-- The fields that the checks and the balance read. -/
structure PositionConfig where
  totalCapitalWu : ℚ
  emergencyRatio : ℚ
  btcRatio : ℚ
  altcoinMaxRatio : ℚ
  midAccountRatio : ℚ
  smallAccountRatio : ℚ
  smallTradableRatio : ℚ
  cutPositionWu : ℚ

structure ValidationResult where
  id : String
  label : String
  passed : Bool
  detail : String

/-- `x.toFixed(0)` -/
def toFixed0 (x : ℚ) : String :=
  if x < 0 then "-" ++ toString ⌊-x + 1 / 2⌋ else toString ⌊x + 1 / 2⌋

/-- `${(ratio * 100).toFixed(0)}%` -/
def percent (ratio : ℚ) : String := toFixed0 (ratio * 100) ++ "%"

def computeValidation (config : PositionConfig) : List ValidationResult :=
  let sumRatios := config.emergencyRatio + config.btcRatio + config.midAccountRatio +
    config.smallAccountRatio
  [⟨"sum-of-allocations", "资金总配比 ≤ 100%", sumRatios ≤ 10001 / 10000,
      "当前合计 " ++ percent sumRatios⟩,
    ⟨"small-tradable-range", "小账户可交易比例在 0~1 之间",
      0 ≤ config.smallTradableRatio && config.smallTradableRatio ≤ 1,
      "当前 " ++ percent config.smallTradableRatio⟩,
    ⟨"altcoin-cap", "山寨币上限未超过中账户",
      config.altcoinMaxRatio ≤ config.midAccountRatio + 1 / 10000,
      "山寨 " ++ percent config.altcoinMaxRatio ++ " / 中账户 " ++ percent config.midAccountRatio⟩,
    ⟨"emergency-positive", "救命钱比例 > 0", 0 < config.emergencyRatio,
      "当前 " ++ percent config.emergencyRatio⟩]

/-- What is left beside the cut position. -/
def PositionConfig.regular (config : PositionConfig) : ℚ :=
  max 0 (config.totalCapitalWu - config.cutPositionWu)

def createDefaultBalance (config : PositionConfig) : PositionBalance where
  emergencyWu := config.regular * config.emergencyRatio
  btcWu := config.regular * config.btcRatio
  midWu := config.regular * config.midAccountRatio
  smallTradableWu := config.regular * config.smallAccountRatio * config.smallTradableRatio
  smallReserveWu := config.regular * config.smallAccountRatio * (1 - config.smallTradableRatio)
  cutPositionWu := config.cutPositionWu

/-- No account is overdrawn, and with the cut position they hold no more than there is, up to the
tolerance of the sum of the ratios. -/
def PositionConfig.Sound (config : PositionConfig) : Prop :=
  (createDefaultBalance config).Solvent ∧
    (createDefaultBalance config).total + (createDefaultBalance config).cutPositionWu ≤
      config.totalCapitalWu + config.regular / 10000

variable {config : PositionConfig}

/-- What the four checks say. -/
theorem passed_iff : (∀ v ∈ computeValidation config, v.passed = true) ↔
    config.emergencyRatio + config.btcRatio + config.midAccountRatio + config.smallAccountRatio ≤
      10001 / 10000 ∧
    (0 ≤ config.smallTradableRatio ∧ config.smallTradableRatio ≤ 1) ∧
    config.altcoinMaxRatio ≤ config.midAccountRatio + 1 / 10000 ∧ 0 < config.emergencyRatio := by
  simp [computeValidation]

theorem total_createDefaultBalance : (createDefaultBalance config).total =
    config.regular * (config.emergencyRatio + config.btcRatio + config.midAccountRatio +
      config.smallAccountRatio) := by
  simp only [PositionBalance.total, priority, List.map_cons, List.map_nil, List.sum_cons,
    List.sum_nil, PositionBalance.amount, createDefaultBalance]
  ring

/-- With money in the accounts none is overdrawn exactly when no ratio is negative. -/
theorem solvent_iff (hregular : 0 < config.regular) (hemergency : 0 < config.emergencyRatio)
    (hlow : 0 ≤ config.smallTradableRatio) (hhigh : config.smallTradableRatio ≤ 1) :
    (createDefaultBalance config).Solvent ↔
      0 ≤ config.btcRatio ∧ 0 ≤ config.midAccountRatio ∧ 0 ≤ config.smallAccountRatio := by
  constructor
  · intro h
    have hbtc := h .btc
    have hmid := h .mid
    have htradable := h .smallTradable
    have hreserve := h .smallReserve
    simp only [PositionBalance.amount, createDefaultBalance] at hbtc hmid htradable hreserve
    refine ⟨nonneg_of_mul_nonneg_right hbtc hregular, nonneg_of_mul_nonneg_right hmid hregular, ?_⟩
    -- the two parts of the small account add up to it
    refine nonneg_of_mul_nonneg_right ?_ hregular
    linarith
  · rintro ⟨hbtc, hmid, hsmall⟩ key
    have hr := hregular.le
    cases key with
    | emergency => exact mul_nonneg hr hemergency.le
    | btc => exact mul_nonneg hr hbtc
    | mid => exact mul_nonneg hr hmid
    | smallTradable => exact mul_nonneg (mul_nonneg hr hsmall) hlow
    | smallReserve => exact mul_nonneg (mul_nonneg hr hsmall) (sub_nonneg.mpr hhigh)

/-- A configuration that passes the checks gives sound accounts exactly when the cut position is no
more than the capital, and no ratio is negative unless it is all of it. -/
theorem sound_iff (hpassed : ∀ v ∈ computeValidation config, v.passed = true) :
    config.Sound ↔ config.cutPositionWu ≤ config.totalCapitalWu ∧
      (config.cutPositionWu = config.totalCapitalWu ∨
        0 ≤ config.btcRatio ∧ 0 ≤ config.midAccountRatio ∧ 0 ≤ config.smallAccountRatio) := by
  obtain ⟨hsum, ⟨hlow, hhigh⟩, -, hemergency⟩ := passed_iff.mp hpassed
  have hcut : (createDefaultBalance config).cutPositionWu = config.cutPositionWu := rfl
  unfold PositionConfig.Sound
  rw [total_createDefaultBalance, hcut]
  rcases lt_trichotomy config.cutPositionWu config.totalCapitalWu with hlt | heq | hgt
  · have hregular : config.regular = config.totalCapitalWu - config.cutPositionWu :=
      max_eq_right (sub_nonneg.mpr hlt.le)
    have hpos : 0 < config.regular := by
      rw [hregular]
      exact sub_pos.mpr hlt
    have hbound : config.regular * (config.emergencyRatio + config.btcRatio +
        config.midAccountRatio + config.smallAccountRatio) + config.cutPositionWu ≤
        config.totalCapitalWu + config.regular / 10000 := by
      have := mul_le_mul_of_nonneg_left hsum hpos.le
      linarith
    rw [solvent_iff hpos hemergency hlow hhigh, and_iff_left hbound, and_iff_right hlt.le,
      or_iff_right hlt.ne]
  · have hregular : config.regular = 0 := by
      rw [PositionConfig.regular, heq, sub_self, max_self]
    refine iff_of_true ⟨?_, ?_⟩ ⟨heq.le, .inl heq⟩
    · intro key
      cases key <;> simp [PositionBalance.amount, createDefaultBalance, hregular]
    · rw [hregular, heq]
      simp
  · have hregular : config.regular = 0 := max_eq_left (sub_nonpos.mpr hgt.le)
    refine iff_of_false (fun h => ?_) fun h => absurd h.1 (not_le.mpr hgt)
    have hle := h.2
    rw [hregular, zero_mul, zero_add, zero_div, add_zero] at hle
    exact absurd hle (not_le.mpr hgt)

/-- `DEFAULT_CONFIG`, with other ratios for Bitcoin and other cut positions. -/
def exampleConfig (btcRatio cutPositionWu : ℚ) : PositionConfig :=
  ⟨10000, 3 / 10, btcRatio, 15 / 100, 25 / 100, 5 / 100, 14 / 100, cutPositionWu⟩

theorem exampleConfig_passed {btcRatio : ℚ} (hbtc : btcRatio ≤ 4 / 10) (cutPositionWu : ℚ) :
    ∀ v ∈ computeValidation (exampleConfig btcRatio cutPositionWu), v.passed = true := by
  rw [passed_iff]
  simp only [exampleConfig]
  refine ⟨by linarith, by norm_num, by norm_num, by norm_num⟩

theorem exampleConfig_sound : (exampleConfig (4 / 10) 0).Sound ↔
    (0 : ℚ) ≤ 10000 ∧ ((0 : ℚ) = 10000 ∨ (0 : ℚ) ≤ 4 / 10 ∧ (0 : ℚ) ≤ 25 / 100 ∧ (0 : ℚ) ≤ 5 / 100) :=
  sound_iff (exampleConfig_passed le_rfl 0)

/-- The checks pass a negative ratio, which overdraws its account, and a cut position above the
capital, which the balance keeps whole. -/
theorem exampleConfig_unsound :
    ((∀ v ∈ computeValidation (exampleConfig (-1 / 10) 0), v.passed = true) ∧
      (createDefaultBalance (exampleConfig (-1 / 10) 0)).btcWu = -1000 ∧
      ¬ (exampleConfig (-1 / 10) 0).Sound) ∧
    (∀ v ∈ computeValidation (exampleConfig (4 / 10) 20000), v.passed = true) ∧
      ¬ (exampleConfig (4 / 10) 20000).Sound := by
  have hbtc : (createDefaultBalance (exampleConfig (-1 / 10) 0)).btcWu = -1000 := by
    norm_num [createDefaultBalance, exampleConfig, PositionConfig.regular]
  refine ⟨⟨exampleConfig_passed (by norm_num) 0, hbtc, ?_⟩, exampleConfig_passed le_rfl 20000, ?_⟩
  · rintro ⟨hsolvent, -⟩
    have h : 0 ≤ (createDefaultBalance (exampleConfig (-1 / 10) 0)).btcWu := hsolvent .btc
    rw [hbtc] at h
    norm_num at h
  · rintro ⟨-, hle⟩
    rw [total_createDefaultBalance] at hle
    norm_num [createDefaultBalance, exampleConfig, PositionConfig.regular] at hle

end Pyharmonics.Wallet
