import Mathlib.Data.Rat.Floor
import Mathlib.Tactic
import Pyharmonics.Errors

/-! The position size of a trade plan, and the units of the position page. -/
namespace Pyharmonics.Sizing

/-- `RISK_BY_APPETITE` -/
def riskByAppetite : List (String × ℚ) :=
  [("conservative", 5 / 1000), ("balanced", 1 / 100), ("aggressive", 15 / 1000)]

/-- `DEFAULT_RISK_PCT` -/
def defaultRiskPct : ℚ := 1 / 100

/-- `VOLATILITY_SIZE_REDUCTION` -/
def volatilitySizeReduction : ℚ := 1 / 2

/-- `WU_UNIT`, here and on the position page -/
def wuUnit : ℚ := 10000

structure PositionPlan where
  riskPerTradePct : Option ℚ
  totalCapitalWu : Option ℚ
  riskAmountWu : Option ℚ
  positionSizeWu : Option ℚ
  positionSizeU : Option ℚ
  sizingNote : String
  configured : Bool

/-- `compute_position`, given `round(x, n)`; the direction is not read. -/
def computePosition (round : ℕ → ℚ → ℚ) (entry stop totalCapitalWu : ℚ)
    (riskAppetite volatilityRegime : String) : Except PyError PositionPlan :=
  let riskPct := (riskByAppetite.lookup riskAppetite).getD defaultRiskPct
  let riskAmountWu := totalCapitalWu * riskPct
  if entry = 0 then .error (.other "ZeroDivisionError: float division by zero")
  else
    let riskPerUnit := |entry - stop| / entry
    if riskPerUnit ≤ 0 then .ok ⟨some riskPct, none, none, none, none, "", false⟩
    else
      let sizeWu := riskAmountWu / riskPerUnit
      let high := volatilityRegime = "high"
      let sizeWu := if high then sizeWu * volatilitySizeReduction else sizeWu
      .ok
        { riskPerTradePct := some (round 2 (riskPct * 100))
          totalCapitalWu := some totalCapitalWu
          riskAmountWu := some (round 2 riskAmountWu)
          positionSizeWu := some (round 2 sizeWu)
          positionSizeU := some (round 4 (sizeWu / wuUnit))
          sizingNote := if high then "波动率偏高，已按 0.5 系数减仓" else ""
          configured := true }

/-- The U amount that `formatWuAsU` rounds and prints. -/
def wuAsU (wu : ℚ) : ℚ := wu * wuUnit

/-- `Math.round(wu * WU_UNIT).toString()` -/
def formatWuAsU (wu : ℚ) : String := toString ⌊wuAsU wu + 1 / 2⌋

inductive CapitalParseResult
  | ok (wu : ℚ) (warning : Option String)
  | failed (reason : String)
  deriving DecidableEq

/-- `MIN_USEFUL_WU` -/
def minUsefulWu : ℚ := 1 / 100

/-- `parseCapitalInput`, given `trim` and what `Number` reads, if that is finite. -/
def parseCapitalInput (trim : String → String) (number : String → Option ℚ) (raw : String) :
    CapitalParseResult :=
  let trimmed := trim raw
  if trimmed = "" then .failed "empty"
  else
    match number trimmed with
    | none => .failed "请输入有效数字"
    | some num =>
      if num ≤ 0 then .failed "必须大于 0"
      else
        let wu := num / wuUnit
        if wu < minUsefulWu then .ok wu (some "金额过小，分配将失去参考意义") else .ok wu none

/-- Before rounding: at the stop the position loses no more than is risked, and its U amount is that
of its WU amount. -/
def PositionPlan.Sized (entry stop : ℚ) (plan : PositionPlan) : Prop :=
  ∃ risk wu u, plan.riskAmountWu = some risk ∧ plan.positionSizeWu = some wu ∧
    plan.positionSizeU = some u ∧ wu * (|entry - stop| / entry) ≤ risk ∧ u = wuAsU wu

variable {entry stop totalCapitalWu : ℚ} {riskAppetite volatilityRegime : String}

/-- The page reads a U amount as the WU amount it would print as it. -/
theorem wuAsU_of_parse {trim : String → String} {number : String → Option ℚ} {raw : String} {wu : ℚ}
    {warning : Option String} (h : parseCapitalInput trim number raw = .ok wu warning) :
    number (trim raw) = some (wuAsU wu) := by
  unfold parseCapitalInput at h
  cases hnum : number (trim raw) with
  | none =>
    simp only [hnum] at h
    split_ifs at h
  | some num =>
    simp only [hnum] at h
    split_ifs at h
    all_goals
      obtain ⟨rfl, -⟩ := CapitalParseResult.ok.inj h
      rw [wuAsU, div_mul_cancel₀ num (by norm_num [wuUnit])]

theorem risk_pos (appetite : String) : 0 < (riskByAppetite.lookup appetite).getD defaultRiskPct := by
  cases h : riskByAppetite.lookup appetite with
  | none => norm_num [defaultRiskPct]
  | some pct =>
    obtain ⟨before, after, hsplit, -⟩ := List.lookup_eq_some_iff.mp h
    have hall : ∀ e ∈ riskByAppetite, 0 < e.2 := by norm_num [riskByAppetite]
    exact hall (appetite, pct) (by simp [hsplit])

/-- The plan before rounding. -/
theorem computePosition_eq (hentry : 0 < entry) (hstop : stop ≠ entry) :
    ∃ plan risk wu, computePosition (fun _ x => x) entry stop totalCapitalWu riskAppetite
        volatilityRegime = .ok plan ∧
      plan.riskAmountWu = some risk ∧ plan.positionSizeWu = some wu ∧
      plan.positionSizeU = some (wu / wuUnit) ∧
      risk = totalCapitalWu * (riskByAppetite.lookup riskAppetite).getD defaultRiskPct ∧
      wu * (|entry - stop| / entry) =
        if volatilityRegime = "high" then risk * volatilitySizeReduction else risk := by
  have hunit : 0 < |entry - stop| / entry := div_pos (abs_pos.mpr (sub_ne_zero.mpr hstop.symm)) hentry
  unfold computePosition
  simp only [if_neg hentry.ne', if_neg (not_le.mpr hunit)]
  refine ⟨_, _, _, rfl, rfl, rfl, rfl, rfl, ?_⟩
  split_ifs
  · rw [mul_right_comm, div_mul_cancel₀ _ hunit.ne']
  · rw [div_mul_cancel₀ _ hunit.ne']

/-- The loss at the stop is bounded by the risk, unless a negative capital is reduced; the U amount
is one hundred millionth of what the page would show, and right for no capital only. -/
theorem sized_iff (hentry : 0 < entry) (hstop : stop ≠ entry) :
    ∃ plan risk wu u, computePosition (fun _ x => x) entry stop totalCapitalWu riskAppetite
        volatilityRegime = .ok plan ∧
      plan.riskAmountWu = some risk ∧ plan.positionSizeWu = some wu ∧ plan.positionSizeU = some u ∧
      (wu * (|entry - stop| / entry) ≤ risk ↔ 0 ≤ totalCapitalWu ∨ volatilityRegime ≠ "high") ∧
      u * 10 ^ 8 = wuAsU wu ∧
      (plan.Sized entry stop ↔ totalCapitalWu = 0) := by
  obtain ⟨plan, risk, wu, hplan, hrisk, hwu, hu, hamount, hloss⟩ :=
    @computePosition_eq entry stop totalCapitalWu riskAppetite volatilityRegime hentry hstop
  have hpct := risk_pos riskAppetite
  have hunit : 0 < |entry - stop| / entry := div_pos (abs_pos.mpr (sub_ne_zero.mpr hstop.symm)) hentry
  have hbound : wu * (|entry - stop| / entry) ≤ risk ↔
      0 ≤ totalCapitalWu ∨ volatilityRegime ≠ "high" := by
    rw [hloss]
    split_ifs with hhigh
    · have hhalf : risk * volatilitySizeReduction ≤ risk ↔ 0 ≤ risk := by
        rw [volatilitySizeReduction]
        constructor <;> intro h <;> linarith
      rw [hhalf, hamount, mul_nonneg_iff_of_pos_right hpct]
      simp [hhigh]
    · exact iff_of_true le_rfl (.inr hhigh)
  -- nothing is sized just where there is no capital
  have hnone : wu = 0 ↔ totalCapitalWu = 0 := by
    have hrisk0 : risk = 0 ↔ totalCapitalWu = 0 := by
      rw [hamount, mul_eq_zero, or_iff_left hpct.ne']
    rw [← hrisk0, ← mul_eq_zero_iff_right hunit.ne', hloss]
    split_ifs
    · rw [mul_eq_zero, or_iff_left (by norm_num [volatilitySizeReduction])]
    · rfl
  refine ⟨plan, risk, wu, wu / wuUnit, hplan, hrisk, hwu, hu, hbound, ?_, ?_⟩
  · rw [wuAsU, wuUnit]
    ring
  · have hsame : wu / wuUnit = wuAsU wu ↔ wu = 0 := by
      rw [wuAsU, wuUnit]
      constructor <;> intro h <;> linarith
    constructor
    · rintro ⟨risk', wu', u', -, hwu', hu', -, heq⟩
      obtain rfl := Option.some.inj (hwu.symm.trans hwu')
      obtain rfl := Option.some.inj (hu.symm.trans hu')
      exact hnone.mp (hsame.mp heq)
    · intro hzero
      exact ⟨risk, wu, _, hrisk, hwu, hu, hbound.mpr (.inl hzero.ge), hsame.mpr (hnone.mpr hzero)⟩

/-- A thousand units, risked over a stop one percent away. -/
theorem sized_thousand :
    ∃ plan risk wu u, computePosition (fun _ x => x) 100 99 1000 "balanced" "normal" = .ok plan ∧
      plan.riskAmountWu = some risk ∧ plan.positionSizeWu = some wu ∧ plan.positionSizeU = some u ∧
      (wu * (|100 - 99| / 100) ≤ risk ↔ (0 : ℚ) ≤ 1000 ∨ "normal" ≠ "high") ∧
      u * 10 ^ 8 = wuAsU wu ∧ (plan.Sized 100 99 ↔ (1000 : ℚ) = 0) :=
  sized_iff (by norm_num) (by norm_num)

/-- The page shows those thousand units as ten million U; the plan says a tenth of one. -/
theorem thousand_unsized :
    ∃ plan, computePosition (fun _ x => x) 100 99 1000 "balanced" "normal" = .ok plan ∧
      plan.positionSizeWu = some 1000 ∧ plan.positionSizeU = some (1 / 10) ∧
      wuAsU 1000 = 10000000 ∧ ¬ plan.Sized 100 99 := by
  obtain ⟨plan, risk, wu, hplan, hrisk, hwu, hu, hamount, hloss⟩ :=
    @computePosition_eq 100 99 1000 "balanced" "normal" (by norm_num) (by norm_num)
  have hpct : (riskByAppetite.lookup "balanced").getD defaultRiskPct = 1 / 100 := rfl
  rw [hpct] at hamount
  rw [if_neg (by decide), hamount] at hloss
  obtain rfl : wu = 1000 := by
    norm_num at hloss
    linarith
  refine ⟨plan, hplan, hwu, ?_, by norm_num [wuAsU, wuUnit], ?_⟩
  · rw [hu]
    norm_num [wuUnit]
  · rintro ⟨risk', wu', u', -, hwu', hu', -, heq⟩
    obtain rfl := Option.some.inj (hwu.symm.trans hwu')
    obtain rfl := Option.some.inj (hu.symm.trans hu')
    norm_num [wuAsU, wuUnit] at heq

end Pyharmonics.Sizing
