import Pyharmonics.Grading
import Pyharmonics.HarnessMetrics

/-! How the objectives order candidates: missing metrics, and the profit factor of better trades. -/
namespace Pyharmonics.Loop

/-- The metrics behind the four objectives. -/
inductive Objective
  | sharpe | calmar | profitFactor | worstRegimeSharpe
  deriving DecidableEq

namespace Objective

variable {ν : Type*}

def metric (p : ParetoPoint ν) : Objective → Option ν
  | sharpe => p.sharpe
  | calmar => p.calmar
  | profitFactor => p.profitFactor
  | worstRegimeSharpe => p.worstRegimeSharpe

/-- The point without this metric. -/
def drop (p : ParetoPoint ν) : Objective → ParetoPoint ν
  | sharpe => { p with sharpe := none }
  | calmar => { p with calmar := none }
  | profitFactor => { p with profitFactor := none }
  | worstRegimeSharpe => { p with worstRegimeSharpe := none }

/-- What a missing metric counts as. -/
def fallback : Objective → ℤ
  | profitFactor => 0
  | _ => -10

end Objective

section

variable {ν : Type*} [LinearOrder ν] [IntCast ν] {o : Objective} {a b : ParetoPoint ν}

/-- Of a point and the point without a metric the one with the better metric scores higher. -/
theorem score_drop_le : score (o.drop a) ≤ score a ↔
    ((o.fallback : ℤ) : ν) ≤ safe (o.metric a) ((o.fallback : ℤ) : ν) := by
  cases o <;> simp [score, Objective.drop, Objective.metric, Objective.fallback, safe]

theorem score_le_drop : score a ≤ score (o.drop a) ↔
    safe (o.metric a) ((o.fallback : ℤ) : ν) ≤ ((o.fallback : ℤ) : ν) := by
  cases o <;> simp [score, Objective.drop, Objective.metric, Objective.fallback, safe]

/-- A missing metric is the worst value exactly for the points whose metric is not below its
fallback. -/
theorem missing_worst_iff (a : ParetoPoint ν) (o : Objective) :
    (∀ b : ParetoPoint ν, (dominates (o.drop a) b = true → dominates a b = true) ∧
      (dominates b a = true → dominates b (o.drop a) = true)) ↔
    ∀ v ∈ o.metric a, ((o.fallback : ℤ) : ν) ≤ v := by
  have hmetric : (∀ v ∈ o.metric a, ((o.fallback : ℤ) : ν) ≤ v) ↔
      score (o.drop a) ≤ score a := by
    rw [score_drop_le]
    cases o.metric a <;> simp [safe]
  simp only [dominates_iff]
  rw [hmetric]
  constructor
  · intro h
    by_contra hle
    have hlt : score a < score (o.drop a) := by
      rw [score_drop_le, not_le] at hle
      refine lt_iff_le_not_ge.mpr ⟨score_le_drop.mpr hle.le, fun h => ?_⟩
      exact (score_drop_le.mp h).not_gt hle
    exact lt_irrefl _ ((h a).1 hlt)
  · intro hle b
    exact ⟨fun h => h.trans_le hle, fun h => hle.trans_lt h⟩

end

/-- A point with a profit factor, a sharpe and nothing else. -/
def measured (sharpe : Option ℚ) : ParetoPoint ℚ where
  paramsSha := ""
  gen := 0
  cluster := ""
  runDir := ""
  sharpe := sharpe
  calmar := some 1
  profitFactor := some 1
  worstRegimeSharpe := some 1
  tradeCount := 30
  fitness := 0

/-- A sharpe of -50 lost is a sharpe of -10 won. -/
theorem missing_sharpe_dominates :
    dominates (measured (some (-50))) (measured (some (-20))) = false ∧
    dominates (Objective.sharpe.drop (measured (some (-50)))) (measured (some (-20))) = true ∧
    dominates (measured (some (-20))) (measured (some (-50))) = true ∧
    dominates (measured (some (-20))) (Objective.sharpe.drop (measured (some (-50)))) = false := by
  decide +kernel

end Pyharmonics.Loop

namespace Pyharmonics.Harness

open Loop

/-- The profit-factor term of `fitness`. -/
def profitFactorTerm (metrics : Metrics ℚ) : ℚ := 3 / 10 * metrics.profitFactor.getD 0

/-- `fitness`, with the natural logarithm. -/
def fitness (log : ℤ → ℚ) (metrics : Metrics ℚ) : ℚ :=
  if metrics.tradesCount < 10 then -1000000
  else
    let regimeSharpes := (metrics.byRegime.values.filter fun b => 3 ≤ b.n).map fun b =>
      b.sharpe.getD 0
    metrics.sharpe.join.getD 0 + 1 / 2 * metrics.calmar.getD 0 + profitFactorTerm metrics -
      max 0 (-regimeSharpes.min?.getD 0) + 1 / 20 * log (max metrics.tradesCount 1)

/-- From ten trades on the profit factor enters the fitness through its term and nowhere else. -/
theorem fitness_sub {log : ℤ → ℚ} {metrics : Metrics ℚ} (h : 10 ≤ metrics.tradesCount)
    (pf : Option ℚ) : fitness log { metrics with profitFactor := pf } - fitness log metrics =
      profitFactorTerm { metrics with profitFactor := pf } - profitFactorTerm metrics := by
  simp only [fitness, if_neg (not_lt.mpr h)]
  ring

/-- The profit-factor objective of the front for a candidate with these trades. -/
def profitFactorObjective (N : Numerics) (trades : List Trade) : ℚ :=
  safe (Objective.profitFactor.metric (fromMetrics (aggregate N trades) "" 0 "" "" 0))
    (Objective.profitFactor.fallback : ℤ)

variable {N : Numerics} {trades trades' : List Trade} {rs rs' : List ℚ}

/-- Gross wins and gross losses in R. -/
def grossWins (rs : List ℚ) : ℚ := (rs.filter fun r => 0 < r).sum

def grossLosses (rs : List ℚ) : ℚ := |(rs.filter fun r => r < 0).sum|

theorem grossWins_cons {r : ℚ} : grossWins (r :: rs) = max r 0 + grossWins rs := by
  unfold grossWins
  by_cases h : 0 < r
  · rw [List.filter_cons_of_pos (by simpa using h), List.sum_cons, max_eq_left h.le]
  · rw [List.filter_cons_of_neg (by simpa using h), max_eq_right (not_lt.mp h), zero_add]

theorem sum_losses_nonpos : (rs.filter fun r => r < 0).sum ≤ 0 := by
  induction rs with
  | nil => exact le_rfl
  | cons r rs ih =>
    by_cases h : r < 0
    · rw [List.filter_cons_of_pos (by simpa using h), List.sum_cons]
      exact add_nonpos h.le ih
    · rwa [List.filter_cons_of_neg (by simpa using h)]

theorem grossLosses_cons {r : ℚ} : grossLosses (r :: rs) = max (-r) 0 + grossLosses rs := by
  unfold grossLosses
  rw [abs_of_nonpos sum_losses_nonpos, abs_of_nonpos sum_losses_nonpos]
  by_cases h : r < 0
  · rw [List.filter_cons_of_pos (by simpa using h), List.sum_cons,
      max_eq_left (neg_nonneg.mpr h.le), neg_add]
  · rw [List.filter_cons_of_neg (by simpa using h),
      max_eq_right (neg_nonpos.mpr (not_lt.mp h)), zero_add]

theorem grossWins_nonneg : 0 ≤ grossWins rs :=
  List.sum_nonneg fun _ hr => (of_decide_eq_true (List.mem_filter.mp hr).2).le

theorem grossWins_eq_zero_iff : grossWins rs = 0 ↔ ∀ r ∈ rs, r ≤ 0 := by
  induction rs with
  | nil => simp [grossWins]
  | cons r rs ih =>
    have hnonneg : 0 ≤ grossWins rs := grossWins_nonneg
    rw [grossWins_cons, List.forall_mem_cons, ← ih,
      add_eq_zero_iff_of_nonneg (le_max_right r 0) hnonneg, max_eq_right_iff]

theorem grossWins_mono (h : List.Forall₂ (· ≤ ·) rs rs') : grossWins rs ≤ grossWins rs' := by
  induction h with
  | nil => exact le_rfl
  | cons hr _ ih =>
    rw [grossWins_cons, grossWins_cons]
    exact add_le_add (max_le_max_right 0 hr) ih

theorem grossLosses_anti (h : List.Forall₂ (· ≤ ·) rs rs') : grossLosses rs' ≤ grossLosses rs := by
  induction h with
  | nil => exact le_rfl
  | cons hr _ ih =>
    rw [grossLosses_cons, grossLosses_cons]
    exact add_le_add (max_le_max_right 0 (neg_le_neg hr)) ih

theorem profitFactor_getD : (profitFactor rs).getD 0 =
    if grossLosses rs ≤ 1 / 10 ^ 9 then 0 else grossWins rs / grossLosses rs := by
  unfold profitFactor
  change (if grossLosses rs ≤ 1 / 10 ^ 9 then none
    else some (grossWins rs / grossLosses rs)).getD 0 = _
  split_ifs <;> rfl

theorem profitFactorObjective_eq (h : trades ≠ []) :
    profitFactorObjective N trades = (profitFactor (trades.map Trade.rMultiple)).getD 0 := by
  simp [profitFactorObjective, Objective.metric, Objective.fallback, fromMetrics, safe, aggregate,
    h]

/-- Better trades have no lower profit factor unless they lose no more than the threshold, and the
others did and won something. -/
theorem profitFactor_le_iff (h : List.Forall₂ (· ≤ ·) rs rs') :
    (profitFactor rs).getD 0 ≤ (profitFactor rs').getD 0 ↔
      1 / 10 ^ 9 < grossLosses rs' ∨ grossLosses rs ≤ 1 / 10 ^ 9 ∨ ∀ r ∈ rs, r ≤ 0 := by
  have hthreshold : (0 : ℚ) < 1 / 10 ^ 9 := by norm_num
  rw [profitFactor_getD, profitFactor_getD, ← grossWins_eq_zero_iff]
  by_cases hlosses' : grossLosses rs' ≤ 1 / 10 ^ 9
  · rw [if_pos hlosses']
    split_ifs with hlosses
    · exact iff_of_true le_rfl (.inr (.inl hlosses))
    · have hpos : 0 < grossLosses rs := hthreshold.trans (not_le.mp hlosses)
      have hzero : grossWins rs / grossLosses rs ≤ 0 ↔ grossWins rs = 0 := by
        rw [div_le_iff₀ hpos, zero_mul]
        exact ⟨fun hle => le_antisymm hle grossWins_nonneg, fun h => h.le⟩
      rw [hzero, or_iff_right (not_lt.mpr hlosses'), or_iff_right hlosses]
  · have hlosses := (not_le.mp hlosses').trans_le (grossLosses_anti h)
    rw [if_neg hlosses', if_neg (not_le.mpr hlosses)]
    refine iff_of_true ?_ (.inl (not_le.mp hlosses'))
    exact div_le_div₀ grossWins_nonneg (grossWins_mono h) (hthreshold.trans (not_le.mp hlosses'))
      (grossLosses_anti h)

/-- What the trades of a candidate with no trade worse than another's are worth to the front and to
the fitness. -/
theorem profitFactor_rewards_iff (N : Numerics)
    (h : List.Forall₂ (fun t t' => t.rMultiple ≤ t'.rMultiple) trades trades') (hne : trades ≠ []) :
    (profitFactorObjective N trades ≤ profitFactorObjective N trades' ∧
      profitFactorTerm (aggregate N trades) ≤ profitFactorTerm (aggregate N trades')) ↔
    1 / 10 ^ 9 < grossLosses (trades'.map Trade.rMultiple) ∨
      grossLosses (trades.map Trade.rMultiple) ≤ 1 / 10 ^ 9 ∨
      ∀ t ∈ trades, t.rMultiple ≤ 0 := by
  have hne' : trades' ≠ [] := by
    rintro rfl
    exact hne (List.forall₂_nil_right_iff.mp h)
  have hrs : List.Forall₂ (· ≤ ·) (trades.map Trade.rMultiple) (trades'.map Trade.rMultiple) := by
    rw [List.forall₂_map_left_iff, List.forall₂_map_right_iff]
    exact h
  have hterm : profitFactorTerm (aggregate N trades) ≤ profitFactorTerm (aggregate N trades') ↔
      profitFactorObjective N trades ≤ profitFactorObjective N trades' := by
    unfold profitFactorTerm
    rw [mul_le_mul_iff_right₀ (by norm_num)]
    rfl
  rw [hterm, and_self, profitFactorObjective_eq hne, profitFactorObjective_eq hne',
    profitFactor_le_iff hrs, List.forall_mem_map]

/-- A trade that made this multiple of its risk. -/
def tradeOf (r : ℚ) : Trade where
  symbol := "BTCUSD"
  pattern := "gartley"
  family := "XABCD"
  direction := .long
  entryBar := 200
  entryPrice := 100
  stopLoss := 99
  tp1 := some 101
  tp2 := some 102
  exitBar := 210
  exitPrice := 100 + r
  exitReason := if r < 0 then .stopLoss else .tp2
  rMultiple := r
  barsHeld := 10
  grade := .b
  widthPct := 1 / 100

theorem profitFactor_rewards : profitFactorObjective plainNumerics [tradeOf 1, tradeOf (-1)] ≤
      profitFactorObjective plainNumerics [tradeOf 2, tradeOf (-1)] ∧
    profitFactorTerm (aggregate plainNumerics [tradeOf 1, tradeOf (-1)]) ≤
      profitFactorTerm (aggregate plainNumerics [tradeOf 2, tradeOf (-1)]) :=
  (profitFactor_rewards_iff plainNumerics
    (.cons (by decide +kernel) (.cons (by decide +kernel) .nil)) (by simp)).mpr
    (.inl (by decide +kernel))

/-- Without its one loss a candidate has the worst profit factor. -/
theorem profitFactor_punishes :
    List.Forall₂ (fun t t' => t.rMultiple ≤ t'.rMultiple) [tradeOf 2, tradeOf (-1)]
      [tradeOf 2, tradeOf 1] ∧
    profitFactorObjective plainNumerics [tradeOf 2, tradeOf (-1)] = 2 ∧
    profitFactorObjective plainNumerics [tradeOf 2, tradeOf 1] = 0 ∧
    profitFactorTerm (aggregate plainNumerics [tradeOf 2, tradeOf (-1)]) = 3 / 5 ∧
    profitFactorTerm (aggregate plainNumerics [tradeOf 2, tradeOf 1]) = 0 := by
  decide +kernel

end Pyharmonics.Harness
