import Pyharmonics.SignalContracts

/-! The contracts that the fields of a tuning meet when signals are scored. -/
namespace Pyharmonics

/-- What `net_rr` requires of its arguments; a rate that is not given comes from the tuning. -/
def netRrRequires (entry stop target : ℚ) (feeRate slippageRate : Option ℚ) :
    Except PyError Unit := do
  require (∀ x ∈ slippageRate, 0 ≤ x) "slippage_rate must be non-negative"
  require (∀ x ∈ feeRate, 0 ≤ x) "fee_rate must be non-negative"
  require (0 < target) "Target price must be positive"
  require (0 < stop) "Stop price must be positive"
  require (0 < entry) "Entry price must be positive for risk/reward math"

/-- `net_rr` with all its arguments. -/
def netRrAt (N : Numerics) (w : Process) (entry stop target : ℚ)
    (feeRate slippageRate : Option ℚ) : Except PyError (Option ℚ) := do
  netRrRequires entry stop target feeRate slippageRate
  let t := w.getTuning.toTuningFields
  let r := netRatio N { t with
    feeRate := feeRate.getD t.feeRate
    slippageRate := slippageRate.getD t.slippageRate } entry stop target
  require (∀ x ∈ r, 0 < x) "net_rr returns None for degenerate geometry, otherwise a positive ratio"
  return r

variable {N : Numerics} {w : Process} {entry stop target : ℚ} {fee slippage : Option ℚ}

/-- Without rates of its own `net_rr` asks nothing of those of the tuning. -/
theorem netRrAt_none : netRrAt N w entry stop target none none = netRr N w entry stop target := by
  simp [netRrAt, netRrRequires, netRr, require]

theorem returns_netRrRequires : Returns (netRrRequires entry stop target fee slippage) ↔
    (∀ x ∈ slippage, 0 ≤ x) ∧ (∀ x ∈ fee, 0 ≤ x) ∧ 0 < target ∧ 0 < stop ∧ 0 < entry := by
  have hlast : Returns (require (0 < entry) "Entry price must be positive for risk/reward math") ↔
      0 < entry := ⟨fun ⟨_, h⟩ => require_ok.mp h, fun h => ⟨(), require_ok.mpr h⟩⟩
  unfold netRrRequires
  rw [returns_require, returns_require, returns_require, returns_require, hlast]

theorem returns_gradeSignal {score aMin : ℚ} {rr1 rr2 x : Option ℚ} {al co : Bool}
    (hs : 0 ≤ score ∧ score ≤ 100) (hac : ¬ (al = true ∧ co = true)) :
    Returns (gradeSignal score rr1 rr2 al co aMin x) ↔ 0 < aMin ∧ aMin ≤ 100 := by
  unfold gradeSignal
  rw [returns_require, returns_require, returns_require, returns_require]
  constructor
  · rintro ⟨-, haMin, -⟩
    exact haMin
  · intro haMin
    exact ⟨hac, haMin, hs, gradeOf_ne_c, _, rfl⟩

/-- The values of a tuning meet the contracts of what reads them. -/
structure Ready (t : TuningFields) : Prop where
  grades : ∀ aMin ∈ [t.aGradeMin, t.aGradeMinHighQuant],
    ∀ (score : ℚ) (rr1 rr2 x : Option ℚ) (al co : Bool), 0 ≤ score ∧ score ≤ 100 →
      ¬ (al = true ∧ co = true) → Returns (gradeSignal score rr1 rr2 al co aMin x)
  rates : ∀ entry stop target : ℚ, 0 < entry → 0 < stop → 0 < target →
    Returns (netRrRequires entry stop target (some t.feeRate) (some t.slippageRate))
  stops : ∀ v ∈ t.atrStopBuffer.values, 0 < v
  weights : ∀ v ∈ t.confluenceWeights.values, 0 ≤ v

/-- What of that no check of the constructor covers. -/
structure WithinUncheckedBounds (t : TuningFields) : Prop where
  aGradeMin : t.aGradeMin ≤ 100
  aGradeMinHighQuant : t.aGradeMinHighQuant ≤ 100
  feeRate : 0 ≤ t.feeRate
  slippageRate : 0 ≤ t.slippageRate
  stops : ∀ e ∈ t.atrStopBuffer.entries, e.1 ≠ "standard" → 0 < e.2
  weights : ∀ e ∈ t.confluenceWeights.entries, 0 ≤ e.2

/-- The thresholds of the grade are on the scale exactly where they are at most 100. -/
theorem grades_iff (t : TuningConstants) {aMin : ℤ} (h : aMin ∈ t.intFields) :
    (∀ (score : ℚ) (rr1 rr2 x : Option ℚ) (al co : Bool), 0 ≤ score ∧ score ≤ 100 →
      ¬ (al = true ∧ co = true) → Returns (gradeSignal score rr1 rr2 al co aMin x)) ↔
    aMin ≤ 100 := by
  have hpos : (0 : ℚ) < aMin := by exact_mod_cast t.intFields_pos h
  constructor
  · intro hall
    have hreturns := hall 0 none none none false false ⟨le_rfl, by norm_num⟩ (by simp)
    exact_mod_cast ((returns_gradeSignal ⟨le_rfl, by norm_num⟩ (by simp)).mp hreturns).2
  · intro hle score rr1 rr2 x al co hs hac
    exact (returns_gradeSignal hs hac).mpr ⟨hpos, by exact_mod_cast hle⟩

/-- Unchecked bounds that the contracts need. -/
theorem Ready.within {t : TuningConstants} (h : Ready t.toTuningFields) :
    WithinUncheckedBounds t.toTuningFields := by
  obtain ⟨hgrades, hrates, hstops, hweights⟩ := h
  have haMin := grades_iff t
    (show t.aGradeMin ∈ t.intFields by simp [TuningFields.intFields])
  have haMinHigh := grades_iff t
    (show t.aGradeMinHighQuant ∈ t.intFields by simp [TuningFields.intFields])
  obtain ⟨hslippage, hfee, -⟩ :=
    returns_netRrRequires.mp (hrates 1 1 1 one_pos one_pos one_pos)
  exact
    { aGradeMin := haMin.mp (hgrades _ (by simp))
      aGradeMinHighQuant := haMinHigh.mp (hgrades _ (by simp))
      feeRate := hfee _ rfl
      slippageRate := hslippage _ rfl
      stops := fun e he _ => hstops _ (List.mem_map_of_mem he)
      weights := fun e he => hweights _ (List.mem_map_of_mem he) }

/-- A tuning that can be built meets the contracts exactly where the bounds hold that nothing
checks. -/
theorem ready_iff (t : TuningConstants) :
    Ready t.toTuningFields ↔ WithinUncheckedBounds t.toTuningFields := by
  have haMin := grades_iff t
    (show t.aGradeMin ∈ t.intFields by simp [TuningFields.intFields])
  have haMinHigh := grades_iff t
    (show t.aGradeMinHighQuant ∈ t.intFields by simp [TuningFields.intFields])
  constructor
  · exact Ready.within
  · rintro ⟨hgrade, hgradeHigh, hfee, hslippage, hstops, hweights⟩
    refine ⟨?_, ?_, ?_, ?_⟩
    · intro aMin hmem
      rcases List.mem_pair.mp hmem with rfl | rfl
      · exact haMin.mpr hgrade
      · exact haMinHigh.mpr hgradeHigh
    · intro entry stop target hentry hstop htarget
      refine returns_netRrRequires.mpr ⟨?_, ?_, htarget, hstop, hentry⟩
      · rintro x ⟨⟩
        exact hslippage
      · rintro x ⟨⟩
        exact hfee
    · intro v hv
      obtain ⟨⟨level, v⟩, he, rfl⟩ := List.mem_map.mp hv
      by_cases hstandard : level = "standard"
      · subst hstandard
        have := (t.checked.standard v (Dict.get?_eq_some_iff.mpr he)).1
        exact lt_of_lt_of_le (by norm_num) this
      · exact hstops _ he hstandard
    · intro v hv
      obtain ⟨e, he, rfl⟩ := List.mem_map.mp hv
      exact hweights e he

/-- No score reaches an A under this tuning, and every grade raises. -/
def unreachableGrade : TuningConstants := ⟨{ aGradeMin := 101 }, by decide +kernel⟩

theorem unreachableGrade_raises : ¬ Ready unreachableGrade.toTuningFields ∧
    gradeSignal 80 (some 2) (some 3) true false unreachableGrade.aGradeMin none =
      .error (.violation "a_min must be in (0, 100]") := by
  refine ⟨fun h => ?_, by decide +kernel⟩
  exact absurd h.within.aGradeMin (by decide +kernel)

end Pyharmonics
