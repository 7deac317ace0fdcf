import Pyharmonics.RsiTrend
import Pyharmonics.SignalReturns

/-! The RSI of the engine, of its score context and of the trend strategy. -/
namespace Pyharmonics

open Series

variable {w : Process} {closes : List ℚ} {n : ℤ}

/-- `rsi_series` of the trend strategy with a window of its own. -/
def RsiTrend.rsiSeriesOf (window : ℤ) (closes : List ℚ) : List (Option ℚ) :=
  if closes = [] then []
  else none :: List.zipWith rsiOf (ewm (1 / window) ((diff closes).map (max 0)))
    (ewm (1 / window) ((diff closes).map fun d => -(min d 0)))

/-- The strategy's own series is the one of its default window. -/
theorem RsiTrend.rsiSeries_eq (closes : List ℚ) :
    RsiTrend.rsiSeries closes = RsiTrend.rsiSeriesOf RsiTrend.rsiWindow closes := by
  simp [rsiSeries, rsiSeriesOf, moves]

/-- `compute_rsi` with a window of its own. -/
def computeRsiOf (window : ℤ) (closes : List ℚ) : Except PyError ℚ := do
  require (1 ≤ window) "window must be >= 1"
  match (rsiSeries window closes).getLast? with
  | none => .error (.other "single positional indexer is out-of-bounds")
  | some (some value) => return value
  | some none => return if 0 < (gainSeries window closes).getLastD 0 then 100 else 50

theorem computeRsi_eq : computeRsi w closes = computeRsiOf w.getTuning.rsiWindow closes := rfl

/-- The latest RSI is there in all three, the same and on its scale, for the window in force. -/
def OneRsi (w : Process) (closes : List ℚ) : Prop :=
  ∃ x, computeRsiOf w.getTuning.rsiWindow closes = .ok x ∧
    (prepareMomentum w closes).rsiSeries.getLast? = some (some x) ∧
    (RsiTrend.rsiSeriesOf w.getTuning.rsiWindow closes).getLast? = some (some x) ∧
    0 ≤ x ∧ x ≤ 100

/-- Some close falls below the one before it; with a window of one it is the last. -/
def Falls (window : ℤ) (closes : List ℚ) : Prop :=
  if window = 1 then ∃ d ∈ (diff closes).getLast?, d < 0 else ∃ d ∈ diff closes, d < 0

/-- A window of any length can be in force. -/
theorem exists_rsiWindow (hn : 1 ≤ n) : ∃ w : Process, w.getTuning.rsiWindow = n := by
  have hvalid : ({ rsiWindow := n } : TuningFields).postInit = .ok () := by
    have hdefault : ({} : TuningFields).postInit = .ok () := by decide +kernel
    obtain ⟨_, hhard, h⟩ := bind_ok.mp hdefault
    obtain ⟨_, hsoft, -⟩ := bind_ok.mp h
    refine bind_ok.mpr ⟨(), hhard, bind_ok.mpr ⟨(), hsoft, ?_⟩⟩
    have hn : ¬ n ≤ 0 := by omega
    simp [TuningFields.checkWindows, TuningFields.intFields, refuse, hn, pure, Except.pure]
  exact ⟨{ tuning := ⟨{ rsiWindow := n }, hvalid⟩ }, rfl⟩

section Last

variable (hd : diff closes ≠ [])
include hd

theorem closes_ne_nil : closes ≠ [] := by
  rintro rfl
  exact hd rfl

/-- The smoothed moves have a last value, and so have the series made from them. -/
theorem exists_last (hn : 1 ≤ n) : ∃ gain loss,
    (lossSeries n closes).getLast? = some loss ∧ 0 ≤ loss ∧
    (rsiSeries n closes).getLast? =
      some (if loss = 0 then none else some (100 - 100 / (1 + gain / loss))) ∧
    (RsiTrend.rsiSeriesOf n closes).getLast? = some (RsiTrend.rsiOf gain loss) := by
  have hne : ∀ part : ℚ → ℚ, ∃ m, (ewm (1 / n) ((diff closes).map part)).getLast? = some m := by
    intro part
    obtain ⟨d, ds, hds⟩ := List.exists_cons_of_ne_nil hd
    exact ⟨_, by rw [hds, List.map_cons, getLast?_ewm]⟩
  obtain ⟨gain, hgain⟩ := hne (max 0)
  obtain ⟨loss, hloss⟩ := hne fun d => -(min d 0)
  obtain ⟨h0, h1⟩ := alpha_mem hn
  have hlen : (ewm (1 / n) ((diff closes).map (max 0))).length =
      (ewm (1 / n) ((diff closes).map fun d => -(min d 0))).length := by simp
  refine ⟨gain, loss, hloss, ewm_nonneg h0.le h1 (by simp) _ (List.mem_of_getLast? hloss), ?_, ?_⟩
  · rw [rsiSeries, if_neg (closes_ne_nil hd), List.getLast?_cons, gainSeries, lossSeries,
      getLast?_zipWith hlen hgain hloss]
    rfl
  · rw [RsiTrend.rsiSeriesOf, if_neg (closes_ne_nil hd), List.getLast?_cons,
      getLast?_zipWith hlen hgain hloss]
    rfl

end Last

/-- The average loss is positive exactly when a close falls. -/
theorem loss_pos_iff (hn : 1 ≤ n) {loss : ℚ} (hl : (lossSeries n closes).getLast? = some loss) :
    0 < loss ↔ Falls n closes := by
  have hneg : ∀ d : ℚ, 0 < -(min d 0) ↔ d < 0 := by simp
  unfold Falls
  by_cases h1 : n = 1
  · subst h1
    rw [if_pos rfl]
    rw [lossSeries, Int.cast_one, div_one, ewm_one, List.getLast?_map] at hl
    obtain ⟨d, hlast, rfl⟩ := Option.map_eq_some_iff.mp hl
    simp [hlast]
  · rw [if_neg h1]
    have hn1 : (1 : ℚ) < n := by exact_mod_cast (by omega : 1 < n)
    have hlt : 1 / (n : ℚ) < 1 := by rwa [div_lt_one (by linarith)]
    rw [ewm_last_pos_iff (alpha_mem hn).1 hlt (by simp) hl]
    simp only [List.mem_map, exists_exists_and_eq_and, hneg]

/-- A series without a second close has no RSI. -/
theorem not_oneRsi_of_short (hd : diff closes = []) : ¬ OneRsi w closes := by
  rintro ⟨x, -, hctx, -⟩
  unfold prepareMomentum rsiSeries gainSeries lossSeries at hctx
  simp only [hd] at hctx
  split_ifs at hctx with h
  · simp at hctx
  · simp [ewm] at hctx

/-- The three agree on the latest RSI exactly when the average loss is not zero there. -/
theorem oneRsi_iff : OneRsi w closes ↔ Falls w.getTuning.rsiWindow closes := by
  have hn : 1 ≤ w.getTuning.rsiWindow :=
    w.getTuning.intFields_pos (by simp [TuningFields.intFields])
  by_cases hd : diff closes = []
  · refine iff_of_false (not_oneRsi_of_short hd) ?_
    simp [Falls, hd]
  · obtain ⟨gain, loss, hl, hpos, hctx, htrend⟩ := exists_last hd hn
    rw [← loss_pos_iff hn hl]
    constructor
    · rintro ⟨x, -, hx, -⟩
      -- the series of the context has no value where the average loss is zero
      refine lt_of_le_of_ne hpos fun h0 => ?_
      rw [show (prepareMomentum w closes).rsiSeries = rsiSeries w.getTuning.rsiWindow closes
        from rfl, hctx, if_pos h0.symm] at hx
      cases hx
    · intro h
      rw [if_neg h.ne'] at hctx
      rw [RsiTrend.rsiOf, if_neg h.ne'] at htrend
      refine ⟨_, ?_, hctx, htrend, rsiSeries_mem hn (List.mem_of_getLast? hctx)⟩
      unfold computeRsiOf
      rw [require_bind_ok]
      refine ⟨hn, ?_⟩
      simp only [hctx]
      rfl

/-- Rising closes: the engine and the strategy say 100, the series in the context says nothing. -/
theorem rising_differs : (∃ d ∈ diff [1, 2, 3], d ≠ 0) ∧
    computeRsiOf defaultProcess.getTuning.rsiWindow [1, 2, 3] = .ok 100 ∧
    (RsiTrend.rsiSeriesOf defaultProcess.getTuning.rsiWindow [1, 2, 3]).getLast? = some (some 100) ∧
    (prepareMomentum defaultProcess [1, 2, 3]).rsiSeries.getLast? = some none ∧
    ¬ OneRsi defaultProcess [1, 2, 3] := by
  refine ⟨⟨1, by decide +kernel, by decide⟩, by decide +kernel, by decide +kernel,
    by decide +kernel, ?_⟩
  rintro ⟨x, -, h, -⟩
  have hnone : (prepareMomentum defaultProcess [1, 2, 3]).rsiSeries.getLast? = some none := by
    decide +kernel
  rw [hnone] at h
  cases h

end Pyharmonics
