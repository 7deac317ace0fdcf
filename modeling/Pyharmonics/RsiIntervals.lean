import Pyharmonics.Library.Drawdown
import Pyharmonics.RsiAccounting

/-! One position at a time: the bars the trades of the RSI backtest occupy, and its summary. -/
namespace Pyharmonics.RsiTrend

open Backtest Drawdown

variable {data bars : List Enriched} {s : StrategySignal} {m : ExitMode} {barTime : Row → String}
  {h h' : Holding} {e : Exit} {i : ℕ} {t : StrategyTrade} {clock : Clock} {df : TrendFrame}
  {signals : List StrategySignal} {trades : List StrategyTrade} {result : BacktestResult}
  {openUntil : ℤ}

/-- The last bar of the trade of a signal. -/
def lastBar (c : StrategySignal × StrategyTrade) : ℤ := c.1.index + c.2.barsHeld

/-- The signals of a run, split into those that were traded, with their trades, and the others. -/
structure Selection (data : List Enriched) (m : ExitMode) (barTime : Row → String)
    (signals : List StrategySignal) (chosen : List (StrategySignal × StrategyTrade))
    (skipped : List StrategySignal) : Prop where
  split : (chosen.map Prod.fst ++ skipped).Perm signals
  traded : ∀ c ∈ chosen, simulateOne data c.1 m barTime = .ok c.2
  extent : ∀ c ∈ chosen, c.1.index < data.length →
    c.1.index ≤ lastBar c ∧ lastBar c < data.length
  apart : chosen.Pairwise fun a b => lastBar a < b.1.index
  covered : ∀ s ∈ skipped, ∃ c ∈ chosen, c.1.index ≤ s.index ∧ s.index ≤ lastBar c

theorem holdBars_index (hr : holdBars barTime s m bars i h = (h', some e)) :
    i ≤ e.index ∧ e.index < i + bars.length := by
  induction bars generalizing i h with
  | nil => cases (Prod.mk.inj hr).2
  | cons bar bars ih =>
    rw [holdBars] at hr
    cases hn : h.next s m i bar (barTime bar.row) with
    | mk p exit =>
      rw [hn] at hr
      cases exit with
      | none =>
        have hrest := ih hr
        rw [List.length_cons]
        omega
      | some x =>
        obtain rfl := Option.some.inj (Prod.mk.inj hr).2
        have hx := (next_some hn).1
        rw [List.length_cons]
        omega

/-- A position on a bar of the data is left on this bar or a later one. -/
theorem simulateOne_extent (ht : simulateOne data s m barTime = .ok t)
    (hlt : s.index < data.length) :
    (s.index : ℤ) ≤ lastBar (s, t) ∧ lastBar (s, t) < data.length := by
  have hbar : ∀ h e, t = tradeOf s h e → lastBar (s, t) = e.index := by
    rintro h e rfl
    simp [lastBar, tradeOf]
  rcases simulateOne_cases ht with ⟨h, e, hrun, htrade⟩ | ⟨h, last, -, -, htrade⟩
  · rw [hbar _ _ htrade]
    rw [List.drop_eq_getElem_cons hlt, holdFrom] at hrun
    split_ifs at hrun with hstop
    · obtain rfl := Option.some.inj (Prod.mk.inj hrun).2
      dsimp only
      omega
    · have hindex := holdBars_index hrun
      rw [List.length_drop] at hindex
      omega
  · rw [hbar _ _ htrade]
    dsimp only
    omega

/-- What the loop over the signals selects behind the bars up to `openUntil`. -/
theorem takeSignals_selects (hsorted : signals.Pairwise fun a b => a.index ≤ b.index)
    (ht : takeSignals data m barTime signals openUntil = .ok trades) :
    ∃ (chosen : List (StrategySignal × StrategyTrade)) (skipped : List StrategySignal),
      trades = chosen.map Prod.snd ∧
      (chosen.map Prod.fst ++ skipped).Perm signals ∧
      (∀ c ∈ chosen, simulateOne data c.1 m barTime = .ok c.2) ∧
      (∀ c ∈ chosen, openUntil < c.1.index) ∧
      (chosen.Pairwise fun a b => lastBar a < b.1.index) ∧
      ∀ s ∈ skipped, (s.index : ℤ) ≤ openUntil ∨
        ∃ c ∈ chosen, c.1.index ≤ s.index ∧ s.index ≤ lastBar c := by
  induction signals generalizing openUntil trades with
  | nil =>
    obtain rfl := Except.ok.inj ht
    exact ⟨[], [], rfl, .refl _, by simp, by simp, .nil, by simp⟩
  | cons s signals ih =>
    obtain ⟨hfirst, hrest⟩ := List.pairwise_cons.mp hsorted
    rw [takeSignals] at ht
    by_cases hskip : (s.index : ℤ) ≤ openUntil
    · rw [if_pos hskip] at ht
      obtain ⟨chosen, skipped, htrades, hperm, hsim, hafter, hapart, hcovered⟩ := ih hrest ht
      refine ⟨chosen, s :: skipped, htrades, ?_, hsim, hafter, hapart, ?_⟩
      · exact List.perm_middle.trans (hperm.cons s)
      · intro x hx
        rcases List.mem_cons.mp hx with rfl | hx
        · exact Or.inl hskip
        · exact hcovered x hx
    · rw [if_neg hskip] at ht
      obtain ⟨t, hsimulated, ht⟩ := bind_ok.mp ht
      obtain ⟨rest, hloop, ht⟩ := bind_ok.mp ht
      obtain rfl := Except.ok.inj ht
      obtain ⟨chosen, skipped, rfl, hperm, hsim, hafter, hapart, hcovered⟩ := ih hrest hloop
      refine ⟨(s, t) :: chosen, skipped, rfl, hperm.cons s, ?_, ?_, ?_, ?_⟩
      · exact List.forall_mem_cons.mpr ⟨hsimulated, hsim⟩
      · refine List.forall_mem_cons.mpr ⟨not_le.mp hskip, ?_⟩
        intro c hc
        have hmem : c.1 ∈ signals :=
          hperm.subset (List.mem_append_left _ (List.mem_map_of_mem hc))
        have hle := hfirst c.1 hmem
        omega
      · exact List.pairwise_cons.mpr ⟨hafter, hapart⟩
      · intro x hx
        rcases hcovered x hx with hle | ⟨c, hc, hin⟩
        · have hmem : x ∈ signals := hperm.subset (List.mem_append_right _ hx)
          exact Or.inr ⟨(s, t), List.mem_cons_self .., by exact_mod_cast hfirst x hmem, hle⟩
        · exact Or.inr ⟨c, List.mem_cons_of_mem _ hc, hin⟩

/-- The sign of a multiple is positive, negative or neither. -/
theorem count_signs (rs : List ℚ) :
    (rs.filter fun r => 0 < r).length + (rs.filter fun r => r < 0).length + rs.count 0 =
      rs.length := by
  induction rs with
  | nil => rfl
  | cons r rs ih =>
    rw [List.length_cons, ← ih]
    rcases lt_trichotomy r 0 with hr | rfl | hr
    · simp [hr, hr.le, hr.ne]
      omega
    · simp
      omega
    · simp [hr, hr.le, hr.ne']
      omega

theorem maxDrawdown_eq (rs : List ℚ) : Harness.maxDrawdown rs = (run rs).deepest := by
  have hfold : ∀ (rs : List ℚ) (a : State ℚ),
      rs.foldl (fun (acc : ℚ × ℚ × ℚ) r =>
        (acc.1 + r, max acc.2.1 (acc.1 + r), max acc.2.2 (max acc.2.1 (acc.1 + r) - (acc.1 + r))))
        (a.total, a.peak, a.deepest) =
      ((rs.foldl State.next a).total, (rs.foldl State.next a).peak,
        (rs.foldl State.next a).deepest) := by
    intro rs
    induction rs with
    | nil => exact fun a => rfl
    | cons r rs ih => exact fun a => ih (a.next r)
  exact congrArg (fun acc => acc.2.2) (hfold rs ⟨0, 0, 0⟩)

theorem isGreatest_maxDrawdown (rs : List ℚ) : IsGreatest (falls rs) (Harness.maxDrawdown rs) :=
  maxDrawdown_eq rs ▸ isGreatest_run rs

theorem computeMetrics_maxDrawdown {trades : List Trade} {summary : BacktestSummary}
    (hc : computeMetrics trades = .ok summary) :
    summary.maxDrawdown = Harness.maxDrawdown (trades.map Trade.rMultiple) := by
  unfold computeMetrics at hc
  by_cases hnil : trades = []
  · rw [if_pos hnil] at hc
    obtain rfl := Except.ok.inj hc
    rw [hnil]
    rfl
  · rw [if_neg hnil] at hc
    dsimp only at hc
    split_ifs at hc
    · obtain rfl := Except.ok.inj hc
      rfl
    · obtain rfl := Except.ok.inj hc
      rfl

/-- A run over sorted signals holds one position at a time and skips no signal outside of one; its
counts add up, and the drawdown is the greatest fall from a total to a later one, as it is in the
summary of any other trades. -/
theorem runBacktest_selects (hsorted : signals.Pairwise fun a b => a.index ≤ b.index)
    (hrun : runBacktest clock df signals m = .ok result) :
    (∃ chosen skipped, Selection (enrich df.rows) m (RsiTrend.barTime clock df.hasDts) signals chosen
        skipped ∧ result.trades = chosen.map Prod.snd) ∧
      result.winCount + result.lossCount + result.scratchCount = result.tradesCount ∧
      IsGreatest (falls (result.trades.map StrategyTrade.rMultiple)) result.maxDrawdownR ∧
      ∀ trades summary, computeMetrics trades = .ok summary →
        IsGreatest (falls (trades.map Trade.rMultiple)) summary.maxDrawdown := by
  obtain ⟨trades, htake, hresult⟩ := bind_ok.mp hrun
  obtain rfl := Except.ok.inj hresult
  refine ⟨?_, ?_, isGreatest_maxDrawdown _, ?_⟩
  · obtain ⟨chosen, skipped, htrades, hperm, hsim, -, hapart, hcovered⟩ :=
      takeSignals_selects hsorted htake
    refine ⟨chosen, skipped, ⟨hperm, hsim, ?_, hapart, ?_⟩, htrades⟩
    · intro c hc
      exact simulateOne_extent (hsim c hc)
    · intro x hx
      rcases hcovered x hx with hle | hin
      · omega
      · exact hin
  · have hcount := count_signs (trades.map StrategyTrade.rMultiple)
    rw [List.length_map] at hcount
    exact hcount
  · intro trades summary hc
    rw [computeMetrics_maxDrawdown hc]
    exact isGreatest_maxDrawdown _

theorem takeSignals_returns (hdata : data ≠ []) :
    Returns (takeSignals data m barTime signals openUntil) := by
  induction signals generalizing openUntil with
  | nil => exact returns_ok
  | cons s signals ih =>
    rw [takeSignals]
    split_ifs
    · exact ih
    · obtain ⟨t, ht⟩ : Returns (simulateOne data s m barTime) := simulateOne_returns.mpr hdata
      obtain ⟨rest, hrest⟩ := @ih (s.index + t.barsHeld)
      exact ⟨t :: rest, bind_ok.mpr ⟨t, ht, bind_ok.mpr ⟨rest, hrest, rfl⟩⟩⟩

/-- A run over a frame with a bar returns. -/
theorem runBacktest_returns (hrows : df.rows ≠ []) : Returns (runBacktest clock df signals m) := by
  have hdata : enrich df.rows ≠ [] := by
    intro hnil
    have hlen := congrArg List.length hnil
    rw [length_enrich, List.length_nil, List.length_eq_zero_iff] at hlen
    exact hrows hlen
  obtain ⟨trades, htrades⟩ : Returns (takeSignals (enrich df.rows) m
    (RsiTrend.barTime clock df.hasDts) signals (-1)) := takeSignals_returns hdata
  exact ⟨_, bind_ok.mpr ⟨trades, htrades, rfl⟩⟩

/-- Two longs on one rise, of which the second fires while the first is open. -/
def riseFrame : TrendFrame := ⟨false, ladderBars.map Enriched.row⟩

theorem rise_selects : ∃ result, runBacktest ⟨fun _ => none, fun _ => ""⟩ riseFrame
      [ladderSignal, { ladderSignal with index := 1 }] ⟨true, true⟩ = .ok result ∧
    ∃ chosen skipped, Selection (enrich riseFrame.rows) ⟨true, true⟩
      (RsiTrend.barTime ⟨fun _ => none, fun _ => ""⟩ false)
      [ladderSignal, { ladderSignal with index := 1 }] chosen skipped ∧
      result.trades = chosen.map Prod.snd := by
  obtain ⟨result, hresult⟩ : Returns (runBacktest ⟨fun _ => none, fun _ => ""⟩ riseFrame
    [ladderSignal, { ladderSignal with index := 1 }] ⟨true, true⟩) :=
    runBacktest_returns (List.cons_ne_nil _ _)
  refine ⟨result, hresult, (runBacktest_selects ?_ hresult).1⟩
  simp [ladderSignal]

end Pyharmonics.RsiTrend
