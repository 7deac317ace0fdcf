import Pyharmonics.Checker
import Pyharmonics.HarnessFills
import Pyharmonics.HarnessMetrics

/-! The regimes of the harness and the checker's guard against a collapse in the bear regime. -/
namespace Pyharmonics.Macro

/-- The regimes of a price below and above its long average. -/
def bearLabel : String := "熊市(价<EMA200)"

def bullLabel : String := "牛市(价>EMA200)"

def shortLabel : String := "数据不足"

/-- The regimes of a signal with a side are these three. -/
theorem compute_label {N : Numerics} {w : Process} {closes : List ℚ} {side : ℤ} {o : MacroOverlay}
    (h : compute N w (some closes) side = .ok o) (hside : side = 1 ∨ side = -1) :
    o.macroDir ∈ [shortLabel, bullLabel, bearLabel] := by
  unfold compute at h
  obtain ⟨-, h⟩ := require_bind_ok.mp h
  simp only at h
  by_cases hshort : (closes.length : ℤ) < w.getTuning.minDailyBars
  · rw [if_pos hshort] at h
    obtain rfl := Except.ok.inj h
    simp [dataShort, shortLabel]
  · rw [if_neg hshort, if_neg (by omega)] at h
    obtain rfl := Except.ok.inj h
    simp only
    split_ifs
    · simp [bullLabel]
    · simp [bearLabel]

end Pyharmonics.Macro

namespace Pyharmonics.Harness

open Groups Loop

variable {N M : Numerics} {w : Process} {symbol : String} {df : Frame} {daily : List (ℤ × ℚ)}
  {group : Group} {anchor : ℕ} {c : Candidate} {S : Signal} {t : Trade} {trades ts us : List Trade}
  {fresh fresh' : List (ℕ × Candidate)} {r : CandidateResult} {parent : Option (Metrics ℚ)}
  {k : String}

/-- Trades of runs of the harness: of one run, or of the runs over several symbols. -/
def Produced (trades : List Trade) : Prop :=
  ∀ t ∈ trades, ∃ N w symbol df daily group fresh ts,
    runSymbolGroup N w symbol df daily group fresh = .ok ts ∧ t ∈ ts

theorem produced_of_run (h : runSymbolGroup N w symbol df daily group fresh = .ok ts) :
    Produced ts := by
  intro t ht
  exact ⟨N, w, symbol, df, daily, group, fresh, ts, h, ht⟩

/-- The trades of the bear regime are three or more, with no sharpe or one below -1. -/
structure BearCollapse (N : Numerics) (trades : List Trade) : Prop where
  count : 3 ≤ (members Trade.macroRegime trades Macro.bearLabel).length
  sharpe : ∀ s, Harness.sharpe N
    ((members Trade.macroRegime trades Macro.bearLabel).map Trade.rMultiple) = some s → s < -1

/-- One regime has more than 85% of the trades. -/
def Skewed (trades : List Trade) : Prop :=
  ∃ k, (85 / 100 : ℚ) * trades.length < (members regimeOf trades k).length

/-- The regime of a trade is one of the overlay's three. -/
theorem runPattern_label (h : runPattern N w symbol df daily group anchor c = .ok (some t)) :
    t.macroRegime ∈ [Macro.shortLabel, Macro.bullLabel, Macro.bearLabel] := by
  obtain ⟨S, -, -, -, entry, o, -, ho, hdir⟩ := runPattern_trade h
  rw [hdir]
  refine Macro.compute_label ho ?_
  unfold macroSide
  split_ifs <;> simp

theorem Produced.label (h : Produced trades) (ht : t ∈ trades) :
    regimeOf t ∈ [Macro.shortLabel, Macro.bullLabel, Macro.bearLabel] := by
  obtain ⟨N, w, symbol, df, daily, group, fresh, ts, hrun, hts⟩ := h t ht
  obtain ⟨anchor, c, -, hp⟩ := mem_runSymbolGroup hrun hts
  have hlabel := runPattern_label hp
  unfold regimeOf
  split_ifs with hempty
  · rw [hempty] at hlabel
    exact absurd hlabel (by decide)
  · exact hlabel

/-- The checker finds no bucket under the names it looks for. -/
theorem flagBear_produced (h : Produced trades) : flagBearRegimeSharpe (aggregate N trades) = none := by
  have hnone : ∀ k ∉ [Macro.shortLabel, Macro.bullLabel, Macro.bearLabel],
      (aggregate N trades).byRegime.get? k = none := by
    intro k hk
    have hmem : members regimeOf trades k = [] := by
      rw [members_eq_nil_iff]
      rintro t ht rfl
      exact hk (h.label ht)
    rw [aggregate_byRegime, Dict.get?_mapValues, get?_groupBy, if_pos hmem]
    rfl
  unfold flagBearRegimeSharpe
  rw [hnone "bear" (by decide), hnone "range" (by decide)]
  rfl

theorem flagLow_iff : flagLowSample (aggregate N trades) = none ↔ 30 ≤ trades.length := by
  unfold flagLowSample
  rw [aggregate_tradesCount]
  split_ifs with h
  · simp only [false_iff, not_le]
    omega
  · simp only [true_iff]
    omega

/-- The trades of each regime, as the imbalance check counts them. -/
def regimeCounts (trades : List Trade) : List (String × ℚ) :=
  (groupBy regimeOf trades).keys.map fun k => (k, ((members regimeOf trades k).length : ℚ))

theorem counts_eq : (((aggregate N trades).byRegime.entries.map fun e => (e.1, (e.2.n : ℚ))).filter
    fun e => e.2 ≠ 0) = regimeCounts trades := by
  have hall : ((aggregate N trades).byRegime.entries.map fun e => (e.1, (e.2.n : ℚ))) =
      regimeCounts trades := by
    rw [aggregate_byRegime]
    change ((groupBy regimeOf trades).entries.map _).map _ = _
    rw [entries_groupBy, List.map_map, List.map_map]
    apply List.map_congr_left
    intro k _
    simp [regimeBucket]
  rw [hall, List.filter_eq_self]
  intro e he
  obtain ⟨k, hk, rfl⟩ := List.mem_map.mp he
  obtain ⟨t, ht, hkey⟩ := mem_keys_groupBy.mp hk
  have hne : members regimeOf trades k ≠ [] := fun hnil => members_eq_nil_iff.mp hnil t ht hkey
  simp [hne]

theorem sum_regimeCounts : ((regimeCounts trades).map Prod.snd).sum = trades.length := by
  have hsum : ((groupBy regimeOf trades).values.map List.length).sum = trades.length := sum_groupBy
  rw [regimeCounts, List.map_map, ← hsum, Dict.values, entries_groupBy]
  simp [Function.comp_def]

/-- The counts hold every regime with trades. -/
theorem skewed_iff : Skewed trades ↔
    ∃ e ∈ regimeCounts trades, (85 / 100 : ℚ) * trades.length < e.2 := by
  constructor
  · rintro ⟨k, hk⟩
    refine ⟨_, List.mem_map.mpr ⟨k, ?_, rfl⟩, hk⟩
    rw [mem_keys_groupBy]
    by_contra hnone
    push Not at hnone
    rw [members_eq_nil_iff.mpr hnone, List.length_nil, Nat.cast_zero] at hk
    exact absurd hk (not_lt.mpr (by positivity))
  · rintro ⟨e, he, hlt⟩
    obtain ⟨k, -, rfl⟩ := List.mem_map.mp he
    exact ⟨k, hlt⟩

theorem flagImbalance_iff (h : 10 ≤ trades.length) :
    flagRegimeImbalance (aggregate N trades) = none ↔ ¬ Skewed trades := by
  have hpos : (0 : ℚ) < trades.length := by
    have : 0 < trades.length := by omega
    exact_mod_cast this
  have hten : ¬ (trades.length : ℚ) < 10 := not_lt.mpr (by exact_mod_cast h)
  unfold flagRegimeImbalance
  simp only [counts_eq, sum_regimeCounts, if_neg hten, skewed_iff]
  cases htop : (regimeCounts trades).argmax Prod.snd with
  | none =>
    rw [List.argmax_eq_none.mp htop]
    simp
  | some top =>
    have hmem : top ∈ regimeCounts trades := List.argmax_mem htop
    -- the largest count is over the share when any is
    have hlargest : (∃ e ∈ regimeCounts trades, (85 / 100 : ℚ) * trades.length < e.2) ↔
        85 / 100 < top.2 / trades.length := by
      rw [lt_div_iff₀ hpos]
      constructor
      · rintro ⟨e, he, hlt⟩
        exact hlt.trans_le (List.le_of_mem_argmax he htop)
      · intro hlt
        exact ⟨top, hmem, hlt⟩
    rw [hlargest, Option.bind_some]
    split_ifs with hshare
    · simp [hshare]
    · simp [hshare]

theorem flagFitness_none (p : Metrics ℚ) : flagFitnessGain (aggregate N trades) p = none := by
  unfold flagFitnessGain
  rw [aggregate_fitness]

/-- The checker promotes an accepted candidate on enough trades that are not skewed, whatever its
bear regime does. -/
theorem promising_iff (h : Produced trades) (hd : r.decision = .accepted)
    (hm : r.metrics = aggregate N trades) :
    (checkCandidate r parent).decision = .promising ↔ 30 ≤ trades.length ∧ ¬ Skewed trades := by
  rw [checkCandidate_promising_iff, and_iff_right hd, hm]
  have hparent : (parent.bind (flagFitnessGain (aggregate N trades))).toList = [] := by
    cases parent with
    | none => rfl
    | some p => rw [Option.bind_some, flagFitness_none]; rfl
  unfold redFlags
  rw [hparent, flagBear_produced h]
  simp only [Option.map_none, Option.toList_none, List.append_nil, List.append_eq_nil_iff,
    Option.toList_eq_nil_iff, Option.map_eq_none_iff, flagLow_iff]
  constructor
  · rintro ⟨hlow, himb⟩
    exact ⟨hlow, (flagImbalance_iff (by omega)).mp himb⟩
  · rintro ⟨hlow, hskew⟩
    exact ⟨hlow, (flagImbalance_iff (by omega)).mpr hskew⟩

/-- A collapse in the bear regime keeps the checker from promoting the candidate exactly when there
is none, or the trades are too few or skewed to one regime. -/
theorem bearGuard_iff (h : Produced trades) (hd : r.decision = .accepted)
    (hm : r.metrics = aggregate N trades) (parent : Option (Metrics ℚ)) :
    (BearCollapse N trades → (checkCandidate r parent).decision ≠ .promising) ↔
      ¬ BearCollapse N trades ∨ trades.length < 30 ∨ Skewed trades := by
  rw [Ne, promising_iff h hd hm, not_and_or, not_not, not_le, imp_iff_not_or]

theorem runSymbolGroup_append (h : runSymbolGroup N w symbol df daily group fresh = .ok ts)
    (h' : runSymbolGroup N w symbol df daily group fresh' = .ok us) :
    runSymbolGroup N w symbol df daily group (fresh ++ fresh') = .ok (ts ++ us) := by
  induction fresh generalizing ts with
  | nil =>
    obtain rfl := Except.ok.inj h
    exact h'
  | cons p fresh ih =>
    obtain ⟨trade, rest, htrade, hrest, rfl⟩ := runSymbolGroup_cons.mp h
    exact runSymbolGroup_cons.mpr ⟨trade, rest ++ us, htrade, ih hrest, List.append_assoc _ _ _⟩

/-- A pattern found again is counted again. -/
theorem runSymbolGroup_replicate
    (h : runPattern N w symbol df daily group anchor c = .ok (some t)) (n : ℕ) :
    runSymbolGroup N w symbol df daily group (List.replicate n (anchor, c)) =
      .ok (List.replicate n t) := by
  induction n with
  | zero => rfl
  | succ n ih =>
    rw [List.replicate_succ]
    exact runSymbolGroup_cons.mpr ⟨some t, List.replicate n t, h, ih, List.replicate_succ⟩

/-! Thirty stopped trades, the first half of them in the bear regime. -/

/-- The macro layer reads a month of days. -/
def monthProcess : Process := { tuning := ⟨{ minDailyBars := 30 }, by decide +kernel⟩ }

/-- The alternating market up to a fall, and the close above its average behind it. -/
def turning : Frame :=
  marketFrame ((List.range 207).map marketBar ++ [laterBar 207 99 101 100, laterBar 208 90 100 95,
    laterBar 209 90 100 95, laterBar 210 95 200 200])

/-- What a pattern of the turning market is counted as. -/
def turningView (anchor : ℕ) : Option (Option (ℚ × String)) :=
  (runPattern dailyNumerics monthProcess "BTCUSD" turning (toDailyClose turning.rows) .control anchor
    freshGartley).toOption.map (Option.map fun t => (t.rMultiple, t.macroRegime))

theorem turning_early : turningView 200 = some (some (-1, Macro.bearLabel)) := by decide +kernel

theorem turning_late : turningView 205 = some (some (-1, Macro.bullLabel)) := by decide +kernel

theorem turning_pattern {k : String} (h : turningView anchor = some (some (-1, k))) :
    ∃ t, runPattern dailyNumerics monthProcess "BTCUSD" turning (toDailyClose turning.rows) .control
      anchor freshGartley = .ok (some t) ∧ t.rMultiple = -1 ∧ t.macroRegime = k := by
  obtain ⟨o, ho, hview⟩ := Option.map_eq_some_iff.mp h
  obtain ⟨t, rfl, ht⟩ := Option.map_eq_some_iff.mp hview
  obtain ⟨hr, hk⟩ := Prod.mk.inj ht
  exact ⟨t, toOption_eq_some.mp ho, hr, hk⟩

/-- Thirty trades, the fifteen of the bear regime without variance: the checker has no objection. -/
theorem turning_promising : ∃ trades,
    runSymbolGroup dailyNumerics monthProcess "BTCUSD" turning (toDailyClose turning.rows) .control
      (List.replicate 15 (200, freshGartley) ++ List.replicate 15 (205, freshGartley)) =
        .ok trades ∧ BearCollapse dailyNumerics trades ∧
      ∀ r parent, r.decision = .accepted → r.metrics = aggregate dailyNumerics trades →
        (checkCandidate r parent).decision = .promising := by
  obtain ⟨t, ht, hr, hk⟩ := turning_pattern turning_early
  obtain ⟨u, hu, -, hk'⟩ := turning_pattern turning_late
  have hrun := runSymbolGroup_append (runSymbolGroup_replicate ht 15)
    (runSymbolGroup_replicate hu 15)
  have hbear : members Trade.macroRegime (List.replicate 15 t ++ List.replicate 15 u)
      Macro.bearLabel = List.replicate 15 t := by
    rw [members, List.filter_append, List.filter_replicate, List.filter_replicate, hk, hk',
      if_pos (by decide), if_neg (by decide), List.append_nil]
  refine ⟨_, hrun, ⟨?_, ?_⟩, ?_⟩
  · rw [hbear, List.length_replicate]
    omega
  · intro s hs
    have hnone : sharpe dailyNumerics (List.replicate 15 (-1)) = none := by decide +kernel
    rw [hbear, List.map_replicate, hr, hnone] at hs
    cases hs
  · intro r parent hd hm
    rw [promising_iff (produced_of_run hrun) hd hm]
    refine ⟨by simp, ?_⟩
    rintro ⟨k, hlt⟩
    have hfew : (members regimeOf (List.replicate 15 t ++ List.replicate 15 u) k).length ≤ 15 := by
      have ht : regimeOf t = Macro.bearLabel := by rw [regimeOf, hk, if_neg (by decide)]
      have hu : regimeOf u = Macro.bullLabel := by rw [regimeOf, hk', if_neg (by decide)]
      rw [members, List.filter_append, List.filter_replicate, List.filter_replicate, ht, hu]
      by_cases h : Macro.bearLabel = k
      · subst h
        simp [Macro.bearLabel, Macro.bullLabel]
      · by_cases h' : Macro.bullLabel = k <;> simp [h, h']
    have hfew : ((members regimeOf (List.replicate 15 t ++ List.replicate 15 u) k).length : ℚ) ≤ 15 := by
      exact_mod_cast hfew
    norm_num at hlt
    linarith

/-- An accepted candidate. -/
def acceptedWith (metrics : Metrics ℚ) : CandidateResult :=
  { candidateId := "g1", paramsSha := "sha", decision := .accepted, metrics := metrics }

/-- On fifteen trades the checker promotes no candidate. -/
theorem turning_few : ∃ trades,
    runSymbolGroup dailyNumerics monthProcess "BTCUSD" turning (toDailyClose turning.rows) .control
      (List.replicate 15 (200, freshGartley)) = .ok trades ∧
      (BearCollapse dailyNumerics trades →
        (checkCandidate (acceptedWith (aggregate dailyNumerics trades)) none).decision ≠
          .promising) := by
  obtain ⟨t, ht, -⟩ := turning_pattern turning_early
  have hrun := runSymbolGroup_replicate ht 15
  refine ⟨_, hrun, (bearGuard_iff (produced_of_run hrun) rfl rfl none).mpr ?_⟩
  simp

end Pyharmonics.Harness
