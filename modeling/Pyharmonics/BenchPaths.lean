import Pyharmonics.BenchStages
import Pyharmonics.FirstTrade

/-! The two paths from a signal to its outcome score: the runner's and the backtest stage's. -/
namespace Pyharmonics.Bench

open Backtest Firsts

variable {N : Numerics} {df forward : Frame} {o : WalkOptions} {e i j : ℕ} {S : Signal}
  {symbol interval : String} {rec rec' : SignalRecord} {s : Setup} {T : Trade} {rest : List Trade}
  {tp : ℚ} {side : TradeResult} {ov : Overrides} {ts : ℤ}

/-- The record of a signal before its trade is known. -/
def freshRecord (src : BacktestSignalRecord) (symbol interval : String) : SignalRecord :=
  { signalRecordFromBacktest src symbol interval with
    outcome := none, netRr := none, barsHeld := none, exitReason := none }

/-- What stage 3 makes of a record: its label and its result and reward/risk sub-scores. -/
def scored (N : Numerics) (rec : SignalRecord) : Option (Outcome × ℚ × ℚ) :=
  (stage3Score N rec).outcome.map fun o =>
    (o, resultSubscore o, rrSubscore (stage3Score N rec).netRr)

/-- Both paths score the first trade of the record's setup alike, and as that trade. -/
def PathsAgree (N : Numerics) (forward : Frame) (src : BacktestSignalRecord)
    (symbol interval : String) : Prop :=
  ∃ tp T rest rec, src.tp1 = some tp ∧
    simulateTrades forward ((freshRecord src symbol interval).setup tp) = .ok (T :: rest) ∧
    stage2Backtest (freshRecord src symbol interval) forward = .ok (rec, some T) ∧
    scored N (signalRecordFromBacktest src symbol interval) = scored N rec ∧
    scored N rec = some (outcomeOf T.rMultiple, resultSubscore (outcomeOf T.rMultiple),
      rrSubscore (some T.rMultiple))

/-- The labels of two bars lead back to rows in their order. -/
def Located (df : Frame) (j e : ℕ) : Prop :=
  ∃ r q p₁ p₂, df.rows[j]? = some r ∧ df.rows[e]? = some q ∧
    rowPosition df (some r.index) = .ok (some p₁) ∧ rowPosition df (some q.index) = .ok (some p₂) ∧
    p₁ ≤ p₂

/-- The setup the forward simulation trades and the record's both lose their first trade, or both
leave it open to the end; the record's prices are positive and its bars can be located. -/
structure SameExit (simulated recorded : Setup) (forward : Frame) : Prop where
  alike : ∃ side, side ≠ .win ∧ EndsOn simulated forward side ∧ EndsOn recorded forward side
  priced : 0 < recorded.entryPrice ∧ 0 < recorded.stopLoss ∧ 0 < recorded.targetPrice
  located : ∀ j e, FirstAt (fillAt recorded.entryPrice) forward.rows 0 j () →
    ExitBar recorded forward.rows j e → Located forward j e

theorem freshRecord_atr {src : BacktestSignalRecord} :
    0 < (freshRecord src symbol interval).atrAtEntry := two_pos

theorem scored_eq : scored N rec =
    rec.outcome.map fun o => (o, resultSubscore o, rrSubscore rec.netRr) := rfl

theorem mem_positions : i ∈ positions df ts ↔ ∃ r, df.rows[i]? = some r ∧ r.index = ts := by
  unfold positions
  simp only [List.mem_map, List.mem_filter, decide_eq_true_eq, Prod.exists, List.mem_zipIdx_iff_getElem?]
  constructor
  · rintro ⟨r, k, ⟨hr, hts⟩, rfl⟩
    exact ⟨r, hr, hts⟩
  · rintro ⟨r, hr, hts⟩
    exact ⟨r, i, ⟨hr, hts⟩, rfl⟩

/-- A located label is that of its row. -/
theorem rowPosition_row (h : rowPosition df (some ts) = .ok (some i)) :
    ∃ r, df.rows[i]? = some r ∧ r.index = ts := by
  rw [← mem_positions]
  unfold rowPosition at h
  rw [Option.map_some] at h
  cases hp : positions df ts with
  | nil =>
    simp only [hp] at h
    cases h
  | cons k rest =>
    cases rest with
    | nil =>
      simp only [hp] at h
      obtain rfl := Option.some.inj (Except.ok.inj h)
      simp
    | cons k' rest =>
      simp only [hp] at h
      split_ifs at h
      obtain rfl := Option.some.inj (Except.ok.inj h)
      simp

/-- In an ascending window every label of a row is located. -/
theorem rowPosition_ascending (h : (df.rows.map Row.index).Pairwise (· ≤ ·)) {r : Row}
    (hr : df.rows[i]? = some r) : ∃ p, rowPosition df (some r.index) = .ok (some p) := by
  have hmem : i ∈ positions df r.index := mem_positions.mpr ⟨r, hr, rfl⟩
  unfold rowPosition
  rw [Option.map_some]
  cases hp : positions df r.index with
  | nil =>
    rw [hp] at hmem
    cases hmem
  | cons k rest =>
    cases rest with
    | nil => exact ⟨k, rfl⟩
    | cons k' rest => exact ⟨k, if_pos h⟩

theorem index_le (h : (df.rows.map Row.index).Pairwise (· ≤ ·)) {r q : Row}
    (hr : df.rows[i]? = some r) (hq : df.rows[j]? = some q) (hij : i ≤ j) : r.index ≤ q.index := by
  rcases hij.eq_or_lt with rfl | hlt
  · obtain rfl := Option.some.inj (hr.symm.trans hq)
    exact le_rfl
  · obtain ⟨hi, rfl⟩ := List.getElem?_eq_some_iff.mp hr
    obtain ⟨hj, rfl⟩ := List.getElem?_eq_some_iff.mp hq
    rw [List.pairwise_map, List.pairwise_iff_getElem] at h
    exact h i j hi hj hlt

/-- In a window whose labels ascend every two bars are located. -/
theorem located_of_ascending (h : (forward.rows.map Row.index).Pairwise (· ≤ ·)) (hje : j ≤ e)
    (he : e < forward.rows.length) : Located forward j e := by
  have hq : forward.rows[e]? = some forward.rows[e] := List.getElem?_eq_getElem he
  have hr : forward.rows[j]? = some forward.rows[j] := List.getElem?_eq_getElem (hje.trans_lt he)
  obtain ⟨p₁, hp₁⟩ := rowPosition_ascending h hr
  obtain ⟨p₂, hp₂⟩ := rowPosition_ascending h hq
  refine ⟨_, _, p₁, p₂, hr, hq, hp₁, hp₂, ?_⟩
  by_contra hlt
  obtain ⟨r', hr', hri⟩ := rowPosition_row hp₁
  obtain ⟨q', hq', hqi⟩ := rowPosition_row hp₂
  -- a later label that is found earlier is the same label, which has one position
  have hle : q'.index ≤ r'.index := index_le h hq' hr' (by omega)
  have hge := index_le h hr hq hje
  rw [hri, hqi] at hle
  rw [le_antisymm hge hle, hp₂] at hp₁
  have : p₂ = p₁ := Option.some.inj (Except.ok.inj hp₁)
  omega

theorem applyTradeMetrics_keeps (h : applyTradeMetrics rec df = .ok rec') :
    rec'.outcome = rec.outcome ∧ rec'.netRr = rec.netRr := by
  unfold applyTradeMetrics at h
  cases htp : rec.tp1 with
  | none =>
    simp only [htp] at h
    cases h
  | some target =>
    simp only [htp] at h
    obtain ⟨m, -, h⟩ := bind_ok.mp h
    obtain rfl := Except.ok.inj h
    exact ⟨rfl, rfl⟩

/-- The metrics of a trade on levels in order are computed for positive prices. -/
theorem applyTradeMetrics_returns (htp : rec.tp1 = some tp) (ho : (rec.setup tp).Ordered)
    (hatr : 0 < rec.atrAtEntry) (hne : df.rows ≠ []) :
    Returns (applyTradeMetrics rec df) ↔ 0 < rec.entryPrice ∧ 0 < rec.stopPrice ∧ 0 < tp := by
  have hcols : ∀ c ∈ ["close", "high", "low", "open", "volume"], c ∈ df.columns := by
    intro c hc
    refine df.prices c ?_
    simp only [List.mem_cons, List.not_mem_nil, or_false] at hc ⊢
    tauto
  have hempty : ¬ df.empty = true := by simpa [Frame.empty] using hne
  have hmetrics : Returns (computeTradeMetrics df (rec.setup tp) rec.atrAtEntry) ↔
      0 < rec.entryPrice ∧ 0 < rec.stopPrice ∧ 0 < tp := by
    unfold computeTradeMetrics
    simp only [returns_refuse, not_not, returns_pure, and_true]
    rw [and_iff_right hcols, and_iff_right hempty, and_iff_left ⟨not_le.mpr hatr, ho⟩]
    simp only [SignalRecord.setup, not_or, not_le]
  unfold applyTradeMetrics
  simp only [htp]
  rw [← hmetrics, returns_bind]
  constructor
  · rintro ⟨m, hm, -⟩
    exact ⟨m, hm⟩
  · rintro ⟨m, hm⟩
    exact ⟨m, hm, returns_pure⟩

/-- The backtest stage on a record with a first trade on the target asked for, or its own. -/
theorem stage2Backtest_target {tp1 : Option ℚ} (htarget : tp1.or rec.tp1 = some tp)
    (hsim : simulateTrades forward (rec.setup tp) = .ok (T :: rest))
    (out : SignalRecord × Option Trade) :
    stage2Backtest rec forward tp1 = .ok out ↔ ∃ p₁ p₂ rec',
      rowPosition forward T.entryTime = .ok (some p₁) ∧
      rowPosition forward T.exitTime = .ok (some p₂) ∧ p₁ ≤ p₂ ∧
      applyTradeMetrics { rec with
        tp1 := rec.tp1.or (some tp)
        outcome := some (outcomeOf T.rMultiple), rMultiple := some T.rMultiple
        barsHeld := some ((p₂ : ℤ) - p₁ + 1) } (forward.slice p₁ (p₂ + 1)) = .ok rec' ∧
      out = (rec', some T) := by
  unfold stage2Backtest
  simp only [htarget]
  have hsim' : simulateTrades forward
      (SignalRecord.setup { rec with tp1 := rec.tp1.or (some tp) } tp) = .ok (T :: rest) := hsim
  simp only [hsim', ok_bind]
  constructor
  · intro h
    obtain ⟨entryPos, hentry, h⟩ := bind_ok.mp h
    obtain ⟨exitPos, hexit, h⟩ := bind_ok.mp h
    cases entryPos with
    | none => cases h
    | some p₁ =>
      cases exitPos with
      | none => cases h
      | some p₂ =>
        obtain ⟨_, hle, h⟩ := bind_ok.mp h
        obtain ⟨rec', hrec, h⟩ := bind_ok.mp h
        exact ⟨p₁, p₂, rec', hentry, hexit, not_lt.mp (refuse_ok.mp hle), hrec,
          (Except.ok.inj h).symm⟩
  · rintro ⟨p₁, p₂, rec', hentry, hexit, hle, hrec, rfl⟩
    have hfine : refuse (p₂ < p₁) "could not resolve entry/exit positions" [] = .ok () :=
      refuse_ok.mpr (not_lt.mpr hle)
    rw [hentry, hexit]
    simp only [ok_bind, hfine, hrec]
    rfl

/-- The backtest stage on a record whose setup has a first trade. -/
theorem stage2Backtest_eq (htp : rec.tp1 = some tp)
    (hsim : simulateTrades forward (rec.setup tp) = .ok (T :: rest))
    (out : SignalRecord × Option Trade) :
    stage2Backtest rec forward = .ok out ↔ ∃ p₁ p₂ rec',
      rowPosition forward T.entryTime = .ok (some p₁) ∧
      rowPosition forward T.exitTime = .ok (some p₂) ∧ p₁ ≤ p₂ ∧
      applyTradeMetrics { rec with
        outcome := some (outcomeOf T.rMultiple), rMultiple := some T.rMultiple
        barsHeld := some ((p₂ : ℤ) - p₁ + 1) } (forward.slice p₁ (p₂ + 1)) = .ok rec' ∧
      out = (rec', some T) := by
  have hkept : rec.tp1.or (some tp) = rec.tp1 := by
    rw [htp]
    rfl
  have htarget : (none : Option ℚ).or rec.tp1 = some tp := htp
  have hiff := stage2Backtest_target htarget hsim out
  rw [hkept] at hiff
  exact hiff

theorem simulateOne_traded (h : simulateTrades forward (setupOf S ov) = .ok (T :: rest)) :
    simulateOne forward (some S) ov = .ofTrade T := by
  have ho := (filled_of_simulateTrades h).1
  unfold simulateOne
  simp only [h, if_neg (not_not.mpr ho)]

theorem simulateOne_skipped (h : ∀ T rest, simulateTrades forward (setupOf S ov) ≠ .ok (T :: rest)) :
    simulateOne forward (some S) ov = .skip := by
  unfold simulateOne
  simp only
  by_cases ho : (setupOf S ov).Ordered
  · rw [if_neg (not_not.mpr ho)]
    cases hsim : simulateTrades forward (setupOf S ov) with
    | error err => rfl
    | ok trades =>
      cases trades with
      | nil => rfl
      | cons T rest => exact absurd hsim (h T rest)
  · rw [if_pos ho]

/-- The forward simulation tells the side of the first trade of its setup. -/
theorem simulateOne_result : (simulateOne forward (some S) ov).result = .traded side ↔
    EndsOn (setupOf S ov) forward side := by
  rw [endsOn_iff]
  constructor
  · intro h
    by_cases htrade : ∃ T rest, simulateTrades forward (setupOf S ov) = .ok (T :: rest)
    · obtain ⟨T, rest, hsim⟩ := htrade
      rw [simulateOne_traded hsim] at h
      exact ⟨T, rest, hsim, ForwardOutcome.traded.inj h⟩
    · push Not at htrade
      rw [simulateOne_skipped htrade] at h
      cases h
  · rintro ⟨T, rest, hsim, rfl⟩
    rw [simulateOne_traded hsim]
    rfl

/-- The first trade told by its bars. -/
theorem firstTrade_ends (h : simulateTrades forward s = .ok (T :: rest)) :
    s.Ordered ∧ ∃ j r, FirstAt (fillAt s.entryPrice) forward.rows 0 j () ∧
      forward.rows[j]? = some r ∧ Ends s forward.rows j r T := by
  obtain ⟨ho, j, hj⟩ := filled_of_simulateTrades h
  obtain ⟨r, T', rest', hr, hsim', hends⟩ := simulateTrades_first ho hj
  obtain ⟨rfl, -⟩ := List.cons.inj (Except.ok.inj (hsim'.symm.trans h))
  exact ⟨ho, j, r, hj, hr, hends⟩

theorem firstTrade_cases (h : simulateTrades forward s = .ok (T :: rest)) :
    (T.result = .win ∧ 0 < T.rMultiple) ∨ (T.result = .loss ∧ T.rMultiple = -1) ∨
      (T.result = .scratch ∧ T.rMultiple = 0) := by
  obtain ⟨ho, j, r, -, -, hends⟩ := firstTrade_ends h
  exact hends.cases ho

/-- The bars of the first trade can be located when the labels it carries can. -/
theorem located_iff (h : simulateTrades forward s = .ok (T :: rest)) :
    (∀ j e, FirstAt (fillAt s.entryPrice) forward.rows 0 j () → ExitBar s forward.rows j e →
      Located forward j e) ↔
    ∃ p₁ p₂, rowPosition forward T.entryTime = .ok (some p₁) ∧
      rowPosition forward T.exitTime = .ok (some p₂) ∧ p₁ ≤ p₂ := by
  obtain ⟨-, j, r, hj, hr, hends⟩ := firstTrade_ends h
  obtain ⟨e, q, he, hq, hentry, hexit⟩ := hends.times
  rw [hentry, hexit]
  constructor
  · intro hloc
    obtain ⟨r', q', p₁, p₂, hr', hq', hp₁, hp₂, hle⟩ := hloc j e hj he
    obtain rfl := Option.some.inj (hr.symm.trans hr')
    obtain rfl := Option.some.inj (hq.symm.trans hq')
    exact ⟨p₁, p₂, hp₁, hp₂, hle⟩
  · rintro ⟨p₁, p₂, hp₁, hp₂, hle⟩ j' e' hj' he'
    obtain ⟨rfl, -⟩ := hj.unique hj'
    obtain rfl := he.unique he'
    exact ⟨r, q, p₁, p₂, hr, hq, hp₁, hp₂, hle⟩

/-- The backtest stage returns the first trade when its bars are located and its prices positive. -/
theorem stage2Backtest_returns (htp : rec.tp1 = some tp) (hatr : 0 < rec.atrAtEntry)
    (hsim : simulateTrades forward (rec.setup tp) = .ok (T :: rest)) :
    (∃ rec', stage2Backtest rec forward = .ok (rec', some T)) ↔
      (∃ p₁ p₂, rowPosition forward T.entryTime = .ok (some p₁) ∧
        rowPosition forward T.exitTime = .ok (some p₂) ∧ p₁ ≤ p₂) ∧
      0 < rec.entryPrice ∧ 0 < rec.stopPrice ∧ 0 < tp := by
  obtain ⟨ho, j, r, -, -, hends⟩ := firstTrade_ends hsim
  obtain ⟨e, q, -, -, -, hexit⟩ := hends.times
  have hheld : ∀ p₁ p₂, rowPosition forward T.exitTime = .ok (some p₂) → p₁ ≤ p₂ →
      (Returns (applyTradeMetrics { rec with
        outcome := some (outcomeOf T.rMultiple), rMultiple := some T.rMultiple
        barsHeld := some ((p₂ : ℤ) - p₁ + 1) } (forward.slice p₁ (p₂ + 1))) ↔
          0 < rec.entryPrice ∧ 0 < rec.stopPrice ∧ 0 < tp) := by
    intro p₁ p₂ hp₂ hle
    refine applyTradeMetrics_returns htp ho hatr ?_
    rw [hexit] at hp₂
    obtain ⟨q', hq', -⟩ := rowPosition_row hp₂
    have hlen := (List.getElem?_eq_some_iff.mp hq').1
    apply List.ne_nil_of_length_pos
    simp only [Frame.slice, List.length_take, List.length_drop]
    omega
  constructor
  · rintro ⟨rec', h⟩
    obtain ⟨p₁, p₂, rec'', hp₁, hp₂, hle, hrec, -⟩ := (stage2Backtest_eq htp hsim _).mp h
    exact ⟨⟨p₁, p₂, hp₁, hp₂, hle⟩, (hheld p₁ p₂ hp₂ hle).mp ⟨rec'', hrec⟩⟩
  · rintro ⟨⟨p₁, p₂, hp₁, hp₂, hle⟩, hpriced⟩
    obtain ⟨rec', hrec⟩ := (hheld p₁ p₂ hp₂ hle).mpr hpriced
    exact ⟨rec', (stage2Backtest_eq htp hsim _).mpr ⟨p₁, p₂, rec', hp₁, hp₂, hle, hrec, rfl⟩⟩

/-- The record the backtest stage leaves: its label is the trade's, its `net_rr` untouched. -/
theorem stage2Backtest_keeps (htp : rec.tp1 = some tp)
    (hsim : simulateTrades forward (rec.setup tp) = .ok (T :: rest))
    (h : stage2Backtest rec forward = .ok (rec', some T)) :
    rec'.outcome = some (outcomeOf T.rMultiple) ∧ rec'.netRr = rec.netRr := by
  obtain ⟨p₁, p₂, rec'', -, -, -, hrec, hout⟩ := (stage2Backtest_eq htp hsim _).mp h
  obtain ⟨rfl, -⟩ := Prod.mk.inj hout
  exact applyTradeMetrics_keeps hrec

/-- The two converters give one label to a loss or a scratch, and to nothing else. -/
theorem resultToOutcome_iff {x : ForwardOutcome}
    (h : simulateTrades forward s = .ok (T :: rest)) :
    resultToOutcome x = outcomeOf T.rMultiple ↔ T.result ≠ .win ∧ x = .traded T.result := by
  rcases firstTrade_cases h with ⟨hw, hr⟩ | ⟨hl, hr⟩ | ⟨hs, hr⟩
  · have : outcomeOf T.rMultiple = .tp1 := if_pos hr
    rw [this, hw]
    cases x with
    | traded side => cases side <;> simp [resultToOutcome]
    | skipped => simp [resultToOutcome]
  · have : outcomeOf T.rMultiple = .stoploss := by
      rw [hr]
      decide +kernel
    rw [this, hl]
    cases x with
    | traded side => cases side <;> simp [resultToOutcome]
    | skipped => simp [resultToOutcome]
  · have : outcomeOf T.rMultiple = .breakeven := by
      rw [hr]
      decide +kernel
    rw [this, hs]
    cases x with
    | traded side => cases side <;> simp [resultToOutcome]
    | skipped => simp [resultToOutcome]

theorem rrSubscore_lost (h : simulateTrades forward s = .ok (T :: rest)) (hw : T.result ≠ .win) :
    rrSubscore (some T.rMultiple) = 0 := by
  rcases firstTrade_cases h with ⟨hwin, -⟩ | ⟨-, hr⟩ | ⟨-, hr⟩
  · exact absurd hwin hw
  · rw [hr]
    norm_num [rrSubscore]
  · rw [hr]
    norm_num [rrSubscore]

/-- The prices the walk-forward backtest hands to the simulation. -/
def walkOverrides (df : Frame) (o : WalkOptions) (e : ℕ) (S : Signal) : Overrides :=
  { currentPrice := some (((windowAt df o e).rows.getLast?.map Row.close).getD 0)
    entryPrice := if o.entryMode = .prz then some S.entryReference else none }

/-- The two paths agree exactly when both setups end their first trade on one side, not a win, and
the backtest stage can score the record. -/
theorem pathsAgree_iff : PathsAgree N (forwardAt df o e) (recordOf df o e S) symbol interval ↔
    ∃ tp, (recordOf df o e S).tp1 = some tp ∧
      SameExit (setupOf S (walkOverrides df o e S))
        ((freshRecord (recordOf df o e S) symbol interval).setup tp) (forwardAt df o e) := by
  have hresult : (recordOf df o e S).result =
    (simulateOne (forwardAt df o e) (some S) (walkOverrides df o e S)).result := rfl
  constructor
  · rintro ⟨tp, T, rest, rec, htp, hsim, hstage, hsame, hown⟩
    refine ⟨tp, htp, ?_⟩
    have hlabel : resultToOutcome (recordOf df o e S).result = outcomeOf T.rMultiple :=
      congrArg Prod.fst (Option.some.inj (hsame.trans hown))
    obtain ⟨hwin, hx⟩ := (resultToOutcome_iff hsim).mp hlabel
    have hfresh : (freshRecord (recordOf df o e S) symbol interval).tp1 = some tp := htp
    obtain ⟨hlocated, hpriced⟩ := (stage2Backtest_returns hfresh freshRecord_atr hsim).mp ⟨rec, hstage⟩
    exact
      { alike := ⟨T.result, hwin, simulateOne_result.mp (hresult ▸ hx),
          endsOn_iff.mpr ⟨T, rest, hsim, rfl⟩⟩
        priced := hpriced
        located := (located_iff hsim).mpr hlocated }
  · rintro ⟨tp, htp, ⟨side, hwin, hsimulated, hrecorded⟩, hpriced, hlocated⟩
    obtain ⟨T, rest, hsim, rfl⟩ := endsOn_iff.mp hrecorded
    have hfresh : (freshRecord (recordOf df o e S) symbol interval).tp1 = some tp := htp
    obtain ⟨rec, hstage⟩ := (stage2Backtest_returns hfresh freshRecord_atr hsim).mpr
      ⟨(located_iff hsim).mp hlocated, hpriced⟩
    obtain ⟨houtcome, hnet⟩ := stage2Backtest_keeps hfresh hsim hstage
    obtain ⟨T', rest', hsim', hT'⟩ := endsOn_iff.mp hsimulated
    have hone := simulateOne_traded hsim'
    have hx : (recordOf df o e S).result = .traded T.result := by
      rw [hresult, hone, ← hT']
      rfl
    have hr : (recordOf df o e S).rMultiple = T'.rMultiple := congrArg ForwardResult.rMultiple hone
    have hlabel := (resultToOutcome_iff hsim).mpr ⟨hwin, hx⟩
    have hzero := rrSubscore_lost hsim hwin
    have hzero' := rrSubscore_lost hsim' (hT' ▸ hwin)
    have hscored : scored N rec = some (outcomeOf T.rMultiple,
        resultSubscore (outcomeOf T.rMultiple), rrSubscore (some T.rMultiple)) := by
      rw [scored_eq, houtcome, hnet, hzero]
      rfl
    refine ⟨tp, T, rest, rec, htp, hsim, hstage, ?_, hscored⟩
    rw [hscored, scored_eq]
    change some (resultToOutcome (recordOf df o e S).result, _,
      rrSubscore (some (recordOf df o e S).rMultiple)) = _
    rw [hlabel, hr, hzero, hzero']

/-! A short at 100 with its stop at 105 and its first target at 90, and the bars that fill it and
reach the target. -/

def shortSignal : Signal :=
  { status := .confirmed, grade := .b, direction := .short, patternName := "Gartley"
    family := "XABCD", formed := true, entryZone := (99, 101), entryReference := 100
    stopLoss := 105, stopBasis := "X", stopLevel := "standard", invalidationPoint := 104
    targets := [⟨"TP1", 90, "0.382 AD", 50, "entry"⟩, ⟨"TP2", 85, "0.618 AD", 30, "TP1"⟩]
    netRrTp1 := 2, netRrTp2 := 3, confluenceScore := 50 }

def dayBar (k : ℕ) (low high close : ℚ) : Row :=
  { openPrice := close, high := high, low := low, close := close, volume := 1
    closeTime := k * 86400, dts := k * 86400, index := k * 86400 }

def fallingFrame : Frame := frameOf [dayBar 0 99 101 100, dayBar 1 99 101 100, dayBar 2 88 100 89]

def oneBarWalk : WalkOptions :=
  { window := 1, step := 1, horizon := 1, windowPos := by decide, stepPos := by decide }

/-- The scores of the backtest stage on the falling bars. -/
def fallingStage : Option (Option (Outcome × ℚ × ℚ)) :=
  (stage2Backtest (freshRecord (recordOf fallingFrame oneBarWalk 0 shortSignal) "BTCUSDT" "1d")
    (forwardAt fallingFrame oneBarWalk 0)).toOption.map fun out => scored plainNumerics out.1

theorem falling_stage : fallingStage = some (some (.tp1, 15, 0)) := by decide +kernel

/-- One won trade: the runner scores it as TP2 with its multiple, the backtest stage as TP1 without. -/
theorem falling_disagrees :
    scored plainNumerics (signalRecordFromBacktest
      (recordOf fallingFrame oneBarWalk 0 shortSignal) "BTCUSDT" "1d") = some (.tp2, 20, 7) ∧
    fallingStage = some (some (.tp1, 15, 0)) ∧
    ¬ PathsAgree plainNumerics (forwardAt fallingFrame oneBarWalk 0)
      (recordOf fallingFrame oneBarWalk 0 shortSignal) "BTCUSDT" "1d" := by
  have hrunner : scored plainNumerics (signalRecordFromBacktest
      (recordOf fallingFrame oneBarWalk 0 shortSignal) "BTCUSDT" "1d") = some (.tp2, 20, 7) := by
    decide +kernel
  refine ⟨hrunner, falling_stage, ?_⟩
  rintro ⟨tp, T, rest, rec, -, -, hstage, hsame, -⟩
  have hscored : fallingStage = some (scored plainNumerics rec) := by
    rw [fallingStage, hstage]
    rfl
  rw [falling_stage, ← hsame, hrunner] at hscored
  exact absurd hscored (by decide +kernel)

end Pyharmonics.Bench
