import Pyharmonics.FirstTrade
import Pyharmonics.HarnessLookahead

/-! The fills and exits of the harness against the backtest engine. -/
namespace Pyharmonics.Harness

open Backtest Firsts

variable {N : Numerics} {w : Process} {symbol : String} {df : Frame} {daily : List (ℤ × ℚ)}
  {group : Group} {anchor : ℕ} {c : Candidate} {S : Signal} {t : Trade} {T : Backtest.Trade}
  {trades : List Trade} {fresh : List (ℕ × Candidate)} {tp tp' : ℚ} {r : Row} {i e j : ℕ}
  {side : TradeResult} {rest : List Backtest.Trade}
  {rows : List Row}

/-- What the engine is asked to trade for a signal with its first target. -/
def setupOf (S : Signal) (tp : ℚ) : Setup := ⟨S.direction, S.entryReference, S.stopLoss, tp⟩

/-- The bar behind the anchor at which a signal is filled first. -/
def FirstFill (df : Frame) (anchor : ℕ) (S : Signal) (j : ℕ) : Prop :=
  FirstAt (fillAt S.entryReference) df.rows (anchor + 1) j ()

/-- The last bar the harness holds a trade of this anchor to. -/
def holdLimit (df : Frame) (anchor : ℕ) : ℕ := endBar df (anchor + 1) 100

/-- The side on which the harness leaves a trade at a bar: the stop goes before the target. -/
def harnessSide (S : Signal) (tp : ℚ) (r : Row) : Option TradeResult :=
  if if isLong S then r.low ≤ S.stopLoss else S.stopLoss ≤ r.high then some .loss
  else if if isLong S then tp ≤ r.high else r.low ≤ tp then some .win
  else none

/-- The engine, on bars labelled by their positions, closed the trade by a bar. -/
structure ClosedBy (T : Backtest.Trade) (last : ℕ) : Prop where
  closed : T.result ≠ .scratch
  time : ∃ e : ℕ, T.exitTime = some (e : ℤ) ∧ e ≤ last

/-- A trade of the harness ends like one of the engine. -/
structure Matches (t : Trade) (T : Backtest.Trade) : Prop where
  price : t.exitPrice = T.exitPrice
  r : t.rMultiple = T.rMultiple
  stop : t.exitReason = .stopLoss ↔ T.result = .loss
  target : t.exitReason = .tp1 ↔ T.result = .win

/-- A counted trade was filled, and ends like the engine's trade from its fill bar on if that one
closes within the holding limit. -/
structure FaithfulFill (df : Frame) (anchor : ℕ) (S : Signal) (tp : ℚ) (t : Trade) : Prop where
  filled : ∃ j, FirstFill df anchor S j
  exit : ∀ j, FirstFill df anchor S j → ∀ T rest,
    simulateTrades (df.resetIndex.drop j) (setupOf S tp) = .ok (T :: rest) →
      ClosedBy T (holdLimit df anchor) → Matches t T

/-- Some bar behind the anchor fills the entry, and the side the engine takes at the first bar from
the fill on that reaches a level is the side the harness takes at the first such bar behind the
entry bar. -/
structure FillsAlike (df : Frame) (anchor : ℕ) (S : Signal) (tp : ℚ) : Prop where
  filled : ∃ j, FirstFill df anchor S j
  exit : (setupOf S tp).Ordered → ∀ j e side, FirstFill df anchor S j →
    FirstAt (engineSide (setupOf S tp)) df.rows j e side → e ≤ holdLimit df anchor →
      ∃ i, FirstAt (harnessSide S tp) df.rows (anchor + 2) i side ∧ i ≤ holdLimit df anchor

/-- A direction of the engine and a second target beyond the first. -/
structure Laddered (S : Signal) (tp tp' : ℚ) : Prop where
  direction : S.direction = .long ∨ S.direction = .short
  first : firstTarget S = some tp
  second : secondTarget S = some tp'
  beyond : if isLong S then tp < tp' else tp' < tp

theorem signalAt_laddered (h : signalAt N w df anchor c = some S) : ∃ tp tp', Laddered S tp tp' := by
  obtain ⟨ctx, hp⟩ := signalAt_published h
  obtain ⟨a, -, ht⟩ := bind_ok.mp hp.targets
  obtain ⟨_, -, ht⟩ := bind_ok.mp ht
  obtain ⟨_, -, ht⟩ := bind_ok.mp ht
  obtain ⟨_, -, ht⟩ := bind_ok.mp ht
  have htargets := (Except.ok.inj ht).symm
  obtain ⟨stop, hgeo⟩ := hp.geometry
  rw [htargets] at hgeo
  have hdir := hp.direction
  refine ⟨_, _, ?_, by rw [firstTarget, htargets]; rfl, by rw [secondTarget, htargets]; rfl, ?_⟩
  · rw [hdir, Candidate.direction]
    split_ifs <;> simp
  · unfold isLong
    rw [hdir]
    cases hb : c.bullish with
    | true =>
      simp only [directionInvariantOk, Candidate.direction, hb, List.map_cons, if_true,
        decide_eq_true_eq] at hgeo
      simpa [Candidate.direction, hb] using hgeo.2.2.1
    | false =>
      simp only [directionInvariantOk, Candidate.direction, hb, List.map_cons, Bool.false_eq_true,
        if_false, reduceCtorEq, decide_eq_true_eq] at hgeo
      simpa [Candidate.direction, hb] using hgeo.2.2.1

/-- The exit of the harness on a side. -/
def exitAt (S : Signal) (tp : ℚ) (i : ℕ) (side : TradeResult) : Exit :=
  if side = .loss then ⟨i, S.stopLoss, .stopLoss, -1⟩ else ⟨i, tp, .tp1, multiple S tp⟩

/-- The second target is never the exit: a bar that reaches it reaches the first. -/
theorem exitOn_eq (h : Laddered S tp tp') :
    exitOn S i r = (harnessSide S tp r).map (exitAt S tp i) := by
  have hb := h.beyond
  unfold exitOn harnessSide
  simp only [h.first, h.second, Option.any_some, Option.map_some]
  cases hl : isLong S with
  | true =>
    simp only [hl, if_true, decide_eq_true_eq] at hb ⊢
    split_ifs with h₁ h₂ h₃
    · simp [exitAt]
    · simp [exitAt]
    · exact absurd (hb.le.trans h₃) h₂
    · rfl
  | false =>
    simp only [hl, Bool.false_eq_true, if_false, decide_eq_true_eq] at hb ⊢
    split_ifs with h₁ h₂ h₃
    · simp [exitAt]
    · simp [exitAt]
    · exact absurd (h₃.trans hb.le) h₂
    · rfl

theorem firstAt_exitOn (h : Laddered S tp tp') {a : ℕ} {x : Exit} :
    (∃ i, (a ≤ i ∧ i < a + j ∧ df.rows[i]?.bind (exitOn S i) = some x ∧
      ∀ k, a ≤ k → k < i → df.rows[k]?.bind (exitOn S k) = none)) ↔
    ∃ i side, FirstAt (harnessSide S tp) df.rows a i side ∧ i < a + j ∧ x = exitAt S tp i side := by
  have hbind : ∀ i, df.rows[i]?.bind (exitOn S i) =
      (df.rows[i]?.bind (harnessSide S tp)).map (exitAt S tp i) := by
    intro i
    cases df.rows[i]? with
    | none => rfl
    | some r => exact exitOn_eq h
  constructor
  · rintro ⟨i, hai, hij, hx, hbefore⟩
    rw [hbind, Option.map_eq_some_iff] at hx
    obtain ⟨side, hside, rfl⟩ := hx
    refine ⟨i, side, ⟨hai, hside, ?_⟩, hij, rfl⟩
    intro k hak hki
    have := hbefore k hak hki
    rwa [hbind, Option.map_eq_none_iff] at this
  · rintro ⟨i, side, hf, hij, rfl⟩
    refine ⟨i, hf.le, hij, by rw [hbind, hf.hit, Option.map_some], ?_⟩
    intro k hak hki
    rw [hbind, hf.before k hak hki, Option.map_none]

/-- The loop of `_simulate_trade`: a level is reached within the limit, or the data ends. -/
theorem exitFrom_cases (h : Laddered S tp tp') (hlen : anchor + 1 < df.length) :
    (∃ i side, FirstAt (harnessSide S tp) df.rows (anchor + 2) i side ∧ i ≤ holdLimit df anchor ∧
      exitFrom df (anchor + 1) S 100 = exitAt S tp i side) ∨
    ((∀ i side, FirstAt (harnessSide S tp) df.rows (anchor + 2) i side → ¬ i ≤ holdLimit df anchor) ∧
      (exitFrom df (anchor + 1) S 100).reason = .endOfData) := by
  have hlimit : anchor + 1 ≤ holdLimit df anchor := by
    unfold holdLimit endBar
    omega
  have hsum : anchor + 1 + 1 + (holdLimit df anchor - (anchor + 1)) = holdLimit df anchor + 1 := by
    omega
  unfold exitFrom
  simp only
  change _ ∨ _
  cases hx : (List.range' (anchor + 1 + 1) (endBar df (anchor + 1) 100 - (anchor + 1))).findSome?
      fun i => df.rows[i]?.bind (exitOn S i) with
  | some x =>
    obtain ⟨i, side, hf, hi, rfl⟩ := (firstAt_exitOn h).mp (findSome_range'_iff.mp hx)
    have hi : i < holdLimit df anchor + 1 := hsum ▸ hi
    exact Or.inl ⟨i, side, hf, by omega, rfl⟩
  | none =>
    refine Or.inr ⟨?_, rfl⟩
    intro i side hf hi
    have hi' : i < anchor + 1 + 1 + (holdLimit df anchor - (anchor + 1)) := by omega
    have := findSome_range'_iff.mpr ((firstAt_exitOn h).mpr ⟨i, side, hf, hi', rfl⟩)
    rw [holdLimit] at this
    rw [hx] at this
    cases this

/-- A level reached within the limit is the exit. -/
theorem exitFrom_of_first (h : Laddered S tp tp') (hlen : anchor + 1 < df.length)
    (hfirst : FirstAt (harnessSide S tp) df.rows (anchor + 2) i side) (hi : i ≤ holdLimit df anchor) :
    exitFrom df (anchor + 1) S 100 = exitAt S tp i side := by
  rcases exitFrom_cases h hlen with ⟨i', side', hfirst', -, hexit⟩ | ⟨hnone, -⟩
  · obtain ⟨rfl, rfl⟩ := hfirst.unique hfirst'
    exact hexit
  · exact absurd hi (hnone i side hfirst)

theorem resetIndex_rows (i : ℕ) :
    df.resetIndex.rows[i]? = df.rows[i]?.map fun r => { r with index := i } := by
  simp only [Frame.resetIndex, List.getElem?_map, List.getElem?_zipIdx, Option.map_map,
    Function.comp_def, Nat.zero_add]

theorem firstAt_resetIndex {f : Row → Option TradeResult} {a : ℕ}
    (hf : ∀ r (k : ℤ), f { r with index := k } = f r) :
    FirstAt f df.resetIndex.rows a i side ↔ FirstAt f df.rows a i side := by
  apply firstAt_congr
  intro k
  rw [resetIndex_rows]
  cases df.rows[k]? with
  | none => rfl
  | some r => exact hf r k

theorem leave_win (h : (setupOf S tp).Ordered) (T : Backtest.Trade) :
    ((setupOf S tp).leave T r .win).rMultiple = multiple S tp := by
  rw [h.leave_win]
  unfold Setup.Ordered setupOf at h
  simp only [setupOf, multiple, isLong, decide_eq_true_eq] at h ⊢
  by_cases hl : S.direction = .long
  · rw [if_pos hl] at h ⊢
    rw [abs_of_pos (by linarith [h.2])]
  · rw [if_neg hl] at h ⊢
    rw [abs_of_neg (by linarith [h.2]), neg_sub]

/-- What a trade of the harness ends with. -/
def Trade.exit (t : Trade) : Exit := ⟨t.exitBar, t.exitPrice, t.exitReason, t.rMultiple⟩

theorem simulateTrade_exit (hrisk : 0 < |S.entryReference - S.stopLoss|) :
    (simulateTrade symbol df e S).exit = exitFrom df e S 100 := by
  rw [Trade.exit, simulateTrade, if_neg (not_le.mpr hrisk)]

/-- A trade that ends on a side, and the engine's trade that does. -/
theorem matches_leave (h : (setupOf S tp).Ordered) (hside : side ≠ .scratch)
    (ht : t.exit = exitAt S tp i side) (T : Backtest.Trade) :
    Matches t ((setupOf S tp).leave T r side) := by
  cases side with
  | win =>
    rw [exitAt, if_neg (by decide), Trade.exit, Exit.mk.injEq] at ht
    obtain ⟨-, hprice, hreason, hr⟩ := ht
    refine ⟨hprice, hr.trans (leave_win h T).symm, ?_, ?_⟩
    · simp [hreason, Setup.leave, Setup.close]
    · simp [hreason, Setup.leave, Setup.close]
  | loss =>
    rw [exitAt, if_pos rfl, Trade.exit, Exit.mk.injEq] at ht
    obtain ⟨-, hprice, hreason, hr⟩ := ht
    refine ⟨hprice, hr.trans (h.leave_loss T).symm, ?_, ?_⟩
    · simp [hreason, Setup.leave, Setup.close]
    · simp [hreason, Setup.leave, Setup.close]
  | scratch => exact absurd rfl hside

/-- The sides of two matching trades agree. -/
theorem side_of_matches {q : Row} {side' : TradeResult} (hside : side ≠ .scratch)
    (hside' : side' ≠ .scratch) (ht : t.exit = exitAt S tp i side')
    (h : Matches t ((setupOf S tp).leave T q side)) : side' = side := by
  have hreason : t.exitReason = (exitAt S tp i side').reason := congrArg Exit.reason ht
  have hstop : t.exitReason = .stopLoss ↔ side = .loss := h.stop
  cases side <;> cases side' <;> simp_all [exitAt]

/-- A trade held to the end of the data is none the engine closed. -/
theorem not_matches_leave {q : Row} (hside : side ≠ .scratch) (ht : t.exitReason = .endOfData) :
    ¬ Matches t ((setupOf S tp).leave T q side) := by
  intro h
  cases side with
  | win => exact absurd (ht.symm.trans (h.target.mpr rfl)) (by decide)
  | loss => exact absurd (ht.symm.trans (h.stop.mpr rfl)) (by decide)
  | scratch => exact hside rfl

theorem harnessSide_ne_scratch (h : harnessSide S tp r = some side) : side ≠ .scratch := by
  unfold harnessSide at h
  split_ifs at h <;> simp at h <;> simp [← h]

theorem harnessSide_ne {a : ℕ} (h : FirstAt (harnessSide S tp) df.rows a i side) :
    side ≠ .scratch := by
  obtain ⟨r, -, hr⟩ := Option.bind_eq_some_iff.mp h.hit
  exact harnessSide_ne_scratch hr

theorem engineSide_ne {s : Setup} {a : ℕ} (h : FirstAt (engineSide s) df.rows a i side) :
    side ≠ .scratch := by
  obtain ⟨r, -, hr⟩ := Option.bind_eq_some_iff.mp h.hit
  exact engineSide_ne_scratch hr

/-- The engine on the bars of the harness from a fill on, labelled by their positions. -/
theorem engine_filled (ho : (setupOf S tp).Ordered) (hfill : FirstFill df anchor S j) :
    ∃ T rest, simulateTrades (df.resetIndex.drop j) (setupOf S tp) = .ok (T :: rest) ∧
      ((∃ (e : ℕ) (q : Row) (side : TradeResult) (T₀ : Backtest.Trade),
          FirstAt (engineSide (setupOf S tp)) df.rows j e side ∧ q.index = e ∧
          T = (setupOf S tp).leave T₀ q side) ∨
        (∀ e side, ¬ FirstAt (engineSide (setupOf S tp)) df.rows j e side) ∧
          T.result = .scratch) := by
  obtain ⟨r, hr, hcover⟩ := covers_of_fillAt (s := setupOf S tp) hfill.hit
  have hrow : df.resetIndex.rows[j]? = some { r with index := j } := by
    rw [resetIndex_rows, hr, Option.map_some]
  have hfirst : ∀ e side, FirstAt (engineSide (setupOf S tp)) df.resetIndex.rows j e side ↔
      FirstAt (engineSide (setupOf S tp)) df.rows j e side := by
    intro e side
    exact firstAt_resetIndex fun _ _ => rfl
  obtain ⟨T, rest, hsim, hT⟩ := simulateTrades_filled ho hrow hcover
  refine ⟨T, rest, hsim, ?_⟩
  rcases hT with ⟨e, q, side, he, hq, rfl⟩ | ⟨hnone, last, -, rfl⟩
  · refine Or.inl ⟨e, q, side, _, (hfirst e side).mp he, ?_, rfl⟩
    rw [resetIndex_rows, Option.map_eq_some_iff] at hq
    obtain ⟨_, -, rfl⟩ := hq
    rfl
  · exact Or.inr ⟨fun e side h => hnone e side ((hfirst e side).mpr h), rfl⟩

theorem runSymbolGroup_cons {p : ℕ × Candidate} :
    runSymbolGroup N w symbol df daily group (p :: fresh) = .ok trades ↔
      ∃ trade rest, runPattern N w symbol df daily group p.1 p.2 = .ok trade ∧
        runSymbolGroup N w symbol df daily group fresh = .ok rest ∧
        trades = trade.toList ++ rest := by
  constructor
  · intro h
    obtain ⟨trade, htrade, h⟩ := bind_ok.mp h
    obtain ⟨rest, hrest, h⟩ := bind_ok.mp h
    exact ⟨trade, rest, htrade, hrest, (Except.ok.inj h).symm⟩
  · rintro ⟨trade, rest, htrade, hrest, rfl⟩
    exact bind_ok.mpr ⟨trade, htrade, bind_ok.mpr ⟨rest, hrest, rfl⟩⟩

theorem mem_runSymbolGroup (h : runSymbolGroup N w symbol df daily group fresh = .ok trades)
    (ht : t ∈ trades) : ∃ anchor c, (anchor, c) ∈ fresh ∧
      runPattern N w symbol df daily group anchor c = .ok (some t) := by
  induction fresh generalizing trades with
  | nil =>
    obtain rfl := Except.ok.inj h
    cases ht
  | cons p fresh ih =>
    obtain ⟨trade, rest, htrade, hrest, rfl⟩ := runSymbolGroup_cons.mp h
    rcases List.mem_append.mp ht with ht | ht
    · rw [Option.mem_toList] at ht
      exact ⟨p.1, p.2, by simp, ht ▸ htrade⟩
    · obtain ⟨anchor', c', hmem, hrun⟩ := ih hrest ht
      exact ⟨anchor', c', List.mem_cons_of_mem _ hmem, hrun⟩

/-- A counted trade is the simulated one on the bar behind its anchor, in the regime of the overlay
there. -/
theorem runPattern_trade (h : runPattern N w symbol df daily group anchor c = .ok (some t)) :
    ∃ S, signalAt N w df anchor c = some S ∧ anchor + 1 < df.length ∧
      t.exit = (simulateTrade symbol df (anchor + 1) S).exit ∧
      ∃ entry o, df.rows[anchor + 1]? = some entry ∧
        Macro.compute N w (some (dailyUntil daily entry.dts)) (macroSide c) = .ok o ∧
        t.macroRegime = o.macroDir := by
  unfold runPattern at h
  cases hS : signalAt N w df anchor c with
  | none =>
    simp only [hS] at h
    cases h
  | some S =>
    cases hentry : df.rows[anchor + 1]? with
    | none =>
      simp only [hS, hentry] at h
      cases h
    | some entry =>
      simp only [hS, hentry] at h
      obtain ⟨verdict, -, h⟩ := bind_ok.mp h
      obtain ⟨overlay, ho, h⟩ := bind_ok.mp h
      by_cases ha : accepts group c verdict = true
      · rw [if_neg (not_not.mpr ha)] at h
        obtain rfl := Option.some.inj (Except.ok.inj h)
        exact ⟨S, rfl, (List.getElem?_eq_some_iff.mp hentry).1, rfl, entry, overlay, rfl, ho, rfl⟩
      · rw [if_pos ha] at h
        cases h

/-- The exit part of a faithful fill, for a trade with a risk. -/
theorem exit_iff (hlad : Laddered S tp tp') (ho : (setupOf S tp).Ordered)
    (hlen : anchor + 1 < df.length) (ht : t.exit = exitFrom df (anchor + 1) S 100)
    (hfill : FirstFill df anchor S j) :
    (∀ T rest, simulateTrades (df.resetIndex.drop j) (setupOf S tp) = .ok (T :: rest) →
        ClosedBy T (holdLimit df anchor) → Matches t T) ↔
      ∀ e side, FirstAt (engineSide (setupOf S tp)) df.rows j e side → e ≤ holdLimit df anchor →
        ∃ i, FirstAt (harnessSide S tp) df.rows (anchor + 2) i side ∧ i ≤ holdLimit df anchor := by
  obtain ⟨T, rest, hsim, hT⟩ := engine_filled ho hfill
  constructor
  · intro h e side he hlimit
    rcases hT with ⟨e', q, side', T₀, he', hq, rfl⟩ | ⟨hnone, -⟩
    · obtain ⟨rfl, rfl⟩ := he.unique he'
      have hmatch := h _ _ hsim ⟨engineSide_ne he, e, congrArg some hq, hlimit⟩
      rcases exitFrom_cases hlad hlen with ⟨i, side', hi, hlim, hexit⟩ | ⟨-, hexit⟩
      · have hside : side' = side :=
          side_of_matches (engineSide_ne he) (harnessSide_ne hi) (ht.trans hexit) hmatch
        exact ⟨i, hside ▸ hi, hlim⟩
      · have hreason : t.exitReason = .endOfData := (congrArg Exit.reason ht).trans hexit
        exact absurd hmatch (not_matches_leave (engineSide_ne he) hreason)
    · exact absurd he (hnone e side)
  · intro h T' rest' hsim' hclosed
    rw [hsim, Except.ok.injEq, List.cons.injEq] at hsim'
    obtain ⟨rfl, -⟩ := hsim'
    rcases hT with ⟨e, q, side, T₀, he, hq, rfl⟩ | ⟨-, hscratch⟩
    · obtain ⟨e', htime, hlimit⟩ := hclosed.time
      have hee : e = e' := by
        have : some q.index = some (e' : ℤ) := htime
        rw [hq] at this
        exact_mod_cast Option.some.inj this
      obtain ⟨i, hi, hlim⟩ := h e side he (hee ▸ hlimit)
      exact matches_leave ho (engineSide_ne he) (ht.trans (exitFrom_of_first hlad hlen hi hlim)) T₀
    · exact absurd hscratch hclosed.closed

/-- A trade the harness counts was filled behind its anchor and ends like the engine's trade from
the fill bar on exactly when its bars fill and leave it alike. -/
theorem faithfulFill_iff (h : runSymbolGroup N w symbol df daily group fresh = .ok trades)
    (ht : t ∈ trades) :
    ∃ anchor c S tp, (anchor, c) ∈ fresh ∧
      runPattern N w symbol df daily group anchor c = .ok (some t) ∧
      signalAt N w df anchor c = some S ∧ firstTarget S = some tp ∧
      (FaithfulFill df anchor S tp t ↔ FillsAlike df anchor S tp) := by
  obtain ⟨anchor, c, hmem, hrun⟩ := mem_runSymbolGroup h ht
  obtain ⟨S, hS, hlen, hexit, -⟩ := runPattern_trade hrun
  obtain ⟨tp, tp', hlad⟩ := signalAt_laddered hS
  refine ⟨anchor, c, S, tp, hmem, hrun, hS, hlad.first, ?_⟩
  by_cases ho : (setupOf S tp).Ordered
  · have hfrom : t.exit = exitFrom df (anchor + 1) S 100 :=
      hexit.trans (simulateTrade_exit ho.risk_pos)
    constructor
    · rintro ⟨hfilled, hx⟩
      exact ⟨hfilled, fun _ j e side hj he hl => (exit_iff hlad ho hlen hfrom hj).mp (hx j hj) e side he hl⟩
    · rintro ⟨hfilled, hx⟩
      exact ⟨hfilled, fun j hj => (exit_iff hlad ho hlen hfrom hj).mpr fun e side => hx ho j e side hj⟩
  · constructor
    · rintro ⟨hfilled, -⟩
      exact ⟨hfilled, fun hord => absurd hord ho⟩
    · rintro ⟨hfilled, -⟩
      exact ⟨hfilled, fun _ _ _ _ hsim => absurd hsim (simulateTrades_unordered ho)⟩

/-- The control group counts every signal with a priced bar behind its anchor. -/
theorem runSymbolGroup_control (hS : signalAt N w df anchor c = some S)
    (hentry : df.rows[anchor + 1]? = some r) (hprice : 0 < r.close) :
    ∃ t, runSymbolGroup N w symbol df daily .control [(anchor, c)] = .ok [t] ∧
      t.exit = (simulateTrade symbol df (anchor + 1) S).exit := by
  have hlen : 0 < df.length := by
    have := (List.getElem?_eq_some_iff.mp hentry).1
    unfold Frame.length
    omega
  obtain ⟨v, hv, -⟩ := evaluate_ok hS hlen hprice
  obtain ⟨o, ho⟩ := compute_ok (N := N) (w := w) (c := c) (dailyUntil daily r.dts)
  unfold runSymbolGroup runPattern
  simp only [hS, hentry, hv, ok_bind, ho]
  exact ⟨_, rfl, rfl⟩

/-! Bars behind the Gartley of the alternating market: it enters at 100 and stops at 95.1. -/

/-- A bar behind the anchor. -/
def laterBar (k : ℕ) (low high close : ℚ) : Row :=
  { marketBar k with openPrice := close, low := low, high := high, close := close }

/-- The market that goes on with these bars. -/
def marketThen (rows : List Row) : Frame :=
  marketFrame ((List.range 201).map marketBar ++ rows)

/-- Two bars on the way to the first target, the entry left behind. -/
def gapped : Frame := marketThen [laterBar 201 101 103 102, laterBar 202 103 105 104]

/-- The bar behind the anchor fills, the next one reaches the first target. -/
def filled : Frame := marketThen [laterBar 201 99 101 100, laterBar 202 100 105 104]

theorem marketThen_signal (hrows : rows ≠ []) : ∃ S,
    signalAt dailyNumerics defaultProcess (marketThen rows) 200 freshGartley = some S ∧
      S.direction = .long ∧ S.entryReference = 100 ∧ S.stopLoss = 951 / 10 ∧
      firstTarget S = some (52101 / 500) := by
  have hlen : 0 < rows.length := List.length_pos_of_ne_nil hrows
  have hagree : AgreeUpTo 200 (marketThen rows) (marketUntil 101) :=
    { columns := rfl
      rows := by simp [marketThen, marketUntil, marketFrame]
      longer := by simpa [marketThen, marketFrame, Frame.length] using hlen
      longer' := by simp [marketUntil, marketFrame, Frame.length] }
  have hlevels : (signalAt dailyNumerics defaultProcess (marketUntil 101) 200 freshGartley).map
      (fun S => (S.direction, S.entryReference, S.stopLoss, firstTarget S)) =
        some (.long, 100, 951 / 10, some (52101 / 500)) := by decide +kernel
  obtain ⟨S, hS, h⟩ := Option.map_eq_some_iff.mp hlevels
  simp only [Prod.mk.injEq] at h
  exact ⟨S, (signalAt_congr hagree).trans hS, h⟩

/-- A bar that reaches the first target and not the stop. -/
theorem harnessSide_win (hdir : S.direction = .long) (hstop : S.stopLoss < r.low)
    (htp : tp ≤ r.high) : harnessSide S tp r = some .win := by
  have hl : isLong S = true := by simp [isLong, hdir]
  simp only [harnessSide, hl, if_true]
  rw [if_neg (not_le.mpr hstop), if_pos htp]

/-- A trade is counted, and won, that no bar behind the anchor could have opened. -/
theorem gapped_counted : ∃ S t,
    signalAt dailyNumerics defaultProcess gapped 200 freshGartley = some S ∧
    runSymbolGroup dailyNumerics defaultProcess "BTCUSD" gapped (toDailyClose gapped.rows) .control
      [(200, freshGartley)] = .ok [t] ∧
    t.exitReason = .tp1 ∧ ∀ r ∈ gapped.rows.drop 201, ¬ Covers r S.entryReference := by
  obtain ⟨S, hS, hdir, hentry, hstop, htp⟩ :
      ∃ S, signalAt dailyNumerics defaultProcess gapped 200 freshGartley = some S ∧ _ :=
    marketThen_signal (by simp)
  have hbar : gapped.rows[200 + 1]? = some (laterBar 201 101 103 102) := rfl
  obtain ⟨t, ht, hexit⟩ : ∃ t, runSymbolGroup dailyNumerics defaultProcess "BTCUSD" gapped
      (toDailyClose gapped.rows) .control [(200, freshGartley)] = .ok [t] ∧ _ :=
    runSymbolGroup_control hS hbar (by decide)
  refine ⟨S, t, hS, ht, ?_, ?_⟩
  · obtain ⟨tp, tp', hlad⟩ := signalAt_laddered hS
    obtain rfl : tp = 52101 / 500 := Option.some.inj (hlad.first.symm.trans htp)
    have hwin : harnessSide S (52101 / 500) (laterBar 202 103 105 104) = some .win :=
      harnessSide_win hdir (by rw [hstop]; decide +kernel) (by decide +kernel)
    have hfirst : FirstAt (harnessSide S (52101 / 500)) gapped.rows 202 202 .win :=
      ⟨le_rfl, hwin, fun k h h' => by omega⟩
    have hrisk : 0 < |S.entryReference - S.stopLoss| := by
      rw [hentry, hstop]
      norm_num
    have hfrom := hexit.trans (simulateTrade_exit hrisk)
    rw [exitFrom_of_first hlad (by decide +kernel) hfirst (by decide +kernel)] at hfrom
    exact congrArg Exit.reason hfrom
  · rw [hentry]
    decide +kernel

/-- Where the entry is filled at once the counted trade is the engine's. -/
theorem filled_faithful : ∃ S tp t,
    signalAt dailyNumerics defaultProcess filled 200 freshGartley = some S ∧
    runSymbolGroup dailyNumerics defaultProcess "BTCUSD" filled (toDailyClose filled.rows) .control
      [(200, freshGartley)] = .ok [t] ∧ FaithfulFill filled 200 S tp t := by
  obtain ⟨S, hS, hdir, hentry, hstop, htp⟩ :
      ∃ S, signalAt dailyNumerics defaultProcess filled 200 freshGartley = some S ∧ _ :=
    marketThen_signal (by simp)
  have hbar : filled.rows[200 + 1]? = some (laterBar 201 99 101 100) := rfl
  obtain ⟨t, ht, -⟩ : ∃ t, runSymbolGroup dailyNumerics defaultProcess "BTCUSD" filled
      (toDailyClose filled.rows) .control [(200, freshGartley)] = .ok [t] ∧ _ :=
    runSymbolGroup_control hS hbar (by decide)
  obtain ⟨anchor, c, S', tp, hmem, -, hS', htp', hiff⟩ := faithfulFill_iff ht (List.mem_singleton_self t)
  obtain ⟨rfl, rfl⟩ := Prod.mk.inj (List.mem_singleton.mp hmem)
  obtain rfl : S' = S := Option.some.inj (hS'.symm.trans hS)
  obtain rfl : tp = 52101 / 500 := Option.some.inj (htp'.symm.trans htp)
  have hfill : FirstFill filled 200 S' 201 := by
    refine ⟨le_rfl, ?_, fun k h h' => by omega⟩
    change fillAt S'.entryReference (laterBar 201 99 101 100) = some ()
    rw [hentry]
    decide +kernel
  refine ⟨S', _, t, hS, ht, hiff.mpr ⟨⟨201, hfill⟩, ?_⟩⟩
  intro _ j e side hj he hlimit
  obtain ⟨rfl, -⟩ := hfill.unique hj
  have hsetup : setupOf S' (52101 / 500) = ⟨.long, 100, 951 / 10, 52101 / 500⟩ := by
    rw [setupOf, hdir, hentry, hstop]
  have hengine : FirstAt (engineSide (setupOf S' (52101 / 500))) filled.rows 201 202 .win := by
    rw [hsetup]
    refine ⟨by omega, by decide +kernel, ?_⟩
    intro k h h'
    obtain rfl : k = 201 := by omega
    decide +kernel
  obtain ⟨-, rfl⟩ := hengine.unique he
  have hwin : harnessSide S' (52101 / 500) (laterBar 202 100 105 104) = some .win :=
    harnessSide_win hdir (by rw [hstop]; decide +kernel) (by decide +kernel)
  exact ⟨202, ⟨le_rfl, hwin, fun k h h' => by omega⟩, by decide +kernel⟩

end Pyharmonics.Harness
