import Pyharmonics.RsiBacktest

/-! The books of a position of the RSI backtest: what is open, what is realised, and the partial
exits. -/
namespace Pyharmonics.RsiTrend

open Backtest

variable {data bars : List Enriched} {s : StrategySignal} {m : ExitMode} {barTime : Row → String}
  {h h' q : Holding} {e : Exit} {bar : Enriched} {i : ℕ} {time : String} {t : StrategyTrade}
  {price : ℚ} {reason : ExitReason}

/-- The fractions closed by partial exits. -/
def closedFraction (partials : List PartialExit) : ℚ := (partials.map PartialExit.fraction).sum

/-- The multiples realised by partial exits. -/
def partialR (partials : List PartialExit) : ℚ := (partials.map PartialExit.rMultiple).sum

/-- The books of a position are the partial exits made so far, and some of it is open. -/
structure Booked (s : StrategySignal) (h : Holding) : Prop where
  realized : h.realizedR = partialR h.partials
  remaining : h.remaining = 1 - closedFraction h.partials
  opened : 0 < h.remaining
  fractions : ∀ x ∈ h.partials, 0 < x.fraction
  priced : ∀ x ∈ h.partials, x.rMultiple = x.fraction * s.r x.price
  reasons : (h.partials.map PartialExit.reason).Nodup
  target : .partialTarget ∈ h.partials.map PartialExit.reason → h.t1Done = true
  extreme : .rsiExtreme ∈ h.partials.map PartialExit.reason → h.rsiDone = true

/-- The multiple of a trade is that of its partial exits and of the rest at the exit price; every
fraction is positive, a rest is left, and there is one partial exit for a reason at most. Each
partial exit has the multiple of its fraction at its price. -/
structure Accounted (t : StrategyTrade) : Prop where
  r : t.rMultiple = partialR t.partials + (1 - closedFraction t.partials) *
    rMultiple t.direction t.entryPrice t.stopLoss t.exitPrice
  fractions : ∀ x ∈ t.partials, 0 < x.fraction
  rest : closedFraction t.partials < 1
  reasons : (t.partials.map PartialExit.reason).Nodup
  priced : ∀ x ∈ t.partials,
    x.rMultiple = x.fraction * rMultiple t.direction t.entryPrice t.stopLoss x.price

theorem closedFraction_append (l : List PartialExit) (x : PartialExit) :
    closedFraction (l ++ [x]) = closedFraction l + x.fraction := by
  simp [closedFraction]

theorem partialR_append (l : List PartialExit) (x : PartialExit) :
    partialR (l ++ [x]) = partialR l + x.rMultiple := by
  simp [partialR]

theorem booked_start (s : StrategySignal) : Booked s (.start s) where
  realized := rfl
  remaining := by simp [Holding.start, closedFraction]
  opened := one_pos
  fractions := by simp [Holding.start]
  priced := by simp [Holding.start]
  reasons := List.nodup_nil
  target := by simp [Holding.start]
  extreme := by simp [Holding.start]

/-- A partial exit for a new reason is booked; the flag of its reason has to be set with it. -/
theorem Booked.reduce (hb : Booked s h) (hreason : reason ∉ h.partials.map PartialExit.reason)
    (hq : { h.reduce s price reason time with
      stop := q.stop, t1Done := q.t1Done, rsiDone := q.rsiDone
      trailingActive := q.trailingActive } = q)
    (htarget : reason = .partialTarget ∨ h.t1Done = true → q.t1Done = true)
    (hextreme : reason = .rsiExtreme ∨ h.rsiDone = true → q.rsiDone = true) : Booked s q := by
  have hpartials : q.partials = h.partials ++ [⟨h.remaining * (1 / 2), price,
      h.remaining * (1 / 2) * s.r price, reason, time⟩] := by rw [← hq]; rfl
  have hrealized : q.realizedR = h.realizedR + h.remaining * (1 / 2) * s.r price := by
    rw [← hq]; rfl
  have hremaining : q.remaining = h.remaining - h.remaining * (1 / 2) := by rw [← hq]; rfl
  have hreasons : q.partials.map PartialExit.reason =
      h.partials.map PartialExit.reason ++ [reason] := by rw [hpartials, List.map_append]; rfl
  refine ⟨?_, ?_, ?_, ?_, ?_, ?_, ?_, ?_⟩
  · rw [hrealized, hpartials, partialR_append, hb.realized]
  · rw [hremaining, hpartials, closedFraction_append, hb.remaining]
    ring
  · rw [hremaining]
    linarith [hb.opened]
  · intro x hx
    rw [hpartials, List.mem_append, List.mem_singleton] at hx
    rcases hx with hx | rfl
    · exact hb.fractions x hx
    · exact mul_pos hb.opened one_half_pos
  · intro x hx
    rw [hpartials, List.mem_append, List.mem_singleton] at hx
    rcases hx with hx | rfl
    · exact hb.priced x hx
    · rfl
  · rw [hreasons, List.nodup_append]
    refine ⟨hb.reasons, List.nodup_singleton _, ?_⟩
    rintro x hx y hy rfl
    exact hreason (List.mem_singleton.mp hy ▸ hx)
  · intro hmem
    rw [hreasons, List.mem_append, List.mem_singleton] at hmem
    exact htarget (hmem.symm.imp Eq.symm hb.target)
  · intro hmem
    rw [hreasons, List.mem_append, List.mem_singleton] at hmem
    exact hextreme (hmem.symm.imp Eq.symm hb.extreme)

/-- The reductions of a bar are booked. -/
theorem Booked.advance (hb : Booked s h) : Booked s (h.advance s m bar time) := by
  refine advance_rule ?_ ?_ ?_ hb
  · intro _ ht1
    have hnew : .partialTarget ∉ h.partials.map PartialExit.reason := by
      intro hmem
      rw [hb.target hmem] at ht1
      cases ht1
    refine hb.reduce hnew rfl ?_ ?_
    · intro _
      rfl
    · rintro (hr | hr)
      · cases hr
      · exact hr
  · intro q hq ht1 hrsi
    have hnew : .rsiExtreme ∉ q.partials.map PartialExit.reason := by
      intro hmem
      rw [hq.extreme hmem] at hrsi
      cases hrsi
    refine hq.reduce hnew rfl ?_ ?_
    · intro _
      exact ht1
    · intro _
      rfl
  · intro q hq
    rw [trail_eq]
    exact ⟨hq.realized, hq.remaining, hq.opened, hq.fractions, hq.priced, hq.reasons,
      hq.target, hq.extreme⟩

/-- The rest of a booked position was closed at the exit price. -/
def LeftFrom (s : StrategySignal) (h : Holding) (e : Exit) : Prop :=
  ∃ q, Booked s q ∧ h = q.close s e.price

theorem holdFrom_booked : (holdFrom barTime s m bars = (h', none) → Booked s h') ∧
    ∀ e, holdFrom barTime s m bars = (h', some e) → LeftFrom s h' e := by
  have hstart := booked_start s
  unfold holdFrom
  split
  · refine ⟨fun hr => ?_, fun e hr => ?_⟩
    · obtain ⟨rfl, -⟩ := Prod.mk.inj hr
      exact hstart
    · cases (Prod.mk.inj hr).2
  · split_ifs
    · refine ⟨fun hr => ?_, fun e hr => ?_⟩
      · cases (Prod.mk.inj hr).2
      · obtain ⟨rfl, he⟩ := Prod.mk.inj hr
        obtain rfl := Option.some.inj he
        exact ⟨_, hstart, rfl⟩
    · refine holdBars_rule (P := fun _ => Booked s) (Q := LeftFrom s) [] ?_ ?_ hstart
      · intro _ bar q q' i _ hq hn
        rw [(next_none hn).2]
        exact hq.advance
      · intro _ bar q q' i e _ hq hn
        obtain ⟨-, ⟨-, rfl⟩ | ⟨-, -, -, rfl⟩ | ⟨-, -, rfl⟩⟩ := next_some hn
        · exact ⟨q, hq, rfl⟩
        · exact ⟨q, hq, rfl⟩
        · exact ⟨_, hq.advance, rfl⟩

/-- The trade of a booked position that was closed at the exit price is accounted. -/
theorem Booked.accounted (hb : Booked s q) (e : Exit) :
    Accounted (tradeOf s (q.close s e.price) e) where
  r := by
    have hr : (tradeOf s (q.close s e.price) e).rMultiple =
      q.realizedR + q.remaining * s.r e.price := rfl
    rw [hr, hb.realized, hb.remaining]
    rfl
  fractions := hb.fractions
  rest := by
    have hopened := hb.opened
    rw [hb.remaining] at hopened
    exact sub_pos.mp hopened
  reasons := hb.reasons
  priced := hb.priced

/-- Every trade of the backtest is accounted, in every mode. -/
theorem simulateOne_accounted (ht : simulateOne data s m barTime = .ok t) : Accounted t := by
  rcases simulateOne_cases ht with ⟨h, e, hrun, rfl⟩ | ⟨h, last, hrun, -, rfl⟩
  · obtain ⟨q, hq, rfl⟩ := holdFrom_booked.2 e hrun
    exact hq.accounted e
  · exact (holdFrom_booked.1 hrun).accounted ⟨last.row.close, _, _, _⟩

/-- A bar with its indicators, at EMA200 100. -/
def ladderBar (low high close : ℚ) (rsi : ℚ) : Enriched :=
  ⟨{ openPrice := close, high := high, low := low, close := close, volume := 1, closeTime := 0
     dts := 0, index := 0 }, 100, 100, some rsi, some 1⟩

/-- A long from 100 that reaches its target at 104 with an RSI of 75 and falls back. -/
def ladderSignal : StrategySignal :=
  { direction := .long, entryPrice := 100, stopLoss := 98, targetPrice := 104, atr := 1, rsi := 50
    time := "", index := 0 }

def ladderBars : List Enriched :=
  [ladderBar 99 101 100 50, ladderBar 100 105 104 75, ladderBar 102 104 103 60]

def ladderTrade : StrategyTrade :=
  { direction := .long, entryPrice := 100, entryTime := "", stopLoss := 98, targetPrice := 104
    exitPrice := 103, exitTime := "", exitReason := .stopLoss, rMultiple := 15 / 8, barsHeld := 2
    partials := [⟨1 / 2, 104, 1, .partialTarget, ""⟩, ⟨1 / 4, 104, 1 / 2, .rsiExtreme, ""⟩] }

theorem ladder_simulated : simulateOne ladderBars ladderSignal ⟨true, true⟩ (fun _ => "") =
    .ok ladderTrade := by
  apply toOption_eq_some.mp
  decide +kernel

theorem ladder_accounted : Accounted ladderTrade := simulateOne_accounted ladder_simulated

end Pyharmonics.RsiTrend
