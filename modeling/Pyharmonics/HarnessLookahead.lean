import Pyharmonics.BacktestHarness
import Pyharmonics.Grading

/-! What a trade decision of the harness reads behind the anchor of its pattern. -/
namespace Pyharmonics.Harness

variable {N : Numerics} {w : Process} {symbol : String} {df df' : Frame} {daily : List (ℤ × ℚ)}
  {group : Group} {anchor : ℕ} {c : Candidate} {S : Signal} {entry entry' : Row} {price : ℚ}

/-- Two frames with the same bars up to an anchor, and more behind it. -/
structure AgreeUpTo (anchor : ℕ) (df df' : Frame) : Prop where
  columns : df.columns = df'.columns
  rows : df.rows.take (anchor + 1) = df'.rows.take (anchor + 1)
  longer : anchor + 1 < df.length
  longer' : anchor + 1 < df'.length

/-- What a trade says of its decision. -/
def Trade.decision (t : Trade) : Bool × ℚ × String :=
  (t.disciplinePassed, t.macroSizeMult, t.macroRegime)

/-- The decisions of a run on one pattern, with the daily series of the frame itself. -/
def decisions (N : Numerics) (w : Process) (symbol : String) (df : Frame) (group : Group)
    (anchor : ℕ) (c : Candidate) : Except PyError (List (Bool × ℚ × String)) :=
  (runSymbolGroup N w symbol df (toDailyClose df.rows) group [(anchor, c)]).map
    (List.map Trade.decision)

/-- A bar behind the C pivot, up to the end of the frame, meets the zone. -/
def touched (df : Frame) (c : Candidate) : Bool :=
  Discipline.przWasTouched
    (if Discipline.pivotIndex c + 1 < df.length then Discipline.rowsFrom df (Discipline.pivotIndex c + 1)
      else []) c.przLow c.przHigh c.bullish

/-- The close of the entry bar lies beyond the second target. -/
def crossed (N : Numerics) (w : Process) (entry : Row) (c : Candidate) : Bool :=
  (Discipline.pastTp2 N w entry.close c c.bullish).toOption.getD false

/-- The overlay of the daily closes up to the one behind the entry bar. -/
def overlay (N : Numerics) (w : Process) (df : Frame) (entry : Row) (c : Candidate) :
    Option Macro.MacroOverlay :=
  (Macro.compute N w (some (dailyUntil (toDailyClose df.rows) entry.dts)) (macroSide c)).toOption

/-- Whether a group takes a candidate. -/
def taken (group : Group) (c : Candidate) (past touched : Bool) : Bool :=
  match group with
  | .control => true
  | .strict | .experimental => if c.formed then !past else !touched && !past

/-- The bars behind the anchor lead to one decision: both entry closes can be judged or neither can;
the group takes the pattern in both frames or in neither; and where it takes it, the zone and TP2
checks, the regime and (for the experimental group) the size multiplier come out alike. -/
structure SameFuture (N : Numerics) (w : Process) (group : Group) (c : Candidate) (df df' : Frame)
    (entry entry' : Row) : Prop where
  priced : 0 < entry.close ↔ 0 < entry'.close
  taken : 0 < entry.close → taken group c (crossed N w entry c) (touched df c) =
    taken group c (crossed N w entry' c) (touched df' c)
  read : 0 < entry.close → Harness.taken group c (crossed N w entry c) (touched df c) = true →
    ((touched df c || crossed N w entry c) = (touched df' c || crossed N w entry' c)) ∧
      (overlay N w df entry c).map Macro.MacroOverlay.macroDir =
        (overlay N w df' entry' c).map Macro.MacroOverlay.macroDir ∧
      (group = .experimental → (overlay N w df entry c).map Macro.MacroOverlay.sizeMult =
        (overlay N w df' entry' c).map Macro.MacroOverlay.sizeMult)

theorem Frame.ext_of (hc : df.columns = df'.columns) (hr : df.rows = df'.rows) : df = df' := by
  cases df
  cases df'
  simp only at hc hr
  subst hc
  subst hr
  rfl

/-- The signal of a pattern reads nothing behind its anchor. -/
theorem signalAt_congr (h : AgreeUpTo anchor df df') :
    signalAt N w df anchor c = signalAt N w df' anchor c := by
  have hsub : ({ df with rows := df.rows.take (anchor + 1) } : Frame) =
      { df' with rows := df'.rows.take (anchor + 1) } := Frame.ext_of h.columns h.rows
  unfold signalAt
  rw [hsub]

theorem signalAt_published (h : signalAt N w df anchor c = some S) :
    ∃ ctx, Published N w ctx c "standard" S := by
  obtain ⟨ctx, d, -, hd, T, k, hT, rfl⟩ :=
    buildSignal_scored (toOption_eq_some.mp (Option.join_eq_some_iff.mp h))
  obtain rfl : d = c := List.mem_singleton.mp hd
  obtain ⟨hstops, htargets, hgeo, hdir⟩ := scoreCandidate_published hT
  exact ⟨ctx, hstops, htargets, hgeo, hdir⟩

/-- A candidate with a signal has a zone above zero. -/
theorem signalAt_zone (h : signalAt N w df anchor c = some S) : 0 < c.przLow ∧ 0 < c.przHigh := by
  obtain ⟨ctx, hp⟩ := signalAt_published h
  obtain ⟨a, r, hr, -⟩ := hp.stops
  exact (computeStop_inv hr).1

/-- A candidate with a signal has targets from any entry. -/
theorem signalAt_targets (h : signalAt N w df anchor c = some S) :
    Returns (computeTargets N w c price) := by
  obtain ⟨ctx, hp⟩ := signalAt_published h
  obtain ⟨a, ha, ht⟩ := bind_ok.mp hp.targets
  obtain ⟨p1, h1, ht⟩ := bind_ok.mp ht
  obtain ⟨p2, h2, ht⟩ := bind_ok.mp ht
  obtain ⟨p3, h3, -⟩ := bind_ok.mp ht
  unfold computeTargets
  rw [ha, ok_bind, h1, ok_bind, h2, ok_bind, h3, ok_bind]
  exact returns_pure

theorem pastTp2_ok (h : signalAt N w df anchor c = some S) :
    Discipline.pastTp2 N w entry.close c c.bullish = .ok (crossed N w entry c) := by
  obtain ⟨past, hpast⟩ : Returns (Discipline.pastTp2 N w entry.close c c.bullish) :=
    Discipline.pastTp2_returns (signalAt_targets h)
  rw [crossed, hpast]
  rfl

/-- The verdict on a candidate with a signal, at a price above zero. -/
theorem evaluate_ok (h : signalAt N w df anchor c = some S) (hlen : 0 < df.length)
    (hprice : 0 < entry.close) :
    ∃ v, Discipline.evaluate N w df c entry.close none none = .ok v ∧
      v.passed = (!touched df c && !crossed N w entry c) ∧
      v.metrics.pastTp2 = crossed N w entry c := by
  have httl : 0 ≤ w.getTuning.defaultTtlBars := Discipline.defaultTtl_nonneg
  unfold Discipline.evaluate
  simp only [require_bind_ok, pastTp2_ok h, ok_bind]
  exact ⟨_, ⟨httl, hprice, signalAt_zone h, hlen, rfl⟩, rfl, rfl⟩

theorem evaluate_unpriced (hprice : ¬ 0 < entry.close) :
    Discipline.evaluate N w df c entry.close none none =
      .error (.violation "current_price must be positive") := by
  have httl : 0 ≤ w.getTuning.defaultTtlBars := Discipline.defaultTtl_nonneg
  unfold Discipline.evaluate
  simp only [require, Option.getD_none, if_pos httl, if_neg hprice]
  rfl

theorem compute_ok (closes : List ℚ) :
    ∃ o, Macro.compute N w (some closes) (macroSide c) = .ok o := by
  have hside : macroSide c = -1 ∨ macroSide c = 0 ∨ macroSide c = 1 := by
    unfold macroSide
    split_ifs <;> simp
  have hok : Returns (Macro.compute N w (some closes) (macroSide c)) := by
    unfold Macro.compute
    simp only
    rw [returns_require, and_iff_right hside, returns_ite]
    intro _
    rw [returns_ite]
    exact fun _ => returns_pure
  exact hok

theorem overlay_ok : ∃ o, overlay N w df entry c = some o ∧
    Macro.compute N w (some (dailyUntil (toDailyClose df.rows) entry.dts)) (macroSide c) = .ok o := by
  obtain ⟨o, ho⟩ := compute_ok (N := N) (w := w) (c := c)
    (dailyUntil (toDailyClose df.rows) entry.dts)
  exact ⟨o, by rw [overlay, ho]; rfl, ho⟩

theorem accepts_eq {v : Discipline.DisciplineResult} {past touched : Bool}
    (hp : v.passed = (!touched && !past)) (hm : v.metrics.pastTp2 = past) :
    accepts group c v = taken group c past touched := by
  cases group <;> simp [accepts, taken, hp, hm]

/-- The decision on a pattern with a signal, from what is read behind its anchor. -/
def decisionOn (N : Numerics) (w : Process) (group : Group) (c : Candidate) (df : Frame)
    (entry : Row) : List (Bool × ℚ × String) :=
  if taken group c (crossed N w entry c) (touched df c) then
    (overlay N w df entry c).toList.map fun o =>
      (!(touched df c || crossed N w entry c), if group = .experimental then o.sizeMult else 1,
        o.macroDir)
  else []

theorem decisions_eq (h : signalAt N w df anchor c = some S)
    (hentry : df.rows[anchor + 1]? = some entry) (hprice : 0 < entry.close) :
    decisions N w symbol df group anchor c = .ok (decisionOn N w group c df entry) := by
  have hlen : 0 < df.length := by
    have := (List.getElem?_eq_some_iff.mp hentry).1
    unfold Frame.length
    omega
  obtain ⟨v, hv, hpassed, hpast⟩ := evaluate_ok h hlen hprice
  obtain ⟨o, ho, hcompute⟩ : ∃ o, overlay N w df entry c = some o ∧ _ := overlay_ok
  have hrun : runPattern N w symbol df (toDailyClose df.rows) group anchor c =
      if ¬ accepts group c v then .ok none
      else .ok (some { simulateTrade symbol df (anchor + 1) S with
        disciplinePassed := v.passed
        macroSizeMult := if group = .experimental then o.sizeMult else 1
        macroRegime := o.macroDir
        group := some group }) := by
    unfold runPattern
    simp only [h, hentry, hv, ok_bind, hcompute]
    rfl
  unfold decisions runSymbolGroup decisionOn
  rw [hrun, accepts_eq hpassed hpast, ho]
  by_cases ht : taken group c (crossed N w entry c) (touched df c) = true
  · rw [if_neg (not_not.mpr ht), if_pos ht, Bool.not_or, ← hpassed]
    rfl
  · rw [if_pos ht, if_neg ht]
    rfl

theorem decisions_unpriced (h : signalAt N w df anchor c = some S)
    (hentry : df.rows[anchor + 1]? = some entry) (hprice : ¬ 0 < entry.close) :
    decisions N w symbol df group anchor c =
      .error (.violation "current_price must be positive") := by
  unfold decisions runSymbolGroup runPattern
  simp only [h, hentry, evaluate_unpriced hprice]
  rfl

theorem decisions_none (h : signalAt N w df anchor c = none) :
    decisions N w symbol df group anchor c = .ok [] := by
  unfold decisions runSymbolGroup runPattern
  simp only [h]
  rfl

/-- Two decisions are one when both are to reject, or both to take with one label. -/
theorem decisionOn_congr : decisionOn N w group c df entry = decisionOn N w group c df' entry' ↔
    taken group c (crossed N w entry c) (touched df c) =
        taken group c (crossed N w entry' c) (touched df' c) ∧
      (taken group c (crossed N w entry c) (touched df c) = true →
        (touched df c || crossed N w entry c) = (touched df' c || crossed N w entry' c) ∧
          (overlay N w df entry c).map Macro.MacroOverlay.macroDir =
            (overlay N w df' entry' c).map Macro.MacroOverlay.macroDir ∧
          (group = .experimental → (overlay N w df entry c).map Macro.MacroOverlay.sizeMult =
            (overlay N w df' entry' c).map Macro.MacroOverlay.sizeMult)) := by
  obtain ⟨o, ho, -⟩ : ∃ o, overlay N w df entry c = some o ∧ _ := overlay_ok
  obtain ⟨o', ho', -⟩ : ∃ o, overlay N w df' entry' c = some o ∧ _ := overlay_ok
  unfold decisionOn
  rw [ho, ho']
  cases ht : taken group c (crossed N w entry c) (touched df c) <;>
    cases ht' : taken group c (crossed N w entry' c) (touched df' c)
  · simp
  · simp
  · simp
  · by_cases hg : group = .experimental
    · simp [hg, and_comm, -Bool.not_or]
    · simp [hg, -Bool.not_or]

/-- Numerics for frames whose higher timeframe is a day. -/
def dailyNumerics : Numerics := .decimal decimalSqrt fun rule values =>
  if rule = "1D" then (lastPerDay values).map Prod.snd else []

/-- Bars of the alternating market on a grid of four hours. -/
def marketBar (k : ℕ) : Row :=
  { alternatingBar (k + 1) with closeTime := k * 14400, dts := k * 14400, index := k }

def marketFrame (rows : List Row) : Frame :=
  ⟨["open", "high", "low", "close", "volume", "close_time", "dts"], rows, by decide⟩

/-- The bar behind the anchor, up to a close. -/
def risenBar (close : ℚ) : Row := { marketBar 201 with high := max (1028 / 10) close, close := close }

/-- Two hundred and one bars and the bar behind them. -/
def marketUntil (close : ℚ) : Frame :=
  marketFrame ((List.range 201).map marketBar ++ [risenBar close])

/-- The Gartley of the alternating market, complete at the anchor. -/
def freshGartley : Candidate :=
  { gartley with
    times := [150, 165, 180, 195, 200].map (· * 14400), indices := [150, 165, 180, 195, 200] }

theorem marketUntil_agree (a b : ℚ) : AgreeUpTo 200 (marketUntil a) (marketUntil b) where
  columns := rfl
  rows := by simp [marketUntil, marketFrame]
  longer := by simp [marketUntil, marketFrame, Frame.length]
  longer' := by simp [marketUntil, marketFrame, Frame.length]

theorem market_signal (close : ℚ) : ∃ S,
    signalAt dailyNumerics defaultProcess (marketUntil close) 200 freshGartley = some S := by
  apply Option.isSome_iff_exists.mp
  rw [signalAt_congr (marketUntil_agree close 101)]
  decide +kernel

theorem marketUntil_low : decisions dailyNumerics defaultProcess "BTCUSD" (marketUntil 101) .strict
    200 freshGartley = .ok [(false, 1, "数据不足")] := by
  obtain ⟨S, hS⟩ := market_signal 101
  rw [decisions_eq hS rfl (by decide +kernel)]
  decide +kernel

theorem marketUntil_high : decisions dailyNumerics defaultProcess "BTCUSD" (marketUntil 108) .strict
    200 freshGartley = .ok [] := by
  obtain ⟨S, hS⟩ := market_signal 108
  rw [decisions_eq hS rfl (by decide +kernel)]
  decide +kernel

end Pyharmonics.Harness
