import Mathlib
import Pyharmonics.MarketPages

/-! The klines fetched by the backtest scripts beside those of the production fetcher. -/
namespace Pyharmonics.MarketData

open Tails

/-- A row of a page, up to the columns that no frame keeps. -/
structure Kline where
  openTime : ℤ
  openPrice : String
  high : String
  low : String
  close : String
  volume : String
  closeTime : ℤ
  deriving DecidableEq

/-- What both frames hold of a row besides its label. -/
structure Ohlcv where
  openPrice : ℚ
  high : ℚ
  low : ℚ
  close : ℚ
  volume : ℚ
  closeTime : ℤ
  deriving DecidableEq

/-- A row of a frame; `dts` is an instant in milliseconds. -/
structure FrameRow where
  values : Ohlcv
  dts : ℤ
  deriving DecidableEq

/-- The columns as both frames convert them. -/
def Kline.values (float : String → ℚ) (row : Kline) : Ohlcv :=
  ⟨float row.openPrice, float row.high, float row.low, float row.close, float row.volume,
    row.closeTime / 1000⟩

/-- `_to_dataframe` on one row: the label is the close time in whole seconds. -/
def Kline.toDataframe (float : String → ℚ) (row : Kline) : FrameRow :=
  ⟨row.values float, row.closeTime / 1000 * 1000⟩

/-- A row of the frame of `fetch_binance_klines`: the label is the open time. -/
def Kline.toScript (float : String → ℚ) (row : Kline) : FrameRow :=
  ⟨row.values float, row.openTime⟩

section

variable (float : String → ℚ) (exchange : Exchange Kline) (symbol interval : String)
  (startMs endMs : ℤ)

/-- The frame `_fetch_binance_range` returns. -/
def fetchBinanceRangeFrame : Option (Except PyError (List FrameRow)) :=
  (fetchBinanceRange Kline.openTime exchange symbol interval startMs endMs).map fun result =>
    result.map (List.map (Kline.toDataframe float))

/-- `_INTERVAL_MS` of the scripts. -/
def scriptIntervalMs : List (String × ℤ) :=
  [("1m", 60000), ("5m", 300000), ("15m", 900000), ("1h", 3600000), ("4h", 14400000),
    ("1d", 86400000), ("1w", 604800000)]

/-- One pass of the loop of `fetch_binance_klines`. -/
def scriptPage (rows : List Kline) (cursor : ℤ) : Except PyError (Page Kline) := do
  let batch ← exchange ⟨symbol.toUpper, interval, 1000, some cursor⟩
  match batch with
  | [] => return .last rows
  | first :: _ =>
    let rows := batch ++ rows
    if first.openTime ≤ startMs then return .last rows
    if batch.length < 1000 then return .last rows
    return .more rows (first.openTime - 1)

/-- The loop of `fetch_binance_klines` for at most `fuel` passes; `none` if it is not through. -/
def scriptLoop : ℕ → List Kline → ℤ → Option (Except PyError (List Kline))
  | fuel, rows, cursor =>
    if cursor ≤ startMs then some (.ok rows)
    else
      match fuel with
      | 0 => none
      | fuel + 1 =>
        match scriptPage exchange symbol interval startMs rows cursor with
        | .error _ => some (.error (.other "Binance stdlib fetch failed"))
        | .ok (.last rows) => some (.ok rows)
        | .ok (.more rows cursor) => scriptLoop fuel rows cursor

/-- The frame of the rows that were fetched, restricted to the requested window. -/
def scriptFrame (rows : List Kline) : Except PyError (List FrameRow) :=
  if rows = [] then .error (.other ("No Binance data for " ++ symbol ++ " " ++ interval))
  else .ok ((rows.filter fun row => startMs ≤ row.openTime).map (Kline.toScript float))

/-- `fetch_binance_klines` -/
def fetchBinanceKlines : Option (Except PyError (List FrameRow)) :=
  if interval ∉ scriptIntervalMs.map Prod.fst then
    some (.error (.valueError ("Unsupported interval: " ++ interval) []))
  else if endMs ≤ startMs then some (.error (.valueError "end must be after start" []))
  else (scriptLoop exchange symbol interval startMs (endMs - startMs).toNat [] endMs).map
    fun result => result.bind (scriptFrame float symbol interval startMs)

/-- Both fetchers return a frame, with the same rows and the same label on each. -/
def SameFrames : Prop :=
  ∃ f g, fetchBinanceRangeFrame float exchange symbol interval startMs endMs = some (.ok f) ∧
    fetchBinanceKlines float exchange symbol interval startMs endMs = some (.ok g) ∧
    f.map FrameRow.values = g.map FrameRow.values ∧ f.map FrameRow.dts = g.map FrameRow.dts

end

variable {float : String → ℚ} {exchange : Exchange Kline} {symbol interval : String}
  {ms startMs endMs cursor : ℤ} {rows history : List Kline} {fuel : ℕ}

theorem toUpper_toUpper (s : String) : s.toUpper.toUpper = s.toUpper := by
  have hchar : Char.toUpper ∘ Char.toUpper = Char.toUpper := by
    funext c
    exact Char.toUpper_toUpper_eq_toUpper c
  unfold String.toUpper
  rw [String.map_map, hchar]

/-- From the start bound on: the window in front of the rows, and what is kept of these. -/
theorem filter_window {start stop : ℤ} (l : List Kline) :
    (inRange Kline.openTime none (some stop) history ++ l).filter (fun row => start ≤ row.openTime) =
      inRange Kline.openTime (some start) (some stop) history ++
        l.filter fun row => start ≤ row.openTime := by
  rw [List.filter_append, inRange, inRange, List.filter_filter]
  simp

/-- Candles a step apart in order are a step apart. -/
theorem apart (hms : 0 < ms) (hspaced : history.Pairwise fun a b => a.openTime + ms ≤ b.openTime) :
    ∀ a ∈ history, ∀ b ∈ history, a.openTime < b.openTime → a.openTime + ms ≤ b.openTime := by
  have hfwd : history.Pairwise fun a b =>
      a.openTime < b.openTime → a.openTime + ms ≤ b.openTime := by
    exact hspaced.imp fun {a b} h (_ : a.openTime < b.openTime) => h
  have hbwd : history.Pairwise fun a b =>
      b.openTime < a.openTime → b.openTime + ms ≤ a.openTime := by
    refine hspaced.imp fun {a b} h (hlt : b.openTime < a.openTime) => ?_
    exact absurd hlt (not_lt.mpr (by linarith only [h, hms]))
  have hall := List.Pairwise.forall_of_forall_of_flip
    (fun a _ h => absurd h (lt_irrefl a.openTime)) hfwd hbwd
  exact fun a ha b hb => hall ha hb

/-- The loop of the scripts fetches what is left of the window; what it fetches in front of the
window is dropped. -/
theorem scriptLoop_eq (hms : 1 < ms)
    (hspaced : history.Pairwise fun a b => a.openTime + ms ≤ b.openTime)
    (hx : Serves Kline.openTime exchange ⟨symbol.toUpper, interval, 0, none, none⟩ history)
    (hfuel : (cursor - startMs).toNat ≤ fuel)
    (hover : cursor ≤ startMs →
      inRange Kline.openTime (some startMs) (some cursor) history = []) :
    ∃ rows', scriptLoop exchange symbol interval startMs fuel rows cursor = some (.ok rows') ∧
      rows'.filter (fun row => startMs ≤ row.openTime) =
        inRange Kline.openTime (some startMs) (some cursor) history ++
          rows.filter fun row => startMs ≤ row.openTime := by
  have hs : history.Pairwise fun a b => a.openTime < b.openTime := hspaced.imp fun h => by omega
  induction fuel generalizing rows cursor with
  | zero =>
    have hle : cursor ≤ startMs := by omega
    unfold scriptLoop
    exact ⟨rows, if_pos hle, by rw [hover hle, List.nil_append]⟩
  | succ fuel ih =>
    unfold scriptLoop
    by_cases hle : cursor ≤ startMs
    · exact ⟨rows, if_pos hle, by rw [hover hle, List.nil_append]⟩
    rw [if_neg hle]
    have hbatch : exchange ⟨symbol.toUpper, interval, 1000, some cursor⟩ =
        .ok ((inRange Kline.openTime none (some cursor) history).rtake 1000) := hx 1000 (some cursor)
    have hwhole := rdrop_append_rtake (inRange Kline.openTime none (some cursor) history) 1000
    unfold scriptPage
    simp only [hbatch, ok_bind]
    cases hpage : (inRange Kline.openTime none (some cursor) history).rtake 1000 with
    | nil =>
      rw [rtake_eq_nil_iff (by decide)] at hpage
      refine ⟨rows, rfl, ?_⟩
      rw [← filter_window, hpage, List.nil_append]
    | cons first rest =>
      have hbefore := inRange_before hs hpage
      rw [hpage, ← hbefore] at hwhole
      -- the rows of the page and those behind it, and the window in front of the page
      have hsplit : inRange Kline.openTime (some startMs) (some (first.openTime - 1)) history ++
          (first :: rest ++ rows).filter (fun row => decide (startMs ≤ row.openTime)) =
          inRange Kline.openTime (some startMs) (some cursor) history ++
            rows.filter fun row => decide (startMs ≤ row.openTime) := by
        rw [← filter_window, ← filter_window, ← hwhole, List.append_assoc]
      simp only
      by_cases hfirst : first.openTime ≤ startMs
      · rw [if_pos hfirst]
        refine ⟨_, rfl, ?_⟩
        rw [← hsplit, inRange_of_lt (by omega), List.nil_append]
      · rw [if_neg hfirst]
        by_cases hshort : (first :: rest).length < 1000
        · rw [if_pos hshort]
          refine ⟨_, rfl, ?_⟩
          have hlen := length_rtake (inRange Kline.openTime none (some cursor) history) 1000
          rw [hpage] at hlen
          have hnone : inRange Kline.openTime none (some (first.openTime - 1)) history = [] := by
            rw [hbefore, List.rdrop, Nat.sub_eq_zero_of_le (by omega), List.take_zero]
          have hrest := @filter_window history startMs (first.openTime - 1) []
          rw [hnone, List.append_nil, List.filter_nil, List.append_nil] at hrest
          rw [← hsplit, ← hrest, List.nil_append]
        · rw [if_neg hshort]
          have hmem : first ∈ inRange Kline.openTime none (some cursor) history :=
            List.mem_of_mem_drop (hpage ▸ List.mem_cons_self)
          have hle' : first.openTime ≤ cursor := by
            simpa using (List.mem_filter.mp hmem).2
          obtain ⟨rows', hrun, hrows⟩ := @ih (first.openTime - 1) (first :: rest ++ rows) (by omega) (by
            intro hover'
            -- a candle at the start bound would be too close to the first one of the page
            refine List.filter_eq_nil_iff.mpr fun c hc => ?_
            simp only [Option.all_some, Bool.and_eq_true, decide_eq_true_eq]
            rintro ⟨hlow, hhigh⟩
            have := apart (by omega) hspaced c hc first (List.mem_of_mem_filter hmem) (by omega)
            omega)
          exact ⟨rows', hrun, hrows.trans hsplit⟩

/-- The frame of the scripts holds the window, unless nothing was fetched. -/
theorem fetchBinanceKlines_eq (hinterval : interval ∈ scriptIntervalMs.map Prod.fst) (hms : 1 < ms)
    (hspaced : history.Pairwise fun a b => a.openTime + ms ≤ b.openTime)
    (hx : Serves Kline.openTime exchange ⟨symbol.toUpper, interval, 0, none, none⟩ history)
    (hlt : startMs < endMs)
    (hsome : inRange Kline.openTime (some startMs) (some endMs) history ≠ []) :
    fetchBinanceKlines float exchange symbol interval startMs endMs =
      some (.ok ((inRange Kline.openTime (some startMs) (some endMs) history).map
        (Kline.toScript float))) := by
  obtain ⟨rows, hrun, hrows⟩ := @scriptLoop_eq exchange symbol interval ms startMs endMs [] history _ hms hspaced hx le_rfl
    fun hle => absurd hlt (not_lt.mpr hle)
  rw [List.filter_nil, List.append_nil] at hrows
  have hnil : rows ≠ [] := by
    rintro rfl
    exact hsome hrows.symm
  unfold fetchBinanceKlines
  rw [if_neg (not_not.mpr hinterval), if_neg (not_le.mpr hlt), hrun, Option.map_some]
  refine congrArg some ?_
  change scriptFrame float symbol interval startMs rows = _
  rw [scriptFrame, if_neg hnil, hrows]

theorem scriptIntervalMs_of_lookup (h : intervalMs.lookup interval = some ms) :
    interval ∈ scriptIntervalMs.map Prod.fst ∧ 1000 < ms := by
  obtain ⟨before, after, hsplit, -⟩ := List.lookup_eq_some_iff.mp h
  have htable : ∀ e ∈ intervalMs, e.1 ∈ scriptIntervalMs.map Prod.fst ∧ 1000 < e.2 := by decide
  exact htable (interval, ms) (by simp [hsplit])

/-- The production frame holds the window. -/
theorem fetchBinanceRangeFrame_eq (hms : intervalMs.lookup interval = some ms)
    (hspaced : history.Pairwise fun a b => a.openTime + ms ≤ b.openTime)
    (hx : Serves Kline.openTime exchange ⟨symbol.toUpper, interval, 0, none, none⟩ history)
    (hcap : (inRange Kline.openTime (some startMs) (some endMs) history).length ≤ 50000)
    (hsome : inRange Kline.openTime (some startMs) (some endMs) history ≠ []) :
    fetchBinanceRangeFrame float exchange symbol interval startMs endMs =
      some (.ok ((inRange Kline.openTime (some startMs) (some endMs) history).map
        (Kline.toDataframe float))) := by
  rw [← toUpper_toUpper] at hx
  rw [fetchBinanceRangeFrame, fetchBinanceRange_whole hms hspaced hx hsome hcap]
  rfl

/-- Frames are returned by both fetchers only for a window with candles. -/
theorem SameFrames.window (hms : intervalMs.lookup interval = some ms)
    (hs : history.Pairwise fun a b => a.openTime < b.openTime)
    (hx : Serves Kline.openTime exchange ⟨symbol.toUpper, interval, 0, none, none⟩ history)
    (h : SameFrames float exchange symbol interval startMs endMs) :
    startMs < endMs ∧ inRange Kline.openTime (some startMs) (some endMs) history ≠ [] := by
  obtain ⟨f, g, hf, hg, -⟩ := h
  constructor
  · by_contra hle
    unfold fetchBinanceKlines at hg
    rw [if_pos (not_lt.mp hle)] at hg
    split_ifs at hg <;> cases hg
  · intro hnone
    rw [← toUpper_toUpper] at hx
    rw [fetchBinanceRangeFrame, fetchBinanceRange_empty hms hs hx hnone] at hf
    cases hf

/-- On a window with candles both fetchers return it whole, one labelled by the close times and the
other by the open times. The labels agree nowhere else than where a close time in whole seconds is
the open time of its candle, and so never on candles that close before the next one opens. -/
theorem sameFrames_iff (hms : intervalMs.lookup interval = some ms)
    (hspaced : history.Pairwise fun a b => a.openTime + ms ≤ b.openTime)
    (hx : Serves Kline.openTime exchange ⟨symbol.toUpper, interval, 0, none, none⟩ history)
    (hcap : (inRange Kline.openTime (some startMs) (some endMs) history).length ≤ 50000) :
    (startMs < endMs → inRange Kline.openTime (some startMs) (some endMs) history ≠ [] →
      ∃ f g, fetchBinanceRangeFrame float exchange symbol interval startMs endMs = some (.ok f) ∧
        fetchBinanceKlines float exchange symbol interval startMs endMs = some (.ok g) ∧
        f.map FrameRow.values = g.map FrameRow.values) ∧
    (SameFrames float exchange symbol interval startMs endMs ↔
      startMs < endMs ∧ inRange Kline.openTime (some startMs) (some endMs) history ≠ [] ∧
        ∀ c ∈ inRange Kline.openTime (some startMs) (some endMs) history,
          c.closeTime / 1000 * 1000 = c.openTime) ∧
    ((∀ c ∈ history, c.closeTime = c.openTime + ms - 1) →
      ¬ SameFrames float exchange symbol interval startMs endMs) := by
  obtain ⟨hinterval, hlong⟩ := scriptIntervalMs_of_lookup hms
  have hstep : 1 < ms := by omega
  have hs : history.Pairwise fun a b => a.openTime < b.openTime := hspaced.imp fun h => by omega
  have hiff : SameFrames float exchange symbol interval startMs endMs ↔
      startMs < endMs ∧ inRange Kline.openTime (some startMs) (some endMs) history ≠ [] ∧
        ∀ c ∈ inRange Kline.openTime (some startMs) (some endMs) history,
          c.closeTime / 1000 * 1000 = c.openTime := by
    constructor
    · intro h
      obtain ⟨hlt, hsome⟩ := h.window hms hs hx
      obtain ⟨f, g, hf, hg, -, hdts⟩ := h
      rw [fetchBinanceRangeFrame_eq hms hspaced hx hcap hsome] at hf
      rw [fetchBinanceKlines_eq hinterval hstep hspaced hx hlt hsome] at hg
      obtain rfl := Except.ok.inj (Option.some.inj hf)
      obtain rfl := Except.ok.inj (Option.some.inj hg)
      rw [List.map_map, List.map_map, List.map_inj_left] at hdts
      exact ⟨hlt, hsome, hdts⟩
    · rintro ⟨hlt, hsome, hdts⟩
      refine ⟨_, _, fetchBinanceRangeFrame_eq hms hspaced hx hcap hsome,
        fetchBinanceKlines_eq hinterval hstep hspaced hx hlt hsome, ?_, ?_⟩
      · rw [List.map_map, List.map_map]
        rfl
      · rw [List.map_map, List.map_map, List.map_inj_left]
        exact hdts
  refine ⟨?_, hiff, ?_⟩
  · intro hlt hsome
    refine ⟨_, _, fetchBinanceRangeFrame_eq hms hspaced hx hcap hsome,
      fetchBinanceKlines_eq hinterval hstep hspaced hx hlt hsome, ?_⟩
    rw [List.map_map, List.map_map]
    rfl
  · intro hclose h
    obtain ⟨-, hsome, hdts⟩ := hiff.mp h
    obtain ⟨c, hc⟩ := List.exists_mem_of_ne_nil _ hsome
    have hlabel := hdts c hc
    have hcandle := hclose c (List.mem_of_mem_filter hc)
    omega

/-! Three hours of an exchange. -/

/-- A bar an hour, closing a millisecond before the next one opens. -/
def hourBars (n : ℕ) : List Kline :=
  (List.range n).map fun k : ℕ =>
    ⟨(k : ℤ) * 3600000, "100", "110", "90", "105", "7", (k : ℤ) * 3600000 + 3599999⟩

def hourExchange (n : ℕ) : Exchange Kline := fun r =>
  .ok ((inRange Kline.openTime none r.endTime (hourBars n)).rtake (min r.limit maxCandles))

theorem hourBars_spaced (n : ℕ) :
    (hourBars n).Pairwise fun a b => a.openTime + 3600000 ≤ b.openTime := by
  rw [hourBars, List.pairwise_map]
  refine List.pairwise_lt_range.imp ?_
  intro a b h
  simp only
  omega

theorem length_inRange_hourBars (start stop : Option ℤ) (n : ℕ) :
    (inRange Kline.openTime start stop (hourBars n)).length ≤ n := by
  refine (List.length_filter_le _ _).trans ?_
  rw [hourBars, List.length_map, List.length_range]

theorem intervalMs_hour : intervalMs.lookup "1h" = some 3600000 := by decide

theorem hourBars_labels :
    ((0 : ℤ) < 7200000 →
      inRange Kline.openTime (some 0) (some 7200000) (hourBars 3) ≠ [] →
      ∃ f g, fetchBinanceRangeFrame (fun _ => 0) (hourExchange 3) "btcusdt" "1h" 0 7200000 =
          some (.ok f) ∧
        fetchBinanceKlines (fun _ => 0) (hourExchange 3) "btcusdt" "1h" 0 7200000 = some (.ok g) ∧
        f.map FrameRow.values = g.map FrameRow.values) ∧
    (SameFrames (fun _ => 0) (hourExchange 3) "btcusdt" "1h" 0 7200000 ↔
      (0 : ℤ) < 7200000 ∧ inRange Kline.openTime (some 0) (some 7200000) (hourBars 3) ≠ [] ∧
        ∀ c ∈ inRange Kline.openTime (some 0) (some 7200000) (hourBars 3),
          c.closeTime / 1000 * 1000 = c.openTime) ∧
    ((∀ c ∈ hourBars 3, c.closeTime = c.openTime + 3600000 - 1) →
      ¬ SameFrames (fun _ => 0) (hourExchange 3) "btcusdt" "1h" 0 7200000) :=
  sameFrames_iff intervalMs_hour (hourBars_spaced 3) (fun _ _ => rfl)
    ((length_inRange_hourBars _ _ 3).trans (by decide))

/-- The labels of one hour differ by the hour, up to the second. -/
theorem hourBars_apart :
    ∃ f g, fetchBinanceRangeFrame (fun _ => 0) (hourExchange 3) "btcusdt" "1h" 0 7200000 =
        some (.ok f) ∧
      fetchBinanceKlines (fun _ => 0) (hourExchange 3) "btcusdt" "1h" 0 7200000 = some (.ok g) ∧
      f.map FrameRow.dts = [3599000, 7199000, 10799000] ∧
      g.map FrameRow.dts = [0, 3600000, 7200000] ∧
      ¬ SameFrames (fun _ => 0) (hourExchange 3) "btcusdt" "1h" 0 7200000 := by
  have hsome : inRange Kline.openTime (some 0) (some 7200000) (hourBars 3) ≠ [] := by decide
  have hf : fetchBinanceRangeFrame (fun _ => 0) (hourExchange 3) "btcusdt" "1h" 0 7200000 = _ :=
    fetchBinanceRangeFrame_eq intervalMs_hour (hourBars_spaced 3) (fun _ _ => rfl)
      ((length_inRange_hourBars _ _ 3).trans (by decide)) hsome
  have hg : fetchBinanceKlines (fun _ => 0) (hourExchange 3) "btcusdt" "1h" 0 7200000 = _ :=
    fetchBinanceKlines_eq (by decide) (by decide) (hourBars_spaced 3) (fun _ _ => rfl)
      (by decide) hsome
  refine ⟨_, _, hf, hg, by decide, by decide, ?_⟩
  rintro ⟨f, g, hf', hg', -, hdts⟩
  rw [hf] at hf'
  rw [hg] at hg'
  obtain rfl := Except.ok.inj (Option.some.inj hf')
  obtain rfl := Except.ok.inj (Option.some.inj hg')
  exact absurd hdts (by decide)

end Pyharmonics.MarketData
