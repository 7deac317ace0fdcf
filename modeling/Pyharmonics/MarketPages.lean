import Pyharmonics.Errors
import Pyharmonics.Library.Tails

/-! The candles fetched page by page, backwards in time, from an exchange. -/
namespace Pyharmonics.MarketData

open Tails

/-- The `params` of one request. -/
structure KlineRequest where
  symbol : String
  interval : String
  limit : ℕ
  endTime : Option ℤ
  deriving DecidableEq

/-- `_request_with_retry(url, params).json()`: the rows of a page, or the last failure. -/
abbrev Exchange (κ : Type) := KlineRequest → Except PyError (List κ)

/-- `MAX_CANDLES` -/
def maxCandles : ℕ := 1000

/-- What is fetched; the bounds are inclusive. -/
structure Fetch where
  symbol : String
  interval : String
  numCandles : ℕ
  start : Option ℤ := none
  stop : Option ℤ := none

/-- What one pass of the loop leaves: the rows so far, to return or to go on before a time. -/
inductive Page (κ : Type)
  | last (collected : List κ)
  | more (collected : List κ) (endTime : ℤ)

section

variable {κ : Type} (openTime : κ → ℤ) (exchange : Exchange κ) (f : Fetch)

/-- `[row for row in batch if row[0] >= start_time]`, if there is a start bound. -/
def fromStart (start : Option ℤ) (batch : List κ) : List κ :=
  match start with
  | some start => batch.filter fun row => start ≤ openTime row
  | none => batch

/-- One pass of the loop of `_fetch_paginated`. -/
def nextPage (collected : List κ) (endTime : Option ℤ) : Except PyError (Page κ) := do
  let batchSize := min (f.numCandles - collected.length) maxCandles
  let batch ← exchange ⟨f.symbol, f.interval, batchSize, endTime⟩
  let batch := fromStart openTime f.start batch
  match batch with
  | [] => return .last collected
  | first :: _ =>
    let collected := batch ++ collected
    if batch.length < batchSize then return .last collected
    let endTime := openTime first - 1
    if f.start.any fun start => endTime < start then return .last collected
    return .more collected endTime

/-- The loop of `_fetch_paginated` for at most `fuel` passes; `none` if it is not through. -/
def fetchLoop : ℕ → List κ → Option ℤ → Option (Except PyError (List κ))
  | fuel, collected, endTime =>
    if f.numCandles ≤ collected.length then some (.ok collected)
    else
      match fuel with
      | 0 => none
      | fuel + 1 =>
        match nextPage openTime exchange f collected endTime with
        | .error e => some (.error e)
        | .ok (.last collected) => some (.ok collected)
        | .ok (.more collected endTime) => fetchLoop fuel collected (some endTime)

/-- `_fetch_paginated`, which makes no more passes than there are candles asked for. -/
def fetchPaginated : Option (Except PyError (List κ)) :=
  fetchLoop openTime exchange f f.numCandles [] f.stop

/-- The candles whose open time lies in the bounds. -/
def inRange (start stop : Option ℤ) (history : List κ) : List κ :=
  history.filter fun row =>
    start.all (fun a => decide (a ≤ openTime row)) && stop.all fun b => decide (openTime row ≤ b)

/-- The exchange answers a request with the last of its candles up to the end time, a page at
most. -/
def Serves (history : List κ) : Prop :=
  ∀ limit endTime, exchange ⟨f.symbol, f.interval, limit, endTime⟩ =
    .ok ((inRange openTime none endTime history).rtake (min limit maxCandles))

end

variable {κ : Type} {openTime : κ → ℤ} {exchange : Exchange κ} {f : Fetch}
  {collected collected' history : List κ} {endTime : Option ℤ} {t : ℤ} {fuel : ℕ}

theorem batchSize_pos (h : collected.length < f.numCandles) :
    0 < min (f.numCandles - collected.length) maxCandles :=
  lt_min (Nat.sub_pos_of_lt h) (by decide)

/-- A pass that goes on has added a row, whatever the exchange answers. -/
theorem nextPage_more (h : collected.length < f.numCandles)
    (hpage : nextPage openTime exchange f collected endTime = .ok (.more collected' t)) :
    collected.length < collected'.length := by
  have hsize := batchSize_pos h
  obtain ⟨batch, -, hpage⟩ := bind_ok.mp hpage
  dsimp only at hpage
  generalize fromStart openTime f.start batch = kept at hpage
  cases kept with
  | nil => cases hpage
  | cons first rest =>
    simp only at hpage
    split_ifs at hpage with hshort hbound
    · cases hpage
    · cases hpage
    · obtain ⟨rfl, -⟩ := Page.more.inj (Except.ok.inj hpage)
      rw [List.length_append]
      omega

/-- The loop is through after as many passes as rows are missing. -/
theorem fetchLoop_terminates (h : f.numCandles - collected.length ≤ fuel) :
    (fetchLoop openTime exchange f fuel collected endTime).isSome := by
  induction fuel generalizing collected endTime with
  | zero =>
    unfold fetchLoop
    rw [if_pos (by omega)]
    rfl
  | succ fuel ih =>
    unfold fetchLoop
    split_ifs with hfull
    · rfl
    · dsimp only
      split
      · rfl
      · rfl
      · next collected' t hpage =>
        have hgrow := nextPage_more (not_le.mp hfull) hpage
        exact ih (by omega)

/-- `_fetch_paginated` ends on every exchange. -/
theorem fetchPaginated_terminates : (fetchPaginated openTime exchange f).isSome :=
  fetchLoop_terminates (by simp)

/-! What an exchange that serves a history is asked for. -/

theorem inRange_sorted {start stop : Option ℤ}
    (hs : history.Pairwise fun a b => openTime a < openTime b) :
    (inRange openTime start stop history).Pairwise fun a b => openTime a < openTime b := hs.filter _

/-- Filtered from the start bound on, the last candles of a page are the last ones in range. -/
theorem fromStart_rtake {start : Option ℤ}
    (hs : history.Pairwise fun a b => openTime a < openTime b) (n : ℕ) :
    fromStart openTime start ((inRange openTime none endTime history).rtake n) =
      (inRange openTime start endTime history).rtake n := by
  cases start with
  | none => rfl
  | some start =>
    rw [fromStart, filter_rtake (inRange_sorted hs) start n, inRange, inRange, List.filter_filter]
    simp

/-- In front of a page the candles in range are those before its first one. -/
theorem inRange_before {start : Option ℤ} {n : ℕ} {first : κ} {rest : List κ}
    (hs : history.Pairwise fun a b => openTime a < openTime b)
    (hpage : (inRange openTime start endTime history).rtake n = first :: rest) :
    inRange openTime start (some (openTime first - 1)) history =
      (inRange openTime start endTime history).rdrop n := by
  have hfirst : first ∈ inRange openTime start endTime history :=
    List.mem_of_mem_drop (hpage ▸ List.mem_cons_self)
  have hend : endTime.all (fun b => decide (openTime first ≤ b)) = true := by
    have hkept := (List.mem_filter.mp hfirst).2
    rw [Bool.and_eq_true] at hkept
    exact hkept.2
  rw [← filter_before (inRange_sorted hs) hpage, inRange, inRange, List.filter_filter]
  refine List.filter_congr fun row _ => ?_
  cases endTime with
  | none => simp [Bool.and_comm]
  | some b =>
    simp only [Option.all_some, decide_eq_true_eq] at hend
    by_cases hrow : openTime row ≤ openTime first - 1
    · have hb : openTime row ≤ b := by omega
      simp [hrow, hb]
    · simp [hrow]

/-- No candle lies between bounds the wrong way round. -/
theorem inRange_of_lt {start stop : ℤ} (h : stop < start) :
    inRange openTime (some start) (some stop) history = [] := by
  refine List.filter_eq_nil_iff.mpr fun row _ => ?_
  simp only [Option.all_some, Bool.and_eq_true, decide_eq_true_eq]
  omega

/-- One pass: it ends when what is left in range fits the page, or goes on in front of a full
one. -/
theorem nextPage_cases (hs : history.Pairwise fun a b => openTime a < openTime b)
    (hx : Serves openTime exchange f history) (h : collected.length < f.numCandles) {size : ℕ}
    (hsize : size = min (f.numCandles - collected.length) maxCandles) :
    (nextPage openTime exchange f collected endTime =
        .ok (.last (inRange openTime f.start endTime history ++ collected)) ∧
      (inRange openTime f.start endTime history).length ≤ size) ∨
    ∃ first rest, (inRange openTime f.start endTime history).rtake size = first :: rest ∧
      (first :: rest).length = size ∧
      nextPage openTime exchange f collected endTime =
        .ok (.more (first :: rest ++ collected) (openTime first - 1)) := by
  have hpos : 0 < size := hsize ▸ batchSize_pos h
  have hmin : min size maxCandles = size := by omega
  unfold nextPage
  simp only [← hsize, hx size endTime, ok_bind, hmin, fromStart_rtake hs]
  cases hpage : (inRange openTime f.start endTime history).rtake size with
  | nil =>
    rw [rtake_eq_nil_iff hpos] at hpage
    rw [hpage]
    exact Or.inl ⟨rfl, Nat.zero_le _⟩
  | cons first rest =>
    have hlen := length_rtake (inRange openTime f.start endTime history) size
    rw [hpage] at hlen
    simp only
    by_cases hshort : (first :: rest).length < size
    · rw [if_pos hshort]
      have hall : (inRange openTime f.start endTime history).length ≤ size := by omega
      rw [rtake_of_length_le hall] at hpage
      rw [hpage] at hall ⊢
      exact Or.inl ⟨rfl, hall⟩
    · rw [if_neg hshort]
      by_cases hbound : (f.start.any fun start => decide (openTime first - 1 < start)) = true
      · rw [if_pos hbound]
        -- nothing in range is before the page
        obtain ⟨start, hstart, hlt⟩ := (Option.any_eq_true _ _).mp hbound
        have hbefore := inRange_before hs hpage
        have hnone : inRange openTime f.start (some (openTime first - 1)) history = [] := by
          rw [hstart]
          exact inRange_of_lt (of_decide_eq_true hlt)
        have hwhole := rdrop_append_rtake (inRange openTime f.start endTime history) size
        rw [← hbefore, hnone, hpage, List.nil_append] at hwhole
        rw [← hwhole]
        exact Or.inl ⟨rfl, by omega⟩
      · rw [if_neg hbound]
        exact Or.inr ⟨first, rest, rfl, by omega, rfl⟩

/-- The rows still in range in front of the collected ones, and these: the loop returns the last of
them. -/
theorem fetchLoop_eq (hs : history.Pairwise fun a b => openTime a < openTime b)
    (hx : Serves openTime exchange f history) (hfuel : f.numCandles - collected.length ≤ fuel)
    (hlen : collected.length ≤ f.numCandles) :
    fetchLoop openTime exchange f fuel collected endTime =
      some (.ok ((inRange openTime f.start endTime history ++ collected).rtake f.numCandles)) := by
  induction fuel generalizing collected endTime with
  | zero =>
    have hfull : f.numCandles = collected.length := by omega
    unfold fetchLoop
    rw [if_pos hfull.le, rtake_append_of_le hfull.le, rtake_of_length_le hlen]
  | succ fuel ih =>
    unfold fetchLoop
    by_cases hfull : f.numCandles ≤ collected.length
    · rw [if_pos hfull, rtake_append_of_le hfull, rtake_of_length_le hlen]
    · rw [if_neg hfull]
      dsimp only
      rcases nextPage_cases hs hx (not_le.mp hfull) rfl with ⟨hpage, hfits⟩ | ⟨first, rest, hrows,
        hsize, hpage⟩
      · rw [hpage, rtake_of_length_le]
        rw [List.length_append]
        omega
      · have hpos := batchSize_pos (not_le.mp hfull)
        have hcount : (first :: rest ++ collected).length ≤ f.numCandles := by
          rw [List.length_append]
          omega
        have hsplit := rdrop_append_rtake (inRange openTime f.start endTime history)
          (min (f.numCandles - collected.length) maxCandles)
        rw [hrows] at hsplit
        rw [hpage]
        dsimp only
        rw [ih (by rw [List.length_append]; omega) hcount, inRange_before hs hrows,
          ← List.append_assoc, hsplit]

theorem fetchPaginated_rows (hs : history.Pairwise fun a b => openTime a < openTime b)
    (hx : Serves openTime exchange f history) :
    fetchPaginated openTime exchange f =
      some (.ok ((inRange openTime f.start f.stop history).rtake f.numCandles)) := by
  have hrows : fetchPaginated openTime exchange f = _ :=
    fetchLoop_eq hs hx (Nat.sub_le _ _) (Nat.zero_le _)
  rwa [List.append_nil] at hrows

/-- On an exchange that serves a history with increasing open times the fetch returns the last of
the candles in range, as many as asked for or all, in ascending order. -/
theorem fetchPaginated_last (hs : history.Pairwise fun a b => openTime a < openTime b)
    (hx : Serves openTime exchange f history) :
    ∃ rows, fetchPaginated openTime exchange f = some (.ok rows) ∧
      rows = (inRange openTime f.start f.stop history).rtake f.numCandles ∧
      rows.length = min f.numCandles (inRange openTime f.start f.stop history).length ∧
      rows.Pairwise fun a b => openTime a < openTime b :=
  ⟨_, fetchPaginated_rows hs hx, rfl, length_rtake _ _, (inRange_sorted hs).drop⟩

/-- A bar a minute, by their open times. -/
def minuteBars (n : ℕ) : List ℤ := (List.range n).map fun k : ℕ => (k : ℤ) * 60000

def minuteExchange (n : ℕ) : Exchange ℤ := fun r =>
  .ok ((inRange id none r.endTime (minuteBars n)).rtake (min r.limit maxCandles))

theorem minuteBars_sorted (n : ℕ) : (minuteBars n).Pairwise fun a b => id a < id b := by
  rw [minuteBars, List.pairwise_map]
  refine List.pairwise_lt_range.imp ?_
  intro a b h
  simp only [id_eq]
  omega

theorem minuteExchange_last :
    ∃ rows, fetchPaginated id (minuteExchange 2500) ⟨"BTCUSDT", "1m", 2200, some 6000000, none⟩ =
        some (.ok rows) ∧
      rows = (inRange id (some 6000000) none (minuteBars 2500)).rtake 2200 ∧
      rows.length = min 2200 (inRange id (some 6000000) none (minuteBars 2500)).length ∧
      rows.Pairwise fun a b => id a < id b :=
  fetchPaginated_last (minuteBars_sorted 2500) fun _ _ => rfl

/-! The candles between two times. -/

section

variable {κ : Type} (openTime : κ → ℤ) (exchange : Exchange κ)

/-- `get_candles`, up to the frame it makes of the rows. -/
def candleRows (symbol interval : String) (numCandles : ℕ) (start stop : Option ℤ) :
    Option (Except PyError (List κ)) :=
  let wanted := if numCandles = 0 then maxCandles else numCandles
  (fetchPaginated openTime exchange ⟨symbol.toUpper, interval, wanted, start, stop⟩).map fun
    | .error _ => .error (.other "Binance API request failed")
    | .ok [] => .error (.other ("Binance returned no data for " ++ symbol))
    | .ok rows => .ok (rows.rtake wanted)

/-- `_INTERVAL_MS` -/
def intervalMs : List (String × ℤ) :=
  [("15m", 15 * 60 * 1000), ("1h", 60 * 60 * 1000), ("4h", 4 * 60 * 60 * 1000),
    ("1d", 24 * 60 * 60 * 1000), ("1w", 7 * 24 * 60 * 60 * 1000)]

/-- The candles `_fetch_binance_range` asks for. -/
def rangeCandles (ms startMs endMs : ℤ) : ℕ :=
  (min (max ((endMs - startMs) / ms) 1 + 1) 50000).toNat

/-- `_fetch_binance_range`, with the rows for the frame. -/
def fetchBinanceRange (symbol interval : String) (startMs endMs : ℤ) :
    Option (Except PyError (List κ)) :=
  match intervalMs.lookup interval with
  | none => some (.error (.valueError ("Unsupported interval for backtest: " ++ interval) []))
  | some ms => candleRows openTime exchange symbol.toUpper interval (rangeCandles ms startMs endMs)
      (some startMs) (some endMs)

end

/-- Candles a step apart fit between two times once more than the steps between these. -/
theorem length_spaced {ms lo hi : ℤ} {l : List κ} (hms : 0 < ms)
    (hl : l.Pairwise fun a b => openTime a + ms ≤ openTime b)
    (hin : ∀ c ∈ l, lo ≤ openTime c ∧ openTime c ≤ hi) :
    (l.length : ℤ) ≤ max ((hi - lo) / ms) 1 + 1 := by
  have hfit : ∀ (l : List κ) (lo : ℤ), l ≠ [] →
      (l.Pairwise fun a b => openTime a + ms ≤ openTime b) →
      (∀ c ∈ l, lo ≤ openTime c ∧ openTime c ≤ hi) → ((l.length : ℤ) - 1) * ms ≤ hi - lo := by
    intro l
    induction l with
    | nil => exact fun _ h => absurd rfl h
    | cons c l ih =>
      intro lo _ hl hin
      obtain ⟨hc, hl⟩ := List.pairwise_cons.mp hl
      obtain ⟨hlo, hhi⟩ := hin c List.mem_cons_self
      by_cases hnil : l = []
      · rw [hnil]
        simp
        omega
      · have hrest := ih (openTime c + ms) hnil hl fun d hd =>
          ⟨hc d hd, (hin d (List.mem_cons_of_mem c hd)).2⟩
        rw [List.length_cons]
        push_cast
        linarith
  by_cases hnil : l = []
  · rw [hnil]
    simp
    omega
  · have hsteps := Int.le_ediv_of_mul_le hms (hfit l lo hnil hl hin)
    have := le_max_left ((hi - lo) / ms) 1
    omega

/-- Between two times with candles a step apart, not more than 50000 of them, the range is fetched
whole. -/
theorem fetchBinanceRange_whole {symbol interval : String} {ms startMs endMs : ℤ}
    (hms : intervalMs.lookup interval = some ms)
    (hspaced : history.Pairwise fun a b => openTime a + ms ≤ openTime b)
    (hx : Serves openTime exchange ⟨symbol.toUpper.toUpper, interval, rangeCandles ms startMs endMs,
      some startMs, some endMs⟩ history)
    (hsome : inRange openTime (some startMs) (some endMs) history ≠ [])
    (hcap : (inRange openTime (some startMs) (some endMs) history).length ≤ 50000) :
    fetchBinanceRange openTime exchange symbol interval startMs endMs =
      some (.ok (inRange openTime (some startMs) (some endMs) history)) := by
  have hpos : 0 < ms := by
    have htable : ∀ e ∈ intervalMs, 0 < e.2 := by decide
    obtain ⟨before, after, hsplit, -⟩ := List.lookup_eq_some_iff.mp hms
    exact htable (interval, ms) (by simp [hsplit])
  have hs : history.Pairwise fun a b => openTime a < openTime b :=
    hspaced.imp fun h => by omega
  have hkept : ∀ c ∈ inRange openTime (some startMs) (some endMs) history,
      startMs ≤ openTime c ∧ openTime c ≤ endMs := by
    intro c hc
    simpa using (List.mem_filter.mp hc).2
  have hfit : ((inRange openTime (some startMs) (some endMs) history).length : ℤ) ≤
      max ((endMs - startMs) / ms) 1 + 1 := length_spaced hpos (hspaced.filter _) hkept
  have hwanted : (inRange openTime (some startMs) (some endMs) history).length ≤
      rangeCandles ms startMs endMs := by
    unfold rangeCandles
    omega
  have hzero : rangeCandles ms startMs endMs ≠ 0 := by
    unfold rangeCandles
    omega
  have hrows := fetchPaginated_rows hs hx
  simp only [rtake_of_length_le hwanted] at hrows
  unfold fetchBinanceRange candleRows
  rw [hms]
  simp only [if_neg hzero, hrows, Option.map_some]
  cases hall : inRange openTime (some startMs) (some endMs) history with
  | nil => exact absurd hall hsome
  | cons first rest =>
    rw [hall] at hwanted
    simp only [rtake_of_length_le hwanted]

/-- Between two times without a candle nothing is returned. -/
theorem fetchBinanceRange_empty {symbol interval : String} {ms startMs endMs : ℤ}
    (hms : intervalMs.lookup interval = some ms)
    (hs : history.Pairwise fun a b => openTime a < openTime b)
    (hx : Serves openTime exchange ⟨symbol.toUpper.toUpper, interval, rangeCandles ms startMs endMs,
      some startMs, some endMs⟩ history)
    (hnone : inRange openTime (some startMs) (some endMs) history = []) :
    fetchBinanceRange openTime exchange symbol interval startMs endMs =
      some (.error (.other ("Binance returned no data for " ++ symbol.toUpper))) := by
  have hzero : rangeCandles ms startMs endMs ≠ 0 := by
    unfold rangeCandles
    omega
  have hrows := fetchPaginated_rows hs hx
  simp only [hnone, List.rtake_nil] at hrows
  unfold fetchBinanceRange candleRows
  rw [hms]
  simp only [if_neg hzero, hrows, Option.map_some]

end Pyharmonics.MarketData
