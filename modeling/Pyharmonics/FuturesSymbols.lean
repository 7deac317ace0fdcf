import Mathlib.Data.List.ReduceOption
import Pyharmonics.JsonValues
import Pyharmonics.Library.Machines

/-! The file-backed list of futures symbols and its refreshes. -/
namespace Pyharmonics

namespace Json

/-- `int(v)`; `parseInt` reads a text. -/
def toInt (parseInt : String → Option ℤ) : Json → Except PyError ℤ
  | bool b => .ok (if b then 1 else 0)
  | int n => .ok n
  | float (.num x) => .ok (x.num.tdiv x.den)
  | float .nan => .error (.valueError "cannot convert float NaN to integer" [])
  | float _ => .error (.other "OverflowError: cannot convert float infinity to integer")
  | str s =>
    match parseInt s with
    | some n => .ok n
    | none => .error (.valueError ("invalid literal for int() with base 10: " ++ s) [])
  | j => .error (.typeError ("int() argument must be a string or a real number, not '" ++ j.typeName ++ "'"))

/-- `list(v)`, and what a loop over `v` runs through. -/
def iterate : Json → Except PyError (List Json)
  | list l => .ok l
  | str s => .ok (s.toList.map fun c => str (String.singleton c))
  | dict d => .ok (d.map fun e => str e.1)
  | j => .error (.typeError ("'" ++ j.typeName ++ "' object is not iterable"))

/-- `list(v or [])` -/
def iterateOr (v : Json) : Except PyError (List Json) := if v.truthy then v.iterate else .ok []

/-- `d.get(k, default)` -/
def getOr (d : List (String × Json)) (k : String) (default : Json) : Json := (d.lookup k).getD default

/-- `v == text` -/
def isText (text : String) : Json → Bool
  | str s => s = text
  | _ => false

end Json

/-- A single cached symbol; the fetched values are kept as they are. -/
structure SymbolEntry where
  symbol : Json
  baseAsset : Json
  quoteAsset : Json
  contractType : Json
  underlyingType : Json
  underlyingSubTypes : List Json
  pricePrecision : ℤ
  quantityPrecision : ℤ
  isTradfi : Bool
  onboardDateMs : ℤ

def SymbolEntry.toDict (e : SymbolEntry) : Json :=
  .dict [("symbol", e.symbol), ("baseAsset", e.baseAsset), ("quoteAsset", e.quoteAsset),
    ("contractType", e.contractType), ("underlyingType", e.underlyingType),
    ("underlyingSubTypes", .list e.underlyingSubTypes), ("pricePrecision", .int e.pricePrecision),
    ("quantityPrecision", .int e.quantityPrecision), ("isTradfi", .bool e.isTradfi),
    ("onboardDate", .int e.onboardDateMs)]

namespace FuturesSymbols

section

variable (parseInt : String → Option ℤ) (sort : List SymbolEntry → Except PyError (List SymbolEntry))

/-- `_ALLOWED_CONTRACT_TYPES` -/
def allowedContractTypes : List String := ["PERPETUAL", "TRADIFI_PERPETUAL"]

/-- `_parse_entry`: a symbol that is filtered out or malformed is skipped. -/
def parseEntry (raw : Json) : Except PyError (Option SymbolEntry) := do
  let d ← raw.asDict
  if ¬ (Json.get d "status").isText "TRADING" then return none
  if ¬ (Json.get d "quoteAsset").isText "USDT" then return none
  if ¬ allowedContractTypes.any fun t => (Json.get d "contractType").isText t then return none
  match d.lookup "symbol", d.lookup "baseAsset" with
  | some symbol, some baseAsset => caught do
    let underlyingSubTypes ← (Json.get d "underlyingSubTypes").iterateOr
    let pricePrecision ← (Json.getOr d "pricePrecision" (.int 2)).toInt parseInt
    let quantityPrecision ← (Json.getOr d "quantityPrecision" (.int 3)).toInt parseInt
    let onboardDateMs ← (Json.getOr d "onboardDate" (.int 0)).toInt parseInt
    return ⟨symbol, baseAsset, Json.get d "quoteAsset", Json.get d "contractType",
      Json.getOr d "underlyingType" (.str "COIN"), underlyingSubTypes, pricePrecision,
      quantityPrecision, (Json.get d "contractType").isText "TRADIFI_PERPETUAL", onboardDateMs⟩
  -- the `KeyError`
  | _, _ => return none

/-- `_entries_from_exchangeinfo`; `sort` orders by symbol, and raises where two do not compare. -/
def entriesFromExchangeinfo (raw : Json) : Except PyError (List SymbolEntry) := do
  let d ← raw.asDict
  let out ← (← (Json.get d "symbols").iterateOr).mapM (parseEntry parseInt)
  sort out.reduceOption

/-- `SymbolEntry(**_entry_from_dict(d))` -/
def entryFromDict (j : Json) : Except PyError SymbolEntry :=
  match j with
  | .dict d => do
    let symbol ← Json.item d "symbol"
    let baseAsset ← Json.item d "baseAsset"
    let quoteAsset ← Json.item d "quoteAsset"
    let contractType ← Json.item d "contractType"
    let underlyingSubTypes ← (Json.get d "underlyingSubTypes").iterateOr
    let pricePrecision ← (Json.getOr d "pricePrecision" (.int 2)).toInt parseInt
    let quantityPrecision ← (Json.getOr d "quantityPrecision" (.int 3)).toInt parseInt
    let onboardDateMs ← (Json.getOr d "onboardDate" (.int 0)).toInt parseInt
    return ⟨symbol, baseAsset, quoteAsset, contractType, Json.getOr d "underlyingType" (.str "COIN"),
      underlyingSubTypes, pricePrecision, quantityPrecision,
      (Json.getOr d "isTradfi" (.bool false)).truthy, onboardDateMs⟩
  | j => .error (.typeError ("'" ++ j.typeName ++ "' object is not subscriptable with a text"))

/-- The entries of the file, given the JSON in it. -/
def readEntries (content : Json) : Except PyError (List SymbolEntry) := do
  (← content.iterate).mapM (entryFromDict parseInt)

end

end FuturesSymbols

/-- The cache, with its file and the clock. -/
structure FuturesSymbolsCache where
  /-- The JSON in the file, and the time of its last change. -/
  file : Option (Json × ℚ)
  memory : Option Json
  mtimeAtLoad : ℚ
  refreshInProgress : Bool
  now : ℚ

namespace FuturesSymbolsCache

open FuturesSymbols

/-- What happens to a cache. A fetch comes with its outcome, and with whether the file can be
written; `worker` is the background refresh as it comes through. -/
inductive Event where
  | get (fetch : Except PyError Json) (writes : Bool)
  | refresh (fetch : Except PyError Json) (writes : Bool)
  | worker (fetch : Except PyError Json) (writes : Bool)
  | advance (seconds : ℚ)

inductive Reply where
  | entries (result : Except PyError (List Json))
  | count (result : Except PyError ℕ)
  | none

section

variable (parseInt : String → Option ℤ) (sort : List SymbolEntry → Except PyError (List SymbolEntry))
  (stalenessSeconds : ℚ) (s : FuturesSymbolsCache) (fetch : Except PyError Json) (writes : Bool)

/-- `_write`, and the lines after it. -/
def store (entries : List SymbolEntry) : FuturesSymbolsCache :=
  let payload := Json.list (entries.map SymbolEntry.toDict)
  let file := if writes then some (payload, s.now) else s.file
  { s with file := file, memory := some payload, mtimeAtLoad := (file.map Prod.snd).getD 0 }

def refresh : FuturesSymbolsCache × Except PyError ℕ :=
  match fetch >>= entriesFromExchangeinfo parseInt sort with
  | .error e => (s, .error e)
  | .ok entries => (s.store writes entries, .ok entries.length)

/-- The last part of `_ensure_loaded`: a fetch, as nothing could be read. -/
def rebuild : FuturesSymbolsCache × Except PyError (List SymbolEntry) :=
  match fetch >>= entriesFromExchangeinfo parseInt sort with
  | .error _ => ({ s with memory := some (.list []) }, .ok [])
  | .ok entries => (s.store writes entries, .ok entries)

/-- The middle part of `_ensure_loaded`: the file is loaded. -/
def load : FuturesSymbolsCache × Except PyError (List SymbolEntry) :=
  match s.file with
  | some (content, mtime) =>
    let s := { s with memory := some content, mtimeAtLoad := mtime }
    match readEntries parseInt content with
    | .error (.typeError _) => s.rebuild parseInt sort fetch writes
    | result => (s, result)
  | none => s.rebuild parseInt sort fetch writes

/-- `_ensure_loaded` -/
def ensureLoaded : FuturesSymbolsCache × Except PyError (List SymbolEntry) :=
  match s.memory, s.file with
  | some _, some (content, mtime) =>
    if mtime = s.mtimeAtLoad then
      match readEntries parseInt content with
      | .error (.typeError _) => s.load parseInt sort fetch writes
      | result => (s, result)
    else s.load parseInt sort fetch writes
  | _, _ => s.load parseInt sort fetch writes

/-- `_should_refresh` -/
def shouldRefresh : Bool :=
  if s.refreshInProgress then false
  else
    match s.file with
    | none => true
    | some (_, mtime) => stalenessSeconds < s.now - mtime

def get : FuturesSymbolsCache × Except PyError (List Json) :=
  match s.ensureLoaded parseInt sort fetch writes with
  | (s, .error e) => (s, .error e)
  | (s, .ok entries) =>
    (if s.shouldRefresh stalenessSeconds then { s with refreshInProgress := true } else s,
      .ok (entries.map SymbolEntry.toDict))

/-- `_background_worker`, where one was started. -/
def worker : FuturesSymbolsCache :=
  if s.refreshInProgress then
    { (s.refresh parseInt sort fetch writes).1 with refreshInProgress := false }
  else s

def step : Event → FuturesSymbolsCache × Reply
  | .get fetch writes =>
    ((s.get parseInt sort stalenessSeconds fetch writes).1,
      .entries (s.get parseInt sort stalenessSeconds fetch writes).2)
  | .refresh fetch writes =>
    ((s.refresh parseInt sort fetch writes).1, .count (s.refresh parseInt sort fetch writes).2)
  | .worker fetch writes => (s.worker parseInt sort fetch writes, .none)
  | .advance seconds => ({ s with now := s.now + seconds }, .none)

/-- A get returns a list with an entry, whatever a fetch would bring. -/
def Serves : Prop :=
  ∀ fetch writes, ∃ l, (s.get parseInt sort stalenessSeconds fetch writes).2 = .ok l ∧ l ≠ []

/-- The file holds a snapshot with an entry. -/
def Holds : Prop :=
  ∃ es mtime, es ≠ [] ∧ s.file = some (.list (es.map SymbolEntry.toDict), mtime)

/-- A payload that is read without an exception, and of which no symbol is kept. -/
def Empties (raw : Json) : Prop :=
  ∃ d symbols, raw = .dict d ∧ (Json.get d "symbols").iterateOr = .ok symbols ∧
    ∀ sym ∈ symbols, parseEntry parseInt sym = .ok none

/-- A refresh that writes such a payload. -/
def Wipes : Event → Prop
  | .refresh fetch writes => writes = true ∧ ∃ raw, fetch = .ok raw ∧ Empties parseInt raw
  | .worker fetch writes =>
    s.refreshInProgress = true ∧ writes = true ∧ ∃ raw, fetch = .ok raw ∧ Empties parseInt raw
  | _ => False

end

/-- What `list.sort` does with entries: it returns them in an order, unless it raises. -/
structure Sorts (sort : List SymbolEntry → Except PyError (List SymbolEntry)) : Prop where
  nil : sort [] = .ok []
  perm : ∀ {l r}, sort l = .ok r → r.Perm l

section

variable {parseInt : String → Option ℤ} {sort : List SymbolEntry → Except PyError (List SymbolEntry)}
  {stalenessSeconds : ℚ} {s : FuturesSymbolsCache} {fetch : Except PyError Json} {writes : Bool}
  {e : SymbolEntry} {es : List SymbolEntry} {raw : Json} {mtime : ℚ}

theorem entryFromDict_toDict : entryFromDict parseInt e.toDict = .ok e := by
  obtain ⟨symbol, baseAsset, quoteAsset, contractType, underlyingType, subs, pp, qp, tradfi, date⟩ := e
  have hsubs : (Json.list subs).iterateOr = .ok subs := by
    unfold Json.iterateOr
    cases subs <;> rfl
  simp only [SymbolEntry.toDict, entryFromDict, Json.item, Json.get, Json.getOr, List.lookup_cons,
    beq_self_eq_true, String.reduceBEq, ok_bind, Option.getD_some, hsubs, Json.toInt, Json.truthy]
  rfl

/-- What is written is read again. -/
theorem readEntries_toDict : readEntries parseInt (.list (es.map SymbolEntry.toDict)) = .ok es := by
  rw [readEntries, Json.iterate, ok_bind, mapM_eq_ok, List.forall₂_map_left_iff]
  exact List.forall₂_same.mpr fun e _ => entryFromDict_toDict

/-- With a snapshot in the file a get returns it, and leaves the file alone. -/
theorem get_of_file (hfile : s.file = some (.list (es.map SymbolEntry.toDict), mtime)) :
    (s.get parseInt sort stalenessSeconds fetch writes).1.file = s.file ∧
      (s.get parseInt sort stalenessSeconds fetch writes).2 = .ok (es.map SymbolEntry.toDict) := by
  obtain ⟨s₁, hs₁, hload⟩ : ∃ s₁, s₁.file = s.file ∧
      s.load parseInt sort fetch writes = (s₁, .ok es) := by
    refine ⟨{ s with memory := some (.list (es.map SymbolEntry.toDict)), mtimeAtLoad := mtime },
      rfl, ?_⟩
    unfold load
    simp only [hfile, readEntries_toDict]
  obtain ⟨s', hs', hensure⟩ : ∃ s', s'.file = s.file ∧
      s.ensureLoaded parseInt sort fetch writes = (s', .ok es) := by
    unfold ensureLoaded
    cases s.memory with
    | none =>
      simp only [hfile]
      exact ⟨s₁, hs₁.trans hfile, hload⟩
    | some m =>
      by_cases htime : mtime = s.mtimeAtLoad
      · simp only [hfile, if_pos htime, readEntries_toDict]
        exact ⟨s, hfile, rfl⟩
      · simp only [hfile, if_neg htime]
        exact ⟨s₁, hs₁.trans hfile, hload⟩
  unfold get
  simp only [hensure, and_true]
  split_ifs <;> exact hs'

theorem Holds.serves (h : s.Holds) : s.Serves parseInt sort stalenessSeconds := by
  obtain ⟨es, mtime, hne, hfile⟩ := h
  intro fetch writes
  exact ⟨_, (get_of_file hfile).2, by simpa using hne⟩

theorem not_serves_of_file (hfile : s.file = some (.list [], mtime)) :
    ¬ s.Serves parseInt sort stalenessSeconds := by
  intro h
  obtain ⟨l, hl, hne⟩ := h (.ok .null) true
  rw [(@get_of_file parseInt sort stalenessSeconds s (.ok .null) true [] mtime hfile).2] at hl
  exact hne (Except.ok.inj hl).symm

/-- The payloads that are read as no entry at all. -/
theorem empties_iff (hsort : Sorts sort) :
    Empties parseInt raw ↔ entriesFromExchangeinfo parseInt sort raw = .ok [] := by
  unfold entriesFromExchangeinfo
  constructor
  · rintro ⟨d, symbols, rfl, hsymbols, hnone⟩
    have hout : symbols.mapM (parseEntry parseInt) = .ok (symbols.map fun _ => none) := mapM_ok hnone
    have hreduce : (symbols.map fun _ => (none : Option SymbolEntry)).reduceOption = [] := by
      simp [List.reduceOption]
    rw [Json.asDict, ok_bind, hsymbols, ok_bind, hout, ok_bind, hreduce, hsort.nil]
  · intro h
    obtain ⟨d, hd, h⟩ := bind_ok.mp h
    obtain ⟨symbols, hsymbols, h⟩ := bind_ok.mp h
    obtain ⟨out, hout, h⟩ := bind_ok.mp h
    have hnil : out.reduceOption = [] := (hsort.perm h).symm.eq_nil
    refine ⟨d, symbols, ?_, hsymbols, fun sym hsym => ?_⟩
    · cases raw with
      | dict d' => rw [Except.ok.inj hd]
      | _ => cases hd
    · obtain ⟨o, ho, hparse⟩ := exists_of_mapM_ok hout sym hsym
      have hskip : o = none := List.filterMap_eq_nil_iff.mp hnil o ho
      rw [hparse, hskip]

/-- A refresh keeps a snapshot, unless it writes an empty list over it. -/
theorem refresh_file (hsort : Sorts sort) :
    ((s.refresh parseInt sort fetch writes).1.file = s.file ∧
      ¬ (writes = true ∧ ∃ raw, fetch = .ok raw ∧ Empties parseInt raw)) ∨
    (∃ es, es ≠ [] ∧ (s.refresh parseInt sort fetch writes).1.file =
        some (.list (es.map SymbolEntry.toDict), s.now) ∧
      ¬ (writes = true ∧ ∃ raw, fetch = .ok raw ∧ Empties parseInt raw)) ∨
    ((s.refresh parseInt sort fetch writes).1.file = some (.list [], s.now) ∧
      writes = true ∧ ∃ raw, fetch = .ok raw ∧ Empties parseInt raw) := by
  unfold refresh
  cases hentries : fetch >>= entriesFromExchangeinfo parseInt sort with
  | error e =>
    refine .inl ⟨rfl, ?_⟩
    rintro ⟨-, raw, rfl, hempty⟩
    rw [ok_bind, (empties_iff hsort).mp hempty] at hentries
    cases hentries
  | ok entries =>
    obtain ⟨raw, hraw, hentries⟩ := bind_ok.mp hentries
    have hempty : (∃ raw, fetch = .ok raw ∧ Empties parseInt raw) ↔ entries = [] := by
      constructor
      · rintro ⟨raw', hraw', h⟩
        obtain rfl := Except.ok.inj (hraw.symm.trans hraw')
        exact Except.ok.inj (hentries.symm.trans ((empties_iff hsort).mp h))
      · rintro rfl
        exact ⟨raw, hraw, (empties_iff hsort).mpr hentries⟩
    cases writes with
    | false => exact .inl ⟨rfl, fun h => by cases h.1⟩
    | true =>
      by_cases hnil : entries = []
      · refine .inr (.inr ⟨?_, rfl, hempty.mpr hnil⟩)
        rw [hnil]
        rfl
      · exact .inr (.inl ⟨entries, hnil, rfl, fun h => hnil (hempty.mp h.2)⟩)

/-- Every step keeps the snapshot, unless it wipes it. -/
theorem step_serves_iff (hsort : Sorts sort) (x : Event) (h : s.Holds) :
    ((s.step parseInt sort stalenessSeconds x).1.Serves parseInt sort stalenessSeconds ↔
      ¬ s.Wipes parseInt x) ∧
    (¬ s.Wipes parseInt x → (s.step parseInt sort stalenessSeconds x).1.Holds) := by
  have hrefresh : ∀ (fetch : Except PyError Json) (writes : Bool) (s' : FuturesSymbolsCache),
      s'.file = (s.refresh parseInt sort fetch writes).1.file →
      (s'.Serves parseInt sort stalenessSeconds ↔
        ¬ (writes = true ∧ ∃ raw, fetch = .ok raw ∧ Empties parseInt raw)) ∧
      (¬ (writes = true ∧ ∃ raw, fetch = .ok raw ∧ Empties parseInt raw) → s'.Holds) := by
    intro fetch writes s' hs'
    obtain ⟨es, mtime, hne, hfile⟩ := h
    obtain ⟨hsame, hno⟩ | ⟨es', hne', hnew, hno⟩ | ⟨hempty, hyes⟩ :=
      @refresh_file parseInt sort s fetch writes hsort
    · have hholds : s'.Holds := ⟨es, mtime, hne, hs'.trans (hsame.trans hfile)⟩
      exact ⟨iff_of_true hholds.serves hno, fun _ => hholds⟩
    · have hholds : s'.Holds := ⟨es', s.now, hne', hs'.trans hnew⟩
      exact ⟨iff_of_true hholds.serves hno, fun _ => hholds⟩
    · exact ⟨iff_of_false (not_serves_of_file (hs'.trans hempty)) (not_not.mpr hyes),
        fun hno => absurd hyes hno⟩
  have hkeep : ∀ s' : FuturesSymbolsCache, s'.file = s.file →
      (s'.Serves parseInt sort stalenessSeconds ↔ ¬ False) ∧ (¬ False → s'.Holds) := by
    intro s' hs'
    obtain ⟨es, mtime, hne, hfile⟩ := h
    have hholds : s'.Holds := ⟨es, mtime, hne, hs'.trans hfile⟩
    exact ⟨iff_of_true hholds.serves not_false, fun _ => hholds⟩
  cases x with
  | get fetch writes =>
    obtain ⟨es, mtime, hne, hfile⟩ := h
    exact hkeep _ (get_of_file hfile).1
  | refresh fetch writes => exact hrefresh fetch writes _ rfl
  | worker fetch writes =>
    by_cases hprogress : s.refreshInProgress = true
    · have hr := hrefresh fetch writes (s.worker parseInt sort fetch writes)
        (by rw [worker, if_pos hprogress])
      simp only [step, Wipes, hprogress, true_and]
      exact hr
    · have hk := hkeep (s.worker parseInt sort fetch writes) (by rw [worker, if_neg hprogress])
      simp only [step, Wipes, hprogress, Bool.false_eq_true, false_and]
      exact hk
  | advance seconds => exact hkeep _ rfl

/-- Once there is a snapshot, every get of a run returns a list with an entry if and only if no
refresh writes a payload that is read without an exception but has no symbol to keep. -/
theorem serves_iff (hsort : Sorts sort) (h : s.Holds) (xs : List Event) :
    Machines.Along (step parseInt sort stalenessSeconds)
        (fun s x => (s.step parseInt sort stalenessSeconds x).1.Serves parseInt sort stalenessSeconds) s xs ↔
      Machines.Along (step parseInt sort stalenessSeconds) (fun s x => ¬ s.Wipes parseInt x) s xs :=
  Machines.along_congr_guarded (fun _ x hs => step_serves_iff hsort x hs) h

end

/-! A snapshot with one symbol. -/

def symbolText (e : SymbolEntry) : String :=
  match e.symbol with
  | .str s => s
  | _ => ""

/-- `list.sort` where every symbol is a text. -/
def sortTexts (l : List SymbolEntry) : Except PyError (List SymbolEntry) :=
  if l.all fun e => e.symbol.isText (symbolText e) then
    .ok (l.mergeSort fun a b => symbolText a ≤ symbolText b)
  else .error (.typeError "'<' not supported between the symbols")

theorem sortTexts_sorts : Sorts sortTexts where
  nil := by
    rw [sortTexts, List.all_nil, if_pos rfl, List.mergeSort_nil]
  perm := by
    intro l r h
    unfold sortTexts at h
    split_ifs at h
    obtain rfl := Except.ok.inj h
    exact List.mergeSort_perm l _

def btcEntry : SymbolEntry :=
  ⟨.str "BTCUSDT", .str "BTC", .str "USDT", .str "PERPETUAL", .str "COIN", [.str "Layer-1"], 2, 3,
    false, 1569398400000⟩

/-- The snapshot of one symbol, loaded when it was written. -/
def btcCache : FuturesSymbolsCache :=
  ⟨some (.list [btcEntry.toDict], 0), some (.list [btcEntry.toDict]), 0, false, 0⟩

theorem btcCache_holds : btcCache.Holds := ⟨[btcEntry], 0, by simp, rfl⟩

/-- The file gets old and the background refresh fails. -/
theorem btcCache_serves : Machines.Along (step String.toInt? sortTexts 604800)
    (fun s x => (s.step String.toInt? sortTexts 604800 x).1.Serves String.toInt? sortTexts 604800)
    btcCache [.advance 604801, .get (.error (.other "timeout")) true,
      .worker (.error (.other "timeout")) true] :=
  (serves_iff sortTexts_sorts btcCache_holds _).mpr (by simp [Wipes])

/-- An empty object is fetched: the snapshot is gone. -/
theorem btcCache_wiped :
    btcCache.Holds ∧
    (btcCache.step String.toInt? sortTexts 604800 (.refresh (.ok (.dict [])) true)).1.file =
      some (.list [], 0) ∧
    ¬ Machines.Along (step String.toInt? sortTexts 604800)
      (fun s x => (s.step String.toInt? sortTexts 604800 x).1.Serves String.toInt? sortTexts 604800)
      btcCache [.refresh (.ok (.dict [])) true] := by
  have hfile : (btcCache.step String.toInt? sortTexts 604800 (.refresh (.ok (.dict [])) true)).1.file =
      some (.list [], 0) := by
    have hentries : entriesFromExchangeinfo String.toInt? sortTexts (.dict []) = .ok [] :=
      sortTexts_sorts.nil
    simp only [step, refresh, ok_bind, hentries]
    rfl
  exact ⟨btcCache_holds, hfile, fun h => not_serves_of_file hfile h.1⟩

end FuturesSymbolsCache

end Pyharmonics
