import Pyharmonics.JsonValues
import Pyharmonics.MemoryCache

/-! The cache of price frames, over Redis or in memory. -/
namespace Pyharmonics

/-- A value in a frame: one that JSON knows, or a timestamp. -/
inductive Cell (S : Type) where
  | json (j : Json)
  | stamp (s : S)

/-- The labels of the rows: positions, as a `RangeIndex` has them, or timestamps. -/
inductive Labels (S : Type) where
  | positions (l : List ℤ)
  | stamps (l : List S)
  deriving DecidableEq

structure Index (S : Type) where
  name : Option String
  labels : Labels S
  deriving DecidableEq

/-- The positions that a frame without an index of its own gets. -/
def Index.default {S : Type} (n : ℕ) : Index S := ⟨none, .positions ((List.range n).map (↑))⟩

structure PriceFrame (S : Type) where
  columns : List String
  rows : List (List (Cell S))
  index : Index S

/-- What json, pandas and hashlib make of values, timestamps and texts. -/
structure Texts (S : Type) where
  dumps : Json → String
  loads : String → Except PyError Json
  isoformat : S → String
  /-- `str` of a timestamp. -/
  str : S → String
  /-- `str` of anything else. -/
  strJson : Json → String
  toDatetime : List String → Except PyError (List S)
  sha1 : String → String

structure KLineMeta where
  source : String
  exchange : String
  symbol : String
  interval : String
  fetchedAt : String
  latencyMs : PyFloat
  version : String
  deriving DecidableEq

/-- The calls of the Redis client. -/
structure RedisClient (ρ : Type) where
  setex : ρ → ℚ → String → ℚ → String → ρ
  get : ρ → ℚ → String → Option String
  keys : ρ → ℚ → String → List String
  delete : ρ → ℚ → List String → ρ × ℕ

variable {S ρ : Type}

/-- `f[name]` -/
def PriceFrame.column (f : PriceFrame S) (name : String) : List (Cell S) :=
  f.rows.map fun row => row.getD (f.columns.idxOf name) (.json .null)

/-- `pd.DataFrame(data, columns=columns)` -/
def PriceFrame.ofRows (columns : List String) (rows : List (List (Cell S))) :
    Except PyError (PriceFrame S) :=
  if ∀ row ∈ rows, row.length = columns.length then .ok ⟨columns, rows, Index.default rows.length⟩
  else .error (.valueError "columns passed, passed data had another number of columns" [])

/-- `f[name] = values` -/
def PriceFrame.setColumn (f : PriceFrame S) (name : String) (values : List (Cell S)) :
    Except PyError (PriceFrame S) :=
  if values.length = f.rows.length then
    .ok (if name ∈ f.columns then
      { f with rows := f.rows.zipWith (fun row v => row.set (f.columns.idxOf name) v) values }
    else
      { f with columns := f.columns ++ [name], rows := f.rows.zipWith (fun row v => row ++ [v]) values })
  else .error (.valueError "Length of values does not match length of index" [])

/-- `f.index = pd.to_datetime(..)` -/
def PriceFrame.setIndex (f : PriceFrame S) (stamps : List S) : Except PyError (PriceFrame S) :=
  if stamps.length = f.rows.length then .ok { f with index := ⟨none, .stamps stamps⟩ }
  else .error (.valueError "Length mismatch" [])

namespace Texts

variable (T : Texts S)

/-- A cell as `json.dumps(.., default=str)` writes it. -/
def cell : Cell S → Json
  | .json j => j
  | .stamp s => .str (T.str s)

/-- `x.isoformat() if hasattr(x, 'isoformat') else str(x)` -/
def dts : Cell S → String
  | .json j => T.strJson j
  | .stamp s => T.isoformat s

/-- `index.astype(str)` -/
def labels : Labels S → List String
  | .positions l => l.map toString
  | .stamps l => l.map T.str

end Texts

/-- `df.index.name and df.index.name != "dts"` -/
def Index.stored (i : Index S) : Bool := i.name.getD "" ≠ "" && i.name ≠ some "dts"

def KLineMeta.asdict (m : KLineMeta) : Json :=
  .dict [("source", .str m.source), ("exchange", .str m.exchange), ("symbol", .str m.symbol),
    ("interval", .str m.interval), ("fetched_at", .str m.fetchedAt),
    ("latency_ms", .float m.latencyMs), ("version", .str m.version)]

/-- `df_dict`: the parts of a frame that are written. -/
def dfDict (T : Texts S) (f : PriceFrame S) : List (String × Json) :=
  [("data", Json.list (f.rows.map fun row => .list (row.map T.cell))),
    ("columns", .list (f.columns.map .str))] ++
  (if "dts" ∈ f.columns then [("dts", .list (((f.column "dts").map T.dts).map .str))] else []) ++
  (if f.index.stored then [("index", .list ((T.labels f.index.labels).map .str))] else [])

/-- The entry that `set` stores. -/
def entryOf (T : Texts S) (f : PriceFrame S) (m : KLineMeta) : Json :=
  .dict [("df", .dict (dfDict T f)), ("meta", m.asdict)]

/-- `KLineMeta(**meta_dict)` -/
def KLineMeta.ofDict (d : List (String × Json)) : Except PyError KLineMeta := do
  let source ← (← Json.item d "source").asText
  let exchange ← (← Json.item d "exchange").asText
  let symbol ← (← Json.item d "symbol").asText
  let interval ← (← Json.item d "interval").asText
  let fetchedAt ← (← Json.item d "fetched_at").asText
  match ← Json.item d "latency_ms", d.lookup "version" with
  | .float latencyMs, some (.str version) =>
    return ⟨source, exchange, symbol, interval, fetchedAt, latencyMs, version⟩
  | .float latencyMs, none =>
    return ⟨source, exchange, symbol, interval, fetchedAt, latencyMs, "v1"⟩
  | _, _ => .error (.typeError "KLineMeta")

/-- The frame of an entry. -/
def readFrame (T : Texts S) (dfDict : List (String × Json)) : Except PyError (PriceFrame S) := do
  let rows ← (← (← Json.item dfDict "data").asList).mapM Json.asList
  let columns ← (← (← Json.item dfDict "columns").asList).mapM Json.asText
  let f ← PriceFrame.ofRows columns (rows.map (List.map .json))
  let f ← match dfDict.lookup "dts" with
    | some j => do
      let stamps ← T.toDatetime (← (← j.asList).mapM Json.asText)
      f.setColumn "dts" (stamps.map .stamp)
    | none => .ok f
  match dfDict.lookup "index" with
  | some (.list l) => do
    let stamps ← T.toDatetime (← l.mapM Json.asText)
    f.setIndex stamps
  | _ => .ok f

/-- What `get` makes of an entry. -/
def readEntry (T : Texts S) (entry : Json) :
    Except PyError (Option (PriceFrame S × Option KLineMeta)) := do
  let entry ← entry.asDict
  match Json.get entry "df" with
  | .null => return none
  | df =>
    let f ← readFrame T (← df.asDict)
    let metaDict := (entry.lookup "meta").getD (.dict [])
    if metaDict.truthy then return some (f, some (← KLineMeta.ofDict (← metaDict.asDict)))
    else return some (f, none)

/-- What `setex` stores is found for as long as it asks. -/
def RedisClient.Stores (R : RedisClient ρ) : Prop :=
  ∀ r t t' key ttl payload, t ≤ t' → t' < t + ttl →
    R.get (R.setex r t key ttl payload) t' key = some payload

/-- A cache; `memory` has at most 256 entries. -/
structure KLineCache (ρ : Type) where
  enabled : Bool
  ttlSeconds : ℚ
  redis : Option ρ
  memory : Dict String (ℚ × String)
  patternIndex : Dict String (List String)

/-- The frames that the fetchers make, with the timestamps of their `dts` column. -/
structure PriceFrame.Fetched (f : PriceFrame S) (stamps : List S) : Prop where
  nodup : f.columns.Nodup
  shape : ∀ row ∈ f.rows, row.length = f.columns.length
  dts : "dts" ∈ f.columns
  column : f.column "dts" = stamps.map .stamp
  numbers : ∀ row ∈ f.rows, ∀ i, i ≠ f.columns.idxOf "dts" →
    ∀ x ∈ row[i]?, ∃ j : Json, x = .json j ∧ j.isNumber
  index : (f.index.name = none ∧ ∃ l, f.index.labels = .positions l ∧ l.length = f.rows.length) ∨
    ∃ l, f.index.labels = .stamps l ∧ l.length = f.rows.length

namespace KLineCache

variable (R : RedisClient ρ) (T : Texts S)

/-- `_KEY_PREFIX` -/
def keyPrefix : String := "kline:v1:"

/-- `_memory` -/
def memoryCache (c : KLineCache ρ) : MemoryCache String := ⟨256, c.ttlSeconds, c.memory⟩

def init (enabled : Bool) (ttlSeconds : ℚ) (redis : Option ρ) : KLineCache ρ :=
  ⟨enabled, ttlSeconds, if enabled then redis else none, Dict.empty, Dict.empty⟩

def makeKey (market symbol interval : String) (limit : ℕ) : String :=
  keyPrefix ++ T.sha1 ("|".intercalate [market, symbol, interval, toString limit])

/-- `_get_raw` -/
def getRaw (c : KLineCache ρ) (now : ℚ) (key : String) : KLineCache ρ × Option String :=
  match c.redis with
  | some r => (c, R.get r now key)
  | none =>
    ({ c with memory := (c.memoryCache.get now key).1.data }, (c.memoryCache.get now key).2)

/-- `_set_raw` -/
def setRaw (c : KLineCache ρ) (now : ℚ) (key payload : String) : KLineCache ρ :=
  match c.redis with
  | some r => { c with redis := some (R.setex r now key c.ttlSeconds payload) }
  | none => { c with memory := (c.memoryCache.set now key payload).data }

def get (c : KLineCache ρ) (now : ℚ) (key : String) :
    KLineCache ρ × Option (PriceFrame S × Option KLineMeta) :=
  if c.enabled = false then (c, none)
  else
    match c.getRaw R now key with
    | (c, none) => (c, none)
    | (c, some payload) =>
      match T.loads payload >>= readEntry T with
      | .ok result => (c, result)
      | .error _ => (c, none)

def set (c : KLineCache ρ) (now : ℚ) (key : String) (f : PriceFrame S) (m : KLineMeta) :
    KLineCache ρ :=
  if c.enabled = false then c
  else
    let c := c.setRaw R now key (T.dumps (entryOf T f m))
    match c.redis with
    | some _ => c
    | none =>
      let paramsKey := m.exchange ++ ":" ++ m.symbol ++ ":" ++ m.interval
      { c with patternIndex :=
          c.patternIndex.set paramsKey ((c.patternIndex.getD paramsKey []).insert key) }

end KLineCache

section

variable {T : Texts S} {f : PriceFrame S} {m : KLineMeta} {stamps : List S}

/-- A row, with its timestamp written and read again. -/
theorem PriceFrame.Fetched.row_restored (h : f.Fetched stamps) {row : List (Cell S)}
    (hrow : row ∈ f.rows) :
    ((row.map T.cell).map Cell.json).set (f.columns.idxOf "dts")
      (row.getD (f.columns.idxOf "dts") (.json .null)) = row := by
  have hi : f.columns.idxOf "dts" < row.length := by
    rw [h.shape row hrow]
    exact List.idxOf_lt_length_iff.mpr h.dts
  refine List.ext_getElem? fun i => ?_
  rw [List.getElem?_set, List.length_map, List.length_map]
  by_cases hdts : f.columns.idxOf "dts" = i
  · rw [if_pos hdts, ← hdts, if_pos hi, List.getD_eq_getElem?_getD, List.getElem?_eq_getElem hi,
      Option.getD_some]
  · rw [if_neg hdts, List.getElem?_map, List.getElem?_map]
    cases hx : row[i]? with
    | none => rfl
    | some x =>
      obtain ⟨j, rfl, -⟩ := h.numbers row hrow i (Ne.symm hdts) x hx
      rfl

/-- The index that comes back: the timestamps of a stored one, or positions. -/
def Index.restored (i : Index S) (n : ℕ) : Index S :=
  if i.stored then ⟨none, i.labels⟩ else Index.default n

/-- The rows come back, whatever the index. -/
theorem PriceFrame.Fetched.setColumn (h : f.Fetched stamps) (i : Index S) :
    PriceFrame.setColumn
      ⟨f.columns, (f.rows.map fun row => row.map T.cell).map (List.map Cell.json), i⟩ "dts"
      (stamps.map .stamp) = .ok ⟨f.columns, f.rows, i⟩ := by
  have hlen : (stamps.map Cell.stamp).length = f.rows.length := by
    rw [← h.column, PriceFrame.column, List.length_map]
  have hrows : ((f.rows.map fun row => row.map T.cell).map (List.map Cell.json)).zipWith
      (fun row v => row.set (f.columns.idxOf "dts") v) (stamps.map .stamp) = f.rows := by
    rw [← h.column, PriceFrame.column, List.map_map, List.zipWith_map, List.zipWith_self]
    refine (List.map_congr_left fun row hrow => ?_).trans (List.map_id f.rows)
    exact h.row_restored hrow
  rw [PriceFrame.setColumn, if_pos (by simpa using hlen), if_pos h.dts, hrows]

theorem PriceFrame.Fetched.ofRows (h : f.Fetched stamps) :
    PriceFrame.ofRows f.columns
      ((f.rows.map fun row => row.map T.cell).map (List.map (Cell.json (S := S)))) =
      .ok ⟨f.columns, (f.rows.map fun row => row.map T.cell).map (List.map Cell.json),
        Index.default f.rows.length⟩ := by
  rw [PriceFrame.ofRows, if_pos, List.length_map, List.length_map]
  simpa using h.shape

theorem readFrame_dfDict (h : f.Fetched stamps)
    (hdts : T.toDatetime (stamps.map T.isoformat) = .ok stamps)
    (hindex : f.index.stored → ∀ l, f.index.labels = .stamps l →
      T.toDatetime (l.map T.str) = .ok l) :
    readFrame T (dfDict T f) = .ok ⟨f.columns, f.rows, f.index.restored f.rows.length⟩ := by
  have hcells : ((f.rows.map fun row => Json.list (row.map T.cell)).mapM Json.asList) =
      .ok (f.rows.map fun row => row.map T.cell) := by
    rw [mapM_section_iff Json.asList_eq_ok, List.map_map]
    rfl
  have htexts : ∀ l : List String, (l.map Json.str).mapM Json.asText = .ok l := fun l =>
    (mapM_section_iff Json.asText_eq_ok).mpr rfl
  have hcolumn : (f.column "dts").map T.dts = stamps.map T.isoformat := by
    rw [h.column, List.map_map]
    rfl
  have hrows := h.ofRows (T := T)
  have hset := h.setColumn (T := T) (Index.default f.rows.length)
  unfold readFrame dfDict
  rw [if_pos h.dts]
  by_cases hstored : f.index.stored = true
  · obtain ⟨hname, -⟩ | ⟨l, hl, hlen⟩ := h.index
    · rw [Index.stored, hname] at hstored
      simp at hstored
    · rw [if_pos hstored]
      simp only [List.cons_append, List.nil_append, Json.item, List.lookup_cons, String.reduceBEq,
        beq_self_eq_true, ok_bind, Json.asList, hcells, htexts, hrows, hcolumn, hdts, hset, hl,
        Texts.labels, hindex hstored l hl]
      rw [PriceFrame.setIndex, if_pos hlen, Index.restored, if_pos hstored, hl]
  · rw [if_neg hstored]
    simp only [List.cons_append, List.nil_append, List.append_nil, Json.item, List.lookup_cons,
      List.lookup_nil, String.reduceBEq, beq_self_eq_true, ok_bind, Json.asList, hcells, htexts, hrows, hcolumn,
      hdts, hset]
    rw [Index.restored, if_neg hstored]

@[simp] theorem KLineMeta.ofDict_asdict (d : List (String × Json)) (h : m.asdict = .dict d) :
    KLineMeta.ofDict d = .ok m := by
  obtain rfl := Json.dict.inj h
  rfl

/-- An entry that is read again. -/
theorem readEntry_entryOf (h : f.Fetched stamps)
    (hdts : T.toDatetime (stamps.map T.isoformat) = .ok stamps)
    (hindex : f.index.stored → ∀ l, f.index.labels = .stamps l →
      T.toDatetime (l.map T.str) = .ok l) :
    readEntry T (entryOf T f m) =
      .ok (some (⟨f.columns, f.rows, f.index.restored f.rows.length⟩, some m)) := by
  unfold readEntry entryOf
  simp only [Json.asDict, Json.get, List.lookup_cons, beq_self_eq_true, String.reduceBEq,
    Option.getD_some, ok_bind, readFrame_dfDict h hdts hindex]
  rfl

end

namespace KLineCache

variable {R : RedisClient ρ} {T : Texts S} {c : KLineCache ρ} {f : PriceFrame S} {m : KLineMeta}
  {stamps : List S} {now now' : ℚ} {key payload : String}

theorem getRaw_setRaw (hR : R.Stores) (hle : now ≤ now') (hlt : now' < now + c.ttlSeconds) :
    ((c.setRaw R now key payload).getRaw R now' key).2 = some payload := by
  unfold setRaw getRaw
  cases hredis : c.redis with
  | some r => exact hR r now now' key c.ttlSeconds payload hle hlt
  | none =>
    exact @MemoryCache.get_set_self _ c.memoryCache key now payload now' (Nat.succ_pos 255) hlt.le

theorem getRaw_set (henabled : c.enabled = true) (hR : R.Stores) (hle : now ≤ now')
    (hlt : now' < now + c.ttlSeconds) :
    ((c.set R T now key f m).getRaw R now' key).2 = some (T.dumps (entryOf T f m)) := by
  have hraw := @getRaw_setRaw _ R c now now' key (T.dumps (entryOf T f m)) hR hle hlt
  unfold set
  rw [if_neg (by simp [henabled])]
  cases hredis : c.redis with
  | some r =>
    simp only [setRaw, hredis] at hraw ⊢
    exact hraw
  | none =>
    simp only [setRaw, hredis] at hraw ⊢
    exact hraw

@[simp] theorem enabled_setRaw : (c.setRaw R now key payload).enabled = c.enabled := by
  unfold setRaw
  split <;> rfl

@[simp] theorem enabled_set : (c.set R T now key f m).enabled = c.enabled := by
  unfold set
  split
  · rfl
  · simp only
    split <;> exact enabled_setRaw

/-- A payload that is found and can be read. -/
theorem get_of_getRaw (henabled : c.enabled = true) (hraw : (c.getRaw R now key).2 = some payload)
    {result : Option (PriceFrame S × Option KLineMeta)}
    (hread : T.loads payload >>= readEntry T = .ok result) : (c.get R T now key).2 = result := by
  unfold get
  rw [if_neg (by simp [henabled])]
  generalize c.getRaw R now key = found at hraw
  obtain ⟨c', found⟩ := found
  obtain rfl : found = some payload := hraw
  simp only [hread]

theorem get_set_eq (hR : R.Stores) (henabled : c.enabled = true) (h : f.Fetched stamps)
    (hjson : T.loads (T.dumps (entryOf T f m)) = .ok (entryOf T f m))
    (hdts : T.toDatetime (stamps.map T.isoformat) = .ok stamps)
    (hindex : f.index.stored → ∀ l, f.index.labels = .stamps l →
      T.toDatetime (l.map T.str) = .ok l)
    (hle : now ≤ now') (hlt : now' < now + c.ttlSeconds) :
    ((c.set R T now key f m).get R T now' key).2 =
      some (⟨f.columns, f.rows, f.index.restored f.rows.length⟩, some m) := by
  refine get_of_getRaw (by simp [henabled]) (getRaw_set henabled hR hle hlt) ?_
  rw [hjson, ok_bind, readEntry_entryOf h hdts hindex]

/-- What is read of a frame that was just set: the columns, the values and the timestamps of the
frame. Its index comes back with the timestamps where it was stored, and as positions otherwise. -/
theorem get_set (hR : R.Stores) (henabled : c.enabled = true) (h : f.Fetched stamps)
    (hjson : T.loads (T.dumps (entryOf T f m)) = .ok (entryOf T f m))
    (hdts : T.toDatetime (stamps.map T.isoformat) = .ok stamps)
    (hindex : f.index.stored → ∀ l, f.index.labels = .stamps l →
      T.toDatetime (l.map T.str) = .ok l)
    (hle : now ≤ now') (hlt : now' < now + c.ttlSeconds) :
    ∃ g, ((c.set R T now key f m).get R T now' key).2 = some (g, some m) ∧
      g.columns = f.columns ∧ g.rows = f.rows ∧ g.column "dts" = stamps.map .stamp ∧
      (f.index = Index.default f.rows.length → g = f) ∧
      (f.index.stored → g.index.labels = f.index.labels) ∧
      (¬ f.index.stored → g.index = Index.default f.rows.length) := by
  refine ⟨_, get_set_eq hR henabled h hjson hdts hindex hle hlt, rfl, rfl, h.column, ?_, ?_, ?_⟩
  · intro hdefault
    have hnot : f.index.stored = false := by
      rw [hdefault]
      rfl
    rw [Index.restored, hnot, if_neg Bool.false_ne_true, ← hdefault]
  · intro hstored
    rw [Index.restored, if_pos hstored]
  · intro hstored
    rw [Index.restored, if_neg hstored]

/-! One candle, under an index by its timestamps. -/

def candleColumns : List String := ["open", "high", "low", "close", "volume", "close_time", "dts"]

def candleFrame (name : Option String) : PriceFrame ℤ where
  columns := candleColumns
  rows := [[.json (.float (.num 100)), .json (.float (.num 110)), .json (.float (.num 90)),
    .json (.float (.num 105)), .json (.float (.num 7)), .json (.int 1704067200), .stamp 1704067200]]
  index := ⟨name, .stamps [1704067200]⟩

def candleMeta : KLineMeta := ⟨"binance", "binance", "", "", "2024-01-01T00:00:01+00:00", .num 3, "v1"⟩

def candlePayload (name : Option String) : String :=
  "\x7b\"df\": \x7b\"data\": [[100.0, 110.0, 90.0, 105.0, 7.0, 1704067200, " ++
    "\"2024-01-01 00:00:00+00:00\"]], \"columns\": [\"open\", \"high\", \"low\", \"close\", " ++
    "\"volume\", \"close_time\", \"dts\"], \"dts\": [\"2024-01-01T00:00:00+00:00\"]" ++
    (if (candleFrame name).index.stored then ", \"index\": [\"2024-01-01 00:00:00+00:00\"]" else "") ++
    "\x7d, \"meta\": \x7b\"source\": \"binance\", \"exchange\": \"binance\", \"symbol\": \"\", " ++
    "\"interval\": \"\", \"fetched_at\": \"2024-01-01T00:00:01+00:00\", \"latency_ms\": 3.0, " ++
    "\"version\": \"v1\"\x7d\x7d"

/-- The texts of the one timestamp, and the one payload with the entry it stands for. -/
def candleTexts (name : Option String) (entry : Json) : Texts ℤ where
  dumps _ := candlePayload name
  loads _ := .ok entry
  isoformat _ := "2024-01-01T00:00:00+00:00"
  str _ := "2024-01-01 00:00:00+00:00"
  strJson _ := ""
  toDatetime l := .ok (l.map fun _ => 1704067200)
  sha1 _ := "462083144e99475286cdcbf00b2e34cc87414fa9"

def candleEntry (name : Option String) : Json :=
  entryOf (candleTexts name .null) (candleFrame name) candleMeta

/-- A client over a dictionary. -/
def dictRedis (glob : String → String → Bool) : RedisClient (Dict String (ℚ × String)) where
  setex r now key ttl payload := r.set key (now + ttl, payload)
  get r now key := ((r.get? key).filter fun e => now < e.1).map Prod.snd
  keys r now pattern := (r.entries.filter fun e => now < e.2.1 && glob pattern e.1).map Prod.fst
  delete r now keys :=
    (keys.foldl Dict.erase r, (r.entries.filter fun e => now < e.2.1 && e.1 ∈ keys).length)

theorem dictRedis_stores (glob : String → String → Bool) : (dictRedis glob).Stores := by
  intro r t t' key ttl payload _ hlt
  simp only [dictRedis, Dict.get?_set, if_true]
  rw [Option.filter_some, if_pos (decide_eq_true hlt), Option.map_some]

theorem candleFrame_fetched (name : Option String) : (candleFrame name).Fetched [1704067200] where
  nodup := (by decide : candleColumns.Nodup)
  shape := by
    intro row hrow
    obtain rfl := List.mem_singleton.mp hrow
    rfl
  dts := (by decide : "dts" ∈ candleColumns)
  column := rfl
  numbers := by
    intro row hrow i hi x hx
    obtain rfl := List.mem_singleton.mp hrow
    have hi' : i ≠ 6 := hi
    match i with
    | 0 | 1 | 2 | 3 | 4 | 5 =>
      obtain rfl := Option.mem_some.mp hx
      exact ⟨_, rfl, rfl⟩
    | 6 => exact absurd rfl hi'
    | n + 7 => cases hx
  index := .inr ⟨[1704067200], rfl, rfl⟩

theorem get_set_candle :
    ∃ g, (((init true 900 (some Dict.empty)).set (dictRedis fun _ _ => false)
        (candleTexts (some "time") (candleEntry (some "time"))) 0 "kline:v1:k"
        (candleFrame (some "time")) candleMeta).get (dictRedis fun _ _ => false)
          (candleTexts (some "time") (candleEntry (some "time"))) 60 "kline:v1:k").2 =
        some (g, some candleMeta) ∧
      g.columns = candleColumns ∧ g.rows = (candleFrame (some "time")).rows ∧
      g.column "dts" = [1704067200].map .stamp ∧
      ((candleFrame (some "time")).index = Index.default 1 → g = candleFrame (some "time")) ∧
      ((candleFrame (some "time")).index.stored →
        g.index.labels = (candleFrame (some "time")).index.labels) ∧
      (¬ (candleFrame (some "time")).index.stored → g.index = Index.default 1) :=
  get_set (dictRedis_stores _) rfl (candleFrame_fetched _) rfl rfl
    (fun _ _ hl => by cases hl; rfl) (by norm_num) (by norm_num [init])

/-- An index named `dts` and one without a name are lost, in memory. -/
theorem candle_index_lost :
    (candleFrame (some "dts")).Fetched [1704067200] ∧ (candleFrame none).Fetched [1704067200] ∧
    (∃ g, (((init true 900 none).set (dictRedis fun _ _ => false)
        (candleTexts (some "dts") (candleEntry (some "dts"))) 0 "kline:v1:k"
        (candleFrame (some "dts")) candleMeta).get (dictRedis fun _ _ => false)
          (candleTexts (some "dts") (candleEntry (some "dts"))) 60 "kline:v1:k").2 =
        some (g, some candleMeta) ∧ g.index ≠ (candleFrame (some "dts")).index) ∧
    (∃ g, (((init true 900 none).set (dictRedis fun _ _ => false)
        (candleTexts none (candleEntry none)) 0 "kline:v1:k"
        (candleFrame none) candleMeta).get (dictRedis fun _ _ => false)
          (candleTexts none (candleEntry none)) 60 "kline:v1:k").2 =
        some (g, some candleMeta) ∧ g.index ≠ (candleFrame none).index) := by
  refine ⟨candleFrame_fetched _, candleFrame_fetched _, ⟨_, get_set_eq (dictRedis_stores _) rfl
    (candleFrame_fetched _) rfl rfl (fun h => absurd h (by decide)) (by norm_num)
    (by norm_num [init]), by decide⟩, ⟨_, get_set_eq (dictRedis_stores _) rfl
    (candleFrame_fetched _) rfl rfl (fun h => absurd h (by decide)) (by norm_num)
    (by norm_num [init]), by decide⟩⟩

end KLineCache

end Pyharmonics
