import Pyharmonics.Library.YamlText
import Pyharmonics.TuningScope

/-! The tuning file of a candidate run, and the constants its subprocess reads from it. -/
namespace Pyharmonics.TuningFile

open Decimals Yaml

/-- A scalar of the file. -/
inductive Item
  | int (n : ℤ)
  | float (x : ℚ)
  | str (s : String)

/-- A value of `to_dict`. -/
inductive Value
  | item (i : Item)
  | list (is : List Item)
  | dict (es : List (String × Item))

variable {i : Item} {v : Value} {w text : List Char} {α : Type}

/-- The number of digits an int may be printed with. -/
def maxStrDigits : ℕ := 4300

/-- `str(n)` -/
def intStr (n : ℤ) : Except PyError (List Char) :=
  if maxStrDigits < (digits n.natAbs).length then
    .error (.valueError ("Exceeds the limit (4300 digits) for integer string conversion; " ++
      "use sys.set_int_max_str_digits() to increase the limit") [])
  else .ok (intText n)

/-- `_yaml_scalar` of a scalar. -/
def Item.yamlScalar : Item → Except PyError (List Char)
  | .int n => intStr n
  | .float x => .ok (reprText x)
  | .str s => .ok (quoted s.toList)

/-- `_yaml_scalar` -/
def Value.yamlScalar : Value → Except PyError (List Char)
  | .item i => i.yamlScalar
  | .list is => do
    let ws ← is.mapM Item.yamlScalar
    return '[' :: ([',', ' '].intercalate ws ++ [']'])
  | .dict es => do
    let ws ← es.mapM fun e => do return entryText e.1.toList (← e.2.yamlScalar)
    return '\x7b' :: ([',', ' '].intercalate ws ++ ['\x7d'])

/-- The snapshot `run_candidate` writes of a payload. -/
def tuningYaml (payload : List (String × Value)) : Except PyError (List Char) := do
  let lines ← payload.mapM fun e => do return entryText e.1.toList (← e.2.yamlScalar)
  return ['\n'].intercalate lines ++ ['\n']

/-- The scalar a printed one is read as. -/
def Item.loaded : Item → Scalar
  | .int n => .int n
  | .float x => resolve (reprText x)
  | .str s => ofUnits (s.toList.flatMap units)

def Value.loaded : Value → Node
  | .item i => .scalar i.loaded
  | .list is => .seq (is.map Item.loaded)
  | .dict es => .map (constructMapping (es.map fun e => (.str e.1, e.2.loaded)))

def Value.items : Value → List Item
  | .item i => [i]
  | .list is => is
  | .dict es => es.map Prod.snd

def Value.keys : Value → List String
  | .item _ => []
  | .list _ => []
  | .dict es => es.map Prod.fst

/-- An int short enough to be printed. -/
def Item.short : Item → Bool
  | .int n => (digits n.natAbs).length ≤ maxStrDigits
  | .float _ => true
  | .str _ => true

/-- A float with a point in its text, or a string of characters with one code unit each. -/
def Item.shows : Item → Bool
  | .int _ => true
  | .float x => '.' ∈ reprText x
  | .str s => s.toList.all (·.toNat < 0x10000)

/-- The float is a number its text can have. -/
def Item.decimal : Item → Bool
  | .int _ => true
  | .float x => IsDecimal x
  | .str _ => true

theorem intStr_ok {n : ℤ} :
    intStr n = .ok w ↔ (digits n.natAbs).length ≤ maxStrDigits ∧ w = intText n := by
  unfold intStr
  split_ifs with h
  · constructor
    · intro heq
      cases heq
    · exact fun hn => absurd h (Nat.not_lt.mpr hn.1)
  · rw [Except.ok.injEq]
    exact ⟨fun heq => ⟨Nat.not_lt.mp h, heq.symm⟩, fun hn => hn.2.symm⟩

theorem Item.yamlScalar_ok : (∃ w, i.yamlScalar = .ok w) ↔ i.short = true := by
  cases i with
  | int n =>
    constructor
    · rintro ⟨w, hw⟩
      exact decide_eq_true (intStr_ok.mp hw).1
    · exact fun h => ⟨_, intStr_ok.mpr ⟨of_decide_eq_true h, rfl⟩⟩
  | float x => exact ⟨fun _ => rfl, fun _ => ⟨_, rfl⟩⟩
  | str s => exact ⟨fun _ => rfl, fun _ => ⟨_, rfl⟩⟩

theorem Item.reads (h : i.yamlScalar = .ok w) : Reads w i.loaded := by
  cases i with
  | int n =>
    obtain ⟨-, rfl⟩ := intStr_ok.mp h
    exact reads_int n
  | float x =>
    cases h
    exact reads_float x
  | str s =>
    cases h
    exact reads_quoted s.toList

/-- A printed value is read where its keys are plain. -/
theorem Value.reads (h : v.yamlScalar = .ok w)
    (hkeys : ∀ k ∈ v.keys, PlainKey true k.toList) : ReadsNode w v.loaded := by
  cases v with
  | item i => exact (Item.reads h).node
  | list is =>
    obtain ⟨ws, hws, h⟩ := bind_ok.mp h
    cases h
    refine readsNode_seq (List.forall₂_map_right_iff.mpr ?_)
    exact ((mapM_eq_ok.mp hws).imp fun _ _ hi => Item.reads hi).flip
  | dict es =>
    obtain ⟨ws, hws, h⟩ := bind_ok.mp h
    cases h
    refine readsNode_map (List.forall₂_map_right_iff.mpr ?_)
    have hplain : ∀ e ∈ es, PlainKey true e.1.toList := fun e he =>
      hkeys e.1 (List.mem_map_of_mem he)
    refine (((List.forall₂_and_left _ _).mpr ⟨hplain, mapM_eq_ok.mp hws⟩).imp ?_).flip
    rintro ⟨k, i⟩ w ⟨hk, hw⟩
    obtain ⟨w', hw', h⟩ := bind_ok.mp hw
    cases h
    have hentry := (Item.reads hw').readsEntry hk
    rwa [String.ofList_toList] at hentry

theorem returns_iff {β γ : Type} {x : Except PyError β} {f : β → γ} :
    (∃ c, (x >>= fun b => .ok (f b)) = .ok c) ↔ ∃ b, x = .ok b := by
  cases x with
  | error e => exact ⟨fun ⟨_, h⟩ => (by cases h), fun ⟨_, h⟩ => (by cases h)⟩
  | ok b => exact ⟨fun _ => ⟨b, rfl⟩, fun _ => ⟨f b, rfl⟩⟩

/-- A value is printed unless an int in it is too long. -/
theorem Value.yamlScalar_ok : (∃ w, v.yamlScalar = .ok w) ↔ ∀ i ∈ v.items, i.short = true := by
  cases v with
  | item i => simp [Value.yamlScalar, Value.items, Item.yamlScalar_ok]
  | list is =>
    refine returns_iff.trans (returns_mapM.trans ?_)
    exact forall₂_congr fun i _ => Item.yamlScalar_ok
  | dict es =>
    refine returns_iff.trans (returns_mapM.trans ?_)
    rw [Value.items, List.forall_mem_map]
    exact forall₂_congr fun e _ => returns_iff.trans Item.yamlScalar_ok

/-- The snapshot is written unless an int in it is too long. -/
theorem tuningYaml_ok {payload : List (String × Value)} : (∃ text, tuningYaml payload = .ok text) ↔
    ∀ e ∈ payload, ∀ i ∈ e.2.items, i.short = true := by
  refine returns_iff.trans (returns_mapM.trans ?_)
  exact forall₂_congr fun e _ => returns_iff.trans Value.yamlScalar_ok

theorem intercalate_newline {ls : List (List Char)} (h : ls ≠ []) :
    ['\n'].intercalate ls ++ ['\n'] = ls.flatMap (· ++ ['\n']) := by
  induction ls with
  | nil => exact absurd rfl h
  | cons l ls ih =>
    cases ls with
    | nil => simp
    | cons l' ls =>
      rw [List.intercalate_cons_cons, List.append_assoc, ih (by simp)]
      simp

/-- What a snapshot is read as, where its keys are plain. -/
theorem load_tuningYaml {payload : List (String × Value)} (h : tuningYaml payload = .ok text)
    (hne : payload ≠ []) (hnames : ∀ e ∈ payload, PlainKey false e.1.toList)
    (hkeys : ∀ e ∈ payload, ∀ k ∈ e.2.keys, PlainKey true k.toList) :
    load text = some (constructMapping (payload.map fun e => (.str e.1, e.2.loaded))) := by
  obtain ⟨ls, hls, h⟩ := bind_ok.mp h
  cases h
  have hlines := mapM_eq_ok.mp hls
  have hread : List.Forall₂ ReadsLine ls (payload.map fun e => (.str e.1, e.2.loaded)) := by
    refine List.forall₂_map_right_iff.mpr ?_
    refine (((List.forall₂_and_left _ _).mpr ⟨fun e he => And.intro (hnames e he) (hkeys e he),
      hlines⟩).imp ?_).flip
    rintro e line ⟨⟨hname, hkey⟩, hline⟩
    obtain ⟨w, hw, h⟩ := bind_ok.mp hline
    cases h
    exact ⟨e.1.toList, w, rfl, hname, by rw [String.ofList_toList], Value.reads hw hkey⟩
  have hls : ls ≠ [] := by
    rintro rfl
    cases hlines
    exact hne rfl
  rw [intercalate_newline hls, load_text hread]

/-- Which numbers of a float field are held as ints, by the field and the key. -/
abbrev Held := String → String → Bool

variable {held : Held}

/-- How scalars of one type are printed and read. -/
structure ItemCodec (α : Type) where
  dump : Held → String → String → α → Item
  read : Scalar → Option α
  read_dump : ∀ {held field key a}, (dump held field key a).decimal = true →
    read (dump held field key a).loaded =
      if (dump held field key a).shows then some a else none

def floatItem : ItemCodec ℚ where
  dump held field key x := if held field key ∧ x.den = 1 then .int x.num else .float x
  read
    | .int n => some n
    | .float x => some x
    | _ => none
  read_dump {held field key x} h := by
    by_cases hint : held field key = true ∧ x.den = 1
    · simp only [if_pos hint, Item.loaded, Item.shows, if_true]
      rw [Rat.coe_int_num_of_den_eq_one hint.2]
    · simp only [if_neg hint] at h ⊢
      have hdecimal : IsDecimal x := of_decide_eq_true h
      by_cases hp : '.' ∈ reprText x
      · rw [Item.loaded, resolve_float hdecimal hp, Item.shows, if_pos (decide_eq_true hp)]
      · rw [Item.loaded, resolve_pointless hp, Item.shows, if_neg (by simpa using hp)]

def intItem : ItemCodec ℤ where
  dump _ _ _ n := .int n
  read
    | .int n => some n
    | _ => none
  read_dump _ := rfl

def strItem : ItemCodec String where
  dump _ _ _ s := .str s
  read
    | .str s => some s
    | _ => none
  read_dump {held field key s} _ := by
    rw [Item.loaded, ofUnits_units, Item.shows]
    split_ifs <;> rfl

/-- How the values of a field are printed and read. -/
structure Codec (α : Type) where
  dump : Held → String → α → Value
  read : Node → Option α
  read_dump : ∀ {held field a}, (∀ i ∈ (dump held field a).items, i.decimal = true) →
    read (dump held field a).loaded =
      if ∀ i ∈ (dump held field a).items, i.shows = true then some a else none

def ItemCodec.scalar (c : ItemCodec α) : Codec α where
  dump held field a := .item (c.dump held field "" a)
  read
    | .scalar v => c.read v
    | _ => none
  read_dump {held field a} h := by
    refine (c.read_dump (h _ (by simp [Value.items]))).trans ?_
    simp [Value.items]

theorem mapM_ite {β γ : Type} {f : β → Option γ} {p : β → Prop} [DecidablePred p] {g : β → γ}
    {l : List β} (h : ∀ b ∈ l, f b = if p b then some (g b) else none) :
    l.mapM f = if ∀ b ∈ l, p b then some (l.map g) else none := by
  induction l with
  | nil => rfl
  | cons b l ih =>
    rw [List.mapM_cons, h b (by simp), ih fun a ha => h a (by simp [ha])]
    have hcons : (∀ a ∈ b :: l, p a) ↔ p b ∧ ∀ a ∈ l, p a := List.forall_mem_cons
    by_cases hb : p b
    · by_cases hl : ∀ a ∈ l, p a
      · rw [if_pos hb, if_pos hl, if_pos (hcons.mpr ⟨hb, hl⟩)]
        rfl
      · rw [if_pos hb, if_neg hl, if_neg fun hall => hl (hcons.mp hall).2]
        rfl
    · rw [if_neg hb, if_neg fun hall => hb (hcons.mp hall).1]
      rfl

/-- A tuple, read from a list. -/
def ItemCodec.tuple (c : ItemCodec α) : Codec (List α) where
  dump held field as := .list (as.map (c.dump held field ""))
  read
    | .seq vs => vs.mapM c.read
    | _ => none
  read_dump {held field as} h := by
    have hread : ∀ a ∈ as, c.read (c.dump held field "" a).loaded =
        if (c.dump held field "" a).shows = true then some (id a) else none := fun a ha =>
      c.read_dump (h _ (List.mem_map_of_mem ha))
    simp only [Value.loaded, List.mapM_map, Function.comp_def, Value.items, List.forall_mem_map]
    rw [mapM_ite hread, List.map_id]

/-- A frozen set, printed in order. -/
def nameSet : Codec (Finset String) where
  dump held field names := strItem.tuple.dump held field (sortedNames names)
  read nd := (strItem.tuple.read nd).map List.toFinset
  read_dump {held field names} h := by
    rw [strItem.tuple.read_dump h]
    split_ifs
    · rw [Option.map_some, sortedNames, Finset.sort_toFinset]
    · rfl

/-- A dict whose keys are strings. -/
def stringDict (es : List (String × α)) : Option (Dict String α) :=
  if h : (es.map Prod.fst).Nodup then some ⟨es, h⟩ else none

theorem stringDict_entries (d : Dict String α) : stringDict d.entries = some d := dif_pos d.nodup

def ItemCodec.dict (c : ItemCodec α) : Codec (Dict String α) where
  dump held field d := .dict (d.entries.map fun e => (e.1, c.dump held field e.1 e.2))
  read
    | .map d => do
      let es ← d.entries.mapM fun e => do return (← strItem.read e.1, ← c.read e.2)
      stringDict es
    | _ => none
  read_dump {held field d} h := by
    have hnodup : (((d.entries.map fun e => (e.1, c.dump held field e.1 e.2)).map fun e =>
        (Scalar.str e.1, e.2.loaded)).map Prod.fst).Nodup := by
      rw [List.map_map, List.map_map]
      have hinj : Function.Injective Scalar.str := fun a b hab => Scalar.str.inj hab
      have := d.nodup.map hinj
      rwa [List.map_map] at this
    have hread : ∀ e ∈ d.entries, (do return (← strItem.read (Scalar.str e.1),
        ← c.read (c.dump held field e.1 e.2).loaded) : Option (String × α)) =
        if (c.dump held field e.1 e.2).shows = true then some (id e) else none := by
      intro e he
      rw [c.read_dump (h _ (by
        rw [Value.items, List.map_map]
        exact List.mem_map_of_mem he))]
      split_ifs <;> rfl
    simp only [Value.loaded, constructMapping_entries hnodup, List.mapM_map, Function.comp_def,
      Value.items, List.forall_mem_map]
    rw [mapM_ite hread]
    split_ifs
    · rw [List.map_id]
      exact stringDict_entries d
    · rfl

/-- One field of the dataclass: its name, and how its value is printed and read. -/
structure Field where
  name : String
  {α : Type}
  codec : Codec α
  get : TuningFields → α
  put : α → TuningDict → TuningDict

/-- `dataclasses.fields(t)` -/
def fields : List Field :=
  [⟨"fib_tp1", floatItem.scalar, (·.fibTp1), fun a d => { d with fibTp1 := some a }⟩,
    ⟨"fib_tp2", floatItem.scalar, (·.fibTp2), fun a d => { d with fibTp2 := some a }⟩,
    ⟨"fib_tp3", floatItem.scalar, (·.fibTp3), fun a d => { d with fibTp3 := some a }⟩,
    ⟨"extended_patterns", nameSet, (·.extendedPatterns),
      fun a d => { d with extendedPatterns := some a }⟩,
    ⟨"htf_rule", strItem.dict, (·.htfRule), fun a d => { d with htfRule := some a }⟩,
    ⟨"atr_stop_buffer", floatItem.dict, (·.atrStopBuffer),
      fun a d => { d with atrStopBuffer := some a }⟩,
    ⟨"atr_prz_sweep", floatItem.scalar, (·.atrPrzSweep),
      fun a d => { d with atrPrzSweep := some a }⟩,
    ⟨"tp_close_pcts", intItem.tuple, (·.tpClosePcts), fun a d => { d with tpClosePcts := some a }⟩,
    ⟨"fee_rate", floatItem.scalar, (·.feeRate), fun a d => { d with feeRate := some a }⟩,
    ⟨"slippage_rate", floatItem.scalar, (·.slippageRate),
      fun a d => { d with slippageRate := some a }⟩,
    ⟨"max_d_age_bars", intItem.scalar, (·.maxDAgeBars),
      fun a d => { d with maxDAgeBars := some a }⟩,
    ⟨"max_prz_distance_atr", floatItem.scalar, (·.maxPrzDistanceAtr),
      fun a d => { d with maxPrzDistanceAtr := some a }⟩,
    ⟨"max_forming_prz_width_atr", floatItem.scalar, (·.maxFormingPrzWidthAtr),
      fun a d => { d with maxFormingPrzWidthAtr := some a }⟩,
    ⟨"authenticity_halve", intItem.scalar, (·.authenticityHalve),
      fun a d => { d with authenticityHalve := some a }⟩,
    ⟨"authenticity_veto", intItem.scalar, (·.authenticityVeto),
      fun a d => { d with authenticityVeto := some a }⟩,
    ⟨"adverse_sharpe_threshold", floatItem.scalar, (·.adverseSharpeThreshold),
      fun a d => { d with adverseSharpeThreshold := some a }⟩,
    ⟨"regime_moderate", intItem.scalar, (·.regimeModerate),
      fun a d => { d with regimeModerate := some a }⟩,
    ⟨"regime_high", intItem.scalar, (·.regimeHigh), fun a d => { d with regimeHigh := some a }⟩,
    ⟨"target_atr_pct", floatItem.scalar, (·.targetAtrPct),
      fun a d => { d with targetAtrPct := some a }⟩,
    ⟨"default_ttl_bars", intItem.scalar, (·.defaultTtlBars),
      fun a d => { d with defaultTtlBars := some a }⟩,
    ⟨"funding_confluence_default", intItem.scalar, (·.fundingConfluenceDefault),
      fun a d => { d with fundingConfluenceDefault := some a }⟩,
    ⟨"confluence_weights", floatItem.dict, (·.confluenceWeights),
      fun a d => { d with confluenceWeights := some a }⟩,
    ⟨"a_grade_min", intItem.scalar, (·.aGradeMin), fun a d => { d with aGradeMin := some a }⟩,
    ⟨"a_grade_min_high_quant", intItem.scalar, (·.aGradeMinHighQuant),
      fun a d => { d with aGradeMinHighQuant := some a }⟩,
    ⟨"high_quant_position_mult", floatItem.scalar, (·.highQuantPositionMult),
      fun a d => { d with highQuantPositionMult := some a }⟩,
    ⟨"pattern_base_score", floatItem.dict, (·.patternBaseScore),
      fun a d => { d with patternBaseScore := some a }⟩,
    ⟨"stability_window", intItem.scalar, (·.stabilityWindow),
      fun a d => { d with stabilityWindow := some a }⟩,
    ⟨"min_candles", intItem.scalar, (·.minCandles), fun a d => { d with minCandles := some a }⟩,
    ⟨"atr_window", intItem.scalar, (·.atrWindow), fun a d => { d with atrWindow := some a }⟩,
    ⟨"atr_long_window", intItem.scalar, (·.atrLongWindow),
      fun a d => { d with atrLongWindow := some a }⟩,
    ⟨"rsi_window", intItem.scalar, (·.rsiWindow), fun a d => { d with rsiWindow := some a }⟩,
    ⟨"volume_ma_window", intItem.scalar, (·.volumeMaWindow),
      fun a d => { d with volumeMaWindow := some a }⟩,
    ⟨"swing_lookback", intItem.scalar, (·.swingLookback),
      fun a d => { d with swingLookback := some a }⟩,
    ⟨"quant_trap_lookback", intItem.scalar, (·.quantTrapLookback),
      fun a d => { d with quantTrapLookback := some a }⟩,
    ⟨"volume_authenticity_window", intItem.scalar, (·.volumeAuthenticityWindow),
      fun a d => { d with volumeAuthenticityWindow := some a }⟩,
    ⟨"quant_regime_window", intItem.scalar, (·.quantRegimeWindow),
      fun a d => { d with quantRegimeWindow := some a }⟩,
    ⟨"per_bar_sharpe_window", intItem.scalar, (·.perBarSharpeWindow),
      fun a d => { d with perBarSharpeWindow := some a }⟩,
    ⟨"slope_trend_up", floatItem.scalar, (·.slopeTrendUp),
      fun a d => { d with slopeTrendUp := some a }⟩,
    ⟨"slope_trend_down", floatItem.scalar, (·.slopeTrendDown),
      fun a d => { d with slopeTrendDown := some a }⟩,
    ⟨"mult_trending_aligned", floatItem.scalar, (·.multTrendingAligned),
      fun a d => { d with multTrendingAligned := some a }⟩,
    ⟨"mult_ranging_aligned", floatItem.scalar, (·.multRangingAligned),
      fun a d => { d with multRangingAligned := some a }⟩,
    ⟨"mult_trending_inverse", floatItem.scalar, (·.multTrendingInverse),
      fun a d => { d with multTrendingInverse := some a }⟩,
    ⟨"mult_ranging_inverse", floatItem.scalar, (·.multRangingInverse),
      fun a d => { d with multRangingInverse := some a }⟩,
    ⟨"mult_extreme_inverse", floatItem.scalar, (·.multExtremeInverse),
      fun a d => { d with multExtremeInverse := some a }⟩,
    ⟨"mult_data_short", floatItem.scalar, (·.multDataShort),
      fun a d => { d with multDataShort := some a }⟩,
    ⟨"extreme_deviation_pct", floatItem.scalar, (·.extremeDeviationPct),
      fun a d => { d with extremeDeviationPct := some a }⟩,
    ⟨"min_daily_bars", intItem.scalar, (·.minDailyBars),
      fun a d => { d with minDailyBars := some a }⟩]

def Field.value (held : Held) (t : TuningFields) (f : Field) : Value :=
  f.codec.dump held f.name (f.get t)

/-- `to_dict` -/
def toDict (held : Held) (t : TuningFields) : List (String × Value) :=
  fields.map fun f => (f.name, f.value held t)

/-- One turn of the loop of `from_dict`; `none` is a value of a type the field is not declared
with. -/
def Field.load (loaded : Dict Scalar Node) (d : TuningDict) (f : Field) : Option TuningDict :=
  match loaded.get? (.str f.name) with
  | none => some d
  | some nd => (f.codec.read nd).map fun a => f.put a d

/-- The values `from_dict` takes from a loaded file. -/
def overrides (loaded : Dict Scalar Node) : Option TuningDict :=
  fields.foldlM (Field.load loaded) {}

/-- The constants the subprocess runs with, of the constants the candidate is run with. -/
def reload (held : Held) (t : TuningConstants) : Option TuningConstants := do
  let text ← (tuningYaml (toDict held t.toTuningFields)).toOption
  let loaded ← Yaml.load text
  let d ← overrides loaded
  (fromDict d).toOption

theorem fields_nodup : (fields.map Field.name).Nodup := by decide +kernel

theorem fields_plain : ∀ f ∈ fields, PlainKey false f.name.toList := by
  have hscans : ∀ f ∈ fields, scansKey false f.name.toList = true := by decide +kernel
  have hword : ∀ f ∈ fields, isWord f.name.toList = true := by decide +kernel
  exact fun f hf => ⟨hscans f hf, resolve_word (hword f hf)⟩

/-- Every field of these constants. -/
def every (t : TuningFields) : TuningDict := fields.foldl (fun d f => f.put (f.get t) d) {}

theorem every_over (t base : TuningFields) : (every t).over base = t := rfl

theorem foldlM_ite {β σ : Type*} {f : σ → β → Option σ} {p : β → Prop} [DecidablePred p]
    {g : σ → β → σ} {l : List β} (h : ∀ b ∈ l, ∀ s, f s b = if p b then some (g s b) else none)
    (s : σ) : l.foldlM f s = if ∀ b ∈ l, p b then some (l.foldl g s) else none := by
  induction l generalizing s with
  | nil => rfl
  | cons b l ih =>
    have hcons : (∀ a ∈ b :: l, p a) ↔ p b ∧ ∀ a ∈ l, p a := List.forall_mem_cons
    rw [List.foldlM_cons, h b (by simp)]
    by_cases hb : p b
    · rw [if_pos hb, Option.bind_eq_bind, Option.bind_some, ih fun a ha => h a (by simp [ha])]
      by_cases hl : ∀ a ∈ l, p a
      · rw [if_pos hl, if_pos (hcons.mpr ⟨hb, hl⟩), List.foldl_cons]
      · rw [if_neg hl, if_neg fun hall => hl (hcons.mp hall).2]
    · rw [if_neg hb, if_neg fun hall => hb (hcons.mp hall).1]
      rfl

variable {t : TuningFields}

/-- What a snapshot of these constants is loaded as. -/
def loadedDict (held : Held) (t : TuningFields) : Dict Scalar Node :=
  constructMapping ((toDict held t).map fun e => (.str e.1, e.2.loaded))

theorem loadedDict_get {f : Field} (hf : f ∈ fields) :
    (loadedDict held t).get? (.str f.name) = some (f.value held t).loaded := by
  have hnodup : (((toDict held t).map fun e => (Scalar.str e.1, e.2.loaded)).map
      Prod.fst).Nodup := by
    have hinj : Function.Injective Scalar.str := fun a b hab => Scalar.str.inj hab
    have := fields_nodup.map hinj
    rw [List.map_map] at this
    rw [toDict, List.map_map, List.map_map]
    exact this
  rw [Dict.get?_eq_some_iff, loadedDict, constructMapping_entries hnodup, toDict, List.map_map]
  exact List.mem_map_of_mem (f := fun f => (Scalar.str f.name, (f.value held t).loaded)) hf

/-- The loaded snapshot has every field, unless a scalar of it is read as something else. -/
theorem overrides_loadedDict (hd : ∀ f ∈ fields, ∀ i ∈ (f.value held t).items, i.decimal = true) :
    overrides (loadedDict held t) =
      if ∀ f ∈ fields, ∀ i ∈ (f.value held t).items, i.shows = true then some (every t)
      else none := by
  have hload : ∀ f ∈ fields, ∀ d, Field.load (loadedDict held t) d f =
      if ∀ i ∈ (f.value held t).items, i.shows = true then some (f.put (f.get t) d) else none := by
    intro f hf d
    rw [Field.load, loadedDict_get hf]
    simp only
    rw [Field.value, f.codec.read_dump (hd f hf)]
    split_ifs <;> rfl
  rw [overrides, foldlM_ite hload, every]

/-- The scalars of a snapshot. -/
def scalars (held : Held) (t : TuningFields) : List Item :=
  fields.flatMap fun f => (f.value held t).items

/-- The keys of the dicts of a snapshot. -/
def dictKeys (held : Held) (t : TuningFields) : List String :=
  fields.flatMap fun f => (f.value held t).keys

theorem forall_fields {P : Item → Prop} :
    (∀ f ∈ fields, ∀ i ∈ (f.value held t).items, P i) ↔ ∀ i ∈ scalars held t, P i :=
  List.forall_mem_flatMap.symm

theorem tuningYaml_toDict : (∃ text, tuningYaml (toDict held t) = .ok text) ↔
    ∀ i ∈ scalars held t, i.short = true := by
  rw [tuningYaml_ok, toDict, List.forall_mem_map]
  exact forall_fields

theorem load_toDict (h : tuningYaml (toDict held t) = .ok text)
    (hkeys : ∀ k ∈ dictKeys held t, PlainKey true k.toList) :
    Yaml.load text = some (loadedDict held t) := by
  refine load_tuningYaml h ?_ ?_ ?_
  · exact fun h => List.cons_ne_nil _ _ (List.map_eq_nil_iff.mp h)
  · exact List.forall_mem_map.mpr fields_plain
  · exact List.forall_mem_map.mpr (List.forall_mem_flatMap.mp hkeys)

/-- The snapshot is read back where its scalars are, and is not where one of them is not. -/
theorem reload_eq {t : TuningConstants}
    (hkeys : ∀ k ∈ dictKeys held t.toTuningFields, PlainKey true k.toList)
    (hd : ∀ i ∈ scalars held t.toTuningFields, i.decimal = true) :
    reload held t = if ∀ i ∈ scalars held t.toTuningFields, i.short = true ∧ i.shows = true
      then some t else none := by
  have hbuild : fromDict (every t.toTuningFields) = .ok t := by
    rw [fromDict, every_over]
    exact build_of_valid t.valid
  by_cases hshort : ∀ i ∈ scalars held t.toTuningFields, i.short = true
  · obtain ⟨text, htext⟩ := tuningYaml_toDict.mpr hshort
    have hover := overrides_loadedDict (forall_fields.mpr hd)
    simp only [reload, htext, Except.toOption, Option.bind_eq_bind, Option.bind_some,
      load_toDict htext hkeys, hover]
    by_cases hshows : ∀ i ∈ scalars held t.toTuningFields, i.shows = true
    · rw [if_pos (forall_fields.mpr hshows), if_pos fun i hi => ⟨hshort i hi, hshows i hi⟩,
        Option.bind_some, hbuild]
    · rw [if_neg fun h => hshows (forall_fields.mp h),
        if_neg fun h => hshows fun i hi => (h i hi).2]
      rfl
  · rw [if_neg fun h => hshort fun i hi => (h i hi).1]
    cases htext : tuningYaml (toDict held t.toTuningFields) with
    | error e => simp [reload, htext, Except.toOption]
    | ok text => exact absurd (tuningYaml_toDict.mp ⟨text, htext⟩) hshort

variable {x : ℚ}

/-- A snapshot is read back as the same constants exactly where every int of it is short enough
to be printed, every float of it is printed with a point, and every string of it consists of
characters with one code unit. -/
theorem reload_iff (held : Held) (t : TuningConstants)
    (hkeys : ∀ k ∈ dictKeys held t.toTuningFields, PlainKey true k.toList)
    (hd : ∀ i ∈ scalars held t.toTuningFields, i.decimal = true) :
    reload held t = some t ↔
      ∀ i ∈ scalars held t.toTuningFields, i.short = true ∧ i.shows = true := by
  rw [reload_eq hkeys hd]
  split_ifs with h
  · exact ⟨fun _ => h, fun _ => rfl⟩
  · exact ⟨fun heq => (by cases heq), fun hall => absurd hall h⟩

/-- The whole numbers of the default weights and base scores are ints. -/
def defaultHeld : Held := fun field _ =>
  field = "confluence_weights" ∨ field = "pattern_base_score"

theorem defaultKeys_plain : ∀ k ∈ dictKeys held ({ feeRate := x } : TuningFields),
    PlainKey true k.toList := by
  have hkeys : dictKeys held ({ feeRate := x } : TuningFields) = ["15m", "1h", "4h", "1d", "1w",
    "conservative", "standard", "aggressive", "price_action", "htf_trend", "rsi", "structure",
    "macd", "funding", "gartley", "bat", "butterfly", "crab", "deep crab", "shark"] := rfl
  rw [hkeys]
  decide +kernel

/-- The scalars, with the frozen set apart and in no order. -/
theorem forall_scalars {t : TuningFields} {P : Item → Prop} : (∀ i ∈ scalars held t, P i) ↔
    (∀ s ∈ t.extendedPatterns, P (.str s)) ∧
      ∀ f ∈ fields.eraseIdx 3, ∀ i ∈ (f.value held t).items, P i := by
  obtain ⟨f, hf, hvalue⟩ : ∃ f, fields = fields.take 3 ++ f :: fields.drop 4 ∧
      (f.value held t).items = (t.extendedPatterns.sort (· ≤ ·)).map .str := ⟨_, rfl, rfl⟩
  have herase : fields.eraseIdx 3 = fields.take 3 ++ fields.drop 4 := rfl
  have hnames : (∀ i ∈ (f.value held t).items, P i) ↔ ∀ s ∈ t.extendedPatterns, P (.str s) := by
    rw [hvalue, List.forall_mem_map]
    simp only [Finset.mem_sort]
  have hfields (Q : Field → Prop) : (∀ g ∈ fields, Q g) ↔
      (∀ g ∈ fields.take 3, Q g) ∧ Q f ∧ ∀ g ∈ fields.drop 4, Q g := by
    conv_lhs => rw [hf]
    rw [List.forall_mem_append, List.forall_mem_cons]
  rw [← forall_fields, hfields, herase, List.forall_mem_append, hnames]
  tauto

theorem reload_defaults : reload defaultHeld .defaults = some .defaults :=
  (reload_iff defaultHeld .defaults defaultKeys_plain (forall_scalars.mpr (by decide +kernel))).mpr
    (forall_scalars.mpr (by decide +kernel))

/-- A fee rate of a thousandth of a percent, which prints as `1e-05`. -/
def cheapFees : TuningConstants := ⟨{ feeRate := 1 / 100000 }, by decide +kernel⟩

example : reprText cheapFees.feeRate = "1e-05".toList := by decide +kernel

theorem cheapFees_lost : reload defaultHeld cheapFees ≠ some cheapFees := by
  have hd : ∀ i ∈ scalars defaultHeld cheapFees.toTuningFields, i.decimal = true :=
    forall_scalars.mpr (by decide +kernel)
  have hfee : ¬ ∀ i ∈ scalars defaultHeld cheapFees.toTuningFields,
      i.short = true ∧ i.shows = true := forall_scalars.not.mpr (by decide +kernel)
  rw [reload_eq defaultKeys_plain hd, if_neg hfee]
  exact fun h => by cases h

end Pyharmonics.TuningFile
