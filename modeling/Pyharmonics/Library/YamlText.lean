import Pyharmonics.Library.Dict
import Pyharmonics.Library.YamlScalars

/-! A reader of YAML files that have one key and one value a line. -/
namespace Yaml

open Decimals

variable {flow : Bool} {text w rest s : List Char} {c : Char} {k : ℕ} {v : Scalar} {x : ℚ} {n : ℤ}
  {key : List Char} {nd : Node}

def lineBreaks : List Char := ['\x00', '\n', '\r', '\x85', '\u2028', '\u2029']

/-- The characters a text may have. -/
def printable (c : Char) : Bool :=
  c ∈ ['\t', '\n', '\r', '\x85'] || (' ' ≤ c && c ≤ '~') ||
    ('\xa0' ≤ c && c ∉ ['\ufffe', '\uffff'])

/-- The code units of a character. -/
def units (c : Char) : List ℕ :=
  if c.toNat < 0x10000 then [c.toNat]
  else [0xd800 + (c.toNat - 0x10000) / 0x400, 0xdc00 + (c.toNat - 0x10000) % 0x400]

def hex4 (n : ℕ) : List Char :=
  [Nat.digitChar (n / 4096 % 16), Nat.digitChar (n / 256 % 16), Nat.digitChar (n / 16 % 16),
    Nat.digitChar (n % 16)]

/-- The escapes of `json.dumps` that have one character. -/
def shortEscapes : List (Char × Char) :=
  [('\x22', '\x22'), ('\\', '\\'), ('\n', 'n'), ('\r', 'r'), ('\t', 't'), ('\x0c', 'f'),
    ('\x08', 'b')]

/-- One character inside the quotes of `json.dumps`. -/
def escape (c : Char) : List Char :=
  match shortEscapes.lookup c with
  | some e => ['\\', e]
  | none =>
    if ' ' ≤ c ∧ c ≤ '~' then [c] else (units c).flatMap fun u => '\\' :: 'u' :: hex4 u

/-- `json.dumps` of a string. -/
def quoted (s : List Char) : List Char := '\x22' :: (s.flatMap escape ++ ['\x22'])

def hexDigit (c : Char) : Option ℕ :=
  let i := "0123456789abcdefABCDEF".toList.idxOf c
  if i < 16 then some i else if i < 22 then some (i - 6) else none

/-- The escapes of one character. -/
def escapes : List (Char × ℕ) :=
  [('0', 0), ('a', 7), ('b', 8), ('t', 9), ('\t', 9), ('n', 10), ('v', 11), ('f', 12), ('r', 13),
    ('e', 27), (' ', 32), ('\x22', 34), ('\\', 92), ('/', 47), ('N', 0x85), ('_', 0xa0),
    ('L', 0x2028), ('P', 0x2029)]

/-- The code units up to the closing quote. -/
def quotedRun : List Char → Option (List ℕ × List Char)
  | [] => none
  | '\x22' :: rest => some ([], rest)
  | '\\' :: 'u' :: a :: b :: c :: d :: rest => do
    let a ← hexDigit a
    let b ← hexDigit b
    let c ← hexDigit c
    let d ← hexDigit d
    let (us, rest) ← quotedRun rest
    some ((4096 * a + 256 * b + 16 * c + d) :: us, rest)
  | '\\' :: e :: rest => do
    let u ← escapes.lookup e
    let (us, rest) ← quotedRun rest
    some (u :: us, rest)
  | c :: rest =>
    if c ∈ '\\' :: lineBreaks then none
    else do
      let (us, rest) ← quotedRun rest
      some (units c ++ us, rest)

def ofUnits (us : List ℕ) : Scalar :=
  if ∀ u ∈ us, u.isValidChar then .str (String.ofList (us.map Char.ofNat)) else .surrogates us

/-- A plain scalar does not go on with this character, given what follows it. -/
def stops (flow : Bool) (c : Char) (rest : List Char) : Bool :=
  c ∈ '\t' :: lineBreaks ||
  (c = ':' && rest.head?.all fun a =>
    a ∈ ' ' :: '\t' :: lineBreaks || (flow && a ∈ [',', '[', ']', '\x7b', '\x7d'])) ||
  (flow && c ∈ [',', '?', '[', ']', '\x7b', '\x7d']) || (c = ' ' && rest.head? = some '#')

def plainRun (flow : Bool) : List Char → List Char × List Char
  | [] => ([], [])
  | c :: rest =>
    if stops flow c rest then ([], c :: rest)
    else (c :: (plainRun flow rest).1, (plainRun flow rest).2)

/-- A plain scalar can start with this character. -/
def starts (flow : Bool) (c : Char) (rest : List Char) : Bool :=
  c ∉ ' ' :: '\t' :: lineBreaks ++ "-?:,[]\x7b\x7d#&*!|>'\"%@\x60".toList ||
  (rest.head?.any (· ∉ ' ' :: '\t' :: lineBreaks) && (c = '-' || (!flow && c ∈ ['?', ':'])))

/-- A scalar; `none` is an error. -/
def scalar (flow : Bool) : List Char → Option (Scalar × List Char)
  | [] => none
  | '\x22' :: rest => (quotedRun rest).map fun p => (ofUnits p.1, p.2)
  | c :: rest =>
    if starts flow c rest then
      let (text, rest) := plainRun flow (c :: rest)
      some (resolve (text.rdropWhile (· = ' ')), rest)
    else none

def skip (text : List Char) : List Char := text.dropWhile (· = ' ')

/-- A key, which has to come to its colon within 1024 characters. -/
def simpleKey (flow : Bool) (text : List Char) : Option (Scalar × List Char) := do
  let (key, rest) ← scalar flow text
  match skip rest with
  | ':' :: after => if text.length - (skip rest).length ≤ 1024 then some (key, skip after) else none
  | _ => none

/-- The items of a flow collection up to its closing bracket. -/
def flowItems {α : Type} (close : Char) (item : List Char → Option (α × List Char)) :
    ℕ → List Char → Option (List α × List Char)
  | 0, _ => none
  | k + 1, text =>
    if (skip text).head? = some close then some ([], (skip text).tail)
    else do
      let (v, rest) ← item (skip text)
      match skip rest with
      | ',' :: rest => do
        let (vs, rest) ← flowItems close item k rest
        some (v :: vs, rest)
      | c :: rest => if c = close then some ([v], rest) else none
      | [] => none

/-- `key: value` of a flow mapping -/
def entry (text : List Char) : Option ((Scalar × Scalar) × List Char) := do
  let (key, rest) ← simpleKey true text
  let (v, rest) ← scalar true rest
  some ((key, v), rest)

inductive Node
  | scalar (v : Scalar)
  | seq (vs : List Scalar)
  | map (d : Dict Scalar Scalar)

/-- The entries as a dict: the last value of a key in the place of its first. -/
def constructMapping {α : Type} (es : List (Scalar × α)) : Dict Scalar α :=
  es.foldl (fun d e => d.set e.1 e.2) Dict.empty

/-- The value of a line; a collection has only scalars in it. -/
def node : List Char → Option (Node × List Char)
  | '[' :: rest =>
    (flowItems ']' (Yaml.scalar true) (rest.length + 1) rest).map fun p => (.seq p.1, p.2)
  | '\x7b' :: rest =>
    (flowItems '\x7d' entry (rest.length + 1) rest).map fun p => (.map (constructMapping p.1), p.2)
  | text => (Yaml.scalar false text).map fun p => (.scalar p.1, p.2)

def fileLines : ℕ → List Char → Option (List (Scalar × Node))
  | 0, _ => none
  | _ + 1, [] => some []
  | k + 1, text => do
    let (key, rest) ← simpleKey false text
    let (v, rest) ← node rest
    match skip rest with
    | '\n' :: rest => do
      let es ← fileLines k rest
      some ((key, v) :: es)
    | _ => none

/-- `yaml.safe_load` of lines with a key and a value; `none` is an error, or a text of another
form. -/
def load (text : List Char) : Option (Dict Scalar Node) :=
  if text.all printable then (fileLines (text.length + 1) text).map constructMapping else none

theorem skip_cons (h : c ≠ ' ') : skip (c :: rest) = c :: rest :=
  List.dropWhile_cons_of_neg (by simpa using h)

theorem stops_congr {r r' : List Char} (h : r.head? = r'.head?) :
    stops flow c r = stops flow c r' := by
  rw [stops, stops, h]

/-- The characters that can end a plain scalar. -/
def stopChars : List Char :=
  ' ' :: '\t' :: lineBreaks ++ [':', ',', '?', '[', ']', '\x7b', '\x7d']

theorem stops_eq_false (h : c ∉ stopChars) : stops flow c rest = false := by
  simp only [stopChars, List.mem_append, List.mem_cons, not_or] at h
  simp [stops, h]

theorem plainRun_append (hw : ∀ a ∈ w, a ∉ stopChars) (hc : stops flow c rest = true) :
    plainRun flow (w ++ c :: rest) = (w, c :: rest) := by
  induction w with
  | nil => rw [List.nil_append, plainRun, if_pos hc]
  | cons a w ih =>
    rw [List.cons_append, plainRun, stops_eq_false (hw a (by simp)), if_neg Bool.false_ne_true,
      ih fun b hb => hw b (by simp [hb])]

/-- The text is read as this scalar, wherever it stands in a file. -/
structure Reads (text : List Char) (v : Scalar) : Prop where
  head : ∃ c rest, text = c :: rest ∧ c ∉ [' ', '[', ']', '\x7b', '\x7d']
  read : ∀ {flow c rest}, stops flow c rest = true →
    scalar flow (text ++ c :: rest) = some (v, c :: rest)
  printable : ∀ c ∈ text, printable c = true

def numberChars : List Char := digitChars ++ ['.', 'e', '-', '+']

theorem starts_number (hc : c ∈ numberChars)
    (h : c = '-' → ∃ a r, rest = a :: r ∧ a ∈ numberChars) :
    starts flow c rest = true := by
  have hspace : ∀ b ∈ numberChars, b ∉ ' ' :: '\t' :: lineBreaks :=
    forall_of_all (by decide)
  have hplain : ∀ b ∈ numberChars, b = '-' ∨ b ∉ ' ' :: '\t' :: lineBreaks ++
      "-?:,[]\x7b\x7d#&*!|>'\"%@\x60".toList := forall_of_all (by decide)
  rcases hplain c hc with rfl | hplain
  · obtain ⟨a, r, rfl, ha⟩ := h rfl
    simp only [starts, List.head?_cons, Option.any_some, hspace a ha]
    simp
  · unfold starts
    rw [decide_eq_true hplain, Bool.true_or]

theorem rdropWhile_of_notMem (h : ' ' ∉ w) : w.rdropWhile (· = ' ') = w := by
  refine List.rdropWhile_eq_self_iff.mpr fun hne => ?_
  have hlast := List.getLast_mem hne
  simp only [decide_eq_true_eq]
  rintro heq
  exact h (heq ▸ hlast)

theorem reads_number (hw : ∀ a ∈ w, a ∈ numberChars) (hdigit : ∃ a ∈ w, a.isDigit = true) :
    Reads w (resolve w) := by
  have hstop : ∀ a ∈ numberChars, a ∉ stopChars := forall_of_all (by decide)
  have hhead : ∀ a ∈ numberChars, a ≠ '\x22' ∧ a ∉ [' ', '[', ']', '\x7b', '\x7d'] :=
    forall_of_all (by decide)
  obtain ⟨d, hd, hdigit⟩ := hdigit
  obtain ⟨a, w, rfl⟩ := List.exists_cons_of_ne_nil (List.ne_nil_of_mem hd)
  have ha := hw a (by simp)
  have hprintable : ∀ b ∈ numberChars, printable b = true := forall_of_all (by decide)
  refine ⟨⟨a, w, rfl, (hhead a ha).2⟩, fun {flow c rest} hc => ?_,
    fun b hb => hprintable b (hw b hb)⟩
  have hstarts : starts flow a (w ++ c :: rest) = true := by
    refine starts_number ha ?_
    rintro rfl
    have hdw : d ∈ w := (List.mem_cons.mp hd).resolve_left fun h => by subst h; cases hdigit
    obtain ⟨b, w, rfl⟩ := List.exists_cons_of_ne_nil (List.ne_nil_of_mem hdw)
    exact ⟨b, w ++ c :: rest, rfl, hw b (by simp)⟩
  have hrun := plainRun_append (fun b hb => hstop b (hw b hb)) hc
  rw [List.cons_append] at hrun ⊢
  unfold scalar
  split
  · next h => cases h
  · next h =>
    cases h
    exact absurd rfl (hhead _ ha).1
  · next h =>
    cases h
    rw [if_pos hstarts, hrun]
    simp only
    rw [rdropWhile_of_notMem]
    intro hmem
    exact hstop _ (hw _ hmem) (by decide)

theorem reads_int (n : ℤ) : Reads (intText n) (.int n) := by
  rw [← resolve_int]
  refine reads_number (fun a ha => ?_) (exists_digit_int n)
  have hsub : ∀ b ∈ digitChars ++ ['-'], b ∈ numberChars := forall_of_all (by decide)
  exact hsub a (mem_numberChars_int ha)

theorem reads_float (x : ℚ) : Reads (reprText x) (resolve (reprText x)) := by
  obtain ⟨d, hd, hdigit⟩ := exists_digit_abs x
  exact reads_number (fun a ha => mem_numberChars ha) ⟨d, mem_reprText hd, hdigit⟩

theorem hexDigit_digitChar : ∀ d < 16, hexDigit (Nat.digitChar d) = some d := by decide

theorem quotedRun_unit {u : ℕ} (hu : u < 65536) : quotedRun ('\\' :: 'u' :: (hex4 u ++ rest)) =
    (quotedRun rest).map fun p => (u :: p.1, p.2) := by
  have h (m : ℕ) : hexDigit (Nat.digitChar (m % 16)) = some (m % 16) :=
    hexDigit_digitChar _ (Nat.mod_lt m (by norm_num))
  have hsum : 4096 * (u / 4096 % 16) + 256 * (u / 256 % 16) + 16 * (u / 16 % 16) + u % 16 = u := by
    omega
  simp only [hex4, List.cons_append, List.nil_append, quotedRun, h, Option.bind_eq_bind,
    Option.bind_some, hsum]
  cases quotedRun rest <;> rfl

theorem units_lt (hu : k ∈ units c) : k < 65536 := by
  have hc : c.toNat < 0xd800 ∨ 0xdfff < c.toNat ∧ c.toNat < 0x110000 := c.valid
  unfold units at hu
  split_ifs at hu
  · simp only [List.mem_singleton] at hu
    omega
  · simp only [List.mem_cons, List.not_mem_nil, or_false] at hu
    omega

theorem quotedRun_units {us : List ℕ} (h : ∀ u ∈ us, u < 65536) :
    quotedRun ((us.flatMap fun u => '\\' :: 'u' :: hex4 u) ++ rest) =
      (quotedRun rest).map fun p => (us ++ p.1, p.2) := by
  induction us with
  | nil => cases hrest : quotedRun rest <;> simp [hrest]
  | cons u us ih =>
    rw [List.flatMap_cons, List.append_assoc, List.cons_append, List.cons_append,
      quotedRun_unit (h u (by simp)), ih fun a ha => h a (by simp [ha]), Option.map_map]
    rfl

theorem quotedRun_plain (h : ' ' ≤ c ∧ c ≤ '~') (hq : c ≠ '\x22') (hb : c ≠ '\\') :
    quotedRun (c :: rest) = (quotedRun rest).map fun p => (units c ++ p.1, p.2) := by
  have hbreak : c ∉ '\\' :: lineBreaks := by
    have hlow : ∀ a ∈ lineBreaks, ¬ (' ' ≤ a ∧ a ≤ '~') := forall_of_all (by decide)
    intro hmem
    rcases List.mem_cons.mp hmem with rfl | hmem
    · exact hb rfl
    · exact hlow c hmem h
  rw [quotedRun]
  · rw [if_neg hbreak]
    cases quotedRun rest <;> rfl
  · exact hq
  · intro a b c d rest' heq
    exact absurd heq hb
  · intro e rest' heq
    exact absurd heq hb

theorem quotedRun_short {e : Char} {u : ℕ} (hu : e ≠ 'u') (he : escapes.lookup e = some u) :
    quotedRun ('\\' :: e :: rest) = (quotedRun rest).map fun p => (u :: p.1, p.2) := by
  rw [quotedRun]
  · rw [he]
    cases quotedRun rest <;> rfl
  · intro a b c d rest' heq
    exact absurd heq hu

/-- What is escaped is read as the character, by its code units. -/
theorem quotedRun_escape (c : Char) (rest : List Char) :
    quotedRun (escape c ++ rest) = (quotedRun rest).map fun p => (units c ++ p.1, p.2) := by
  unfold escape
  split
  · next e he =>
    have hshort : ∀ p ∈ shortEscapes, p.2 ≠ 'u' ∧ escapes.lookup p.2 = some p.1.toNat ∧
        units p.1 = [p.1.toNat] := by decide
    have hmem : (c, e) ∈ shortEscapes := by
      obtain ⟨l, r, hl, -⟩ := List.lookup_eq_some_iff.mp he
      rw [hl]
      simp
    obtain ⟨hu, hlookup, hunits⟩ := hshort _ hmem
    rw [hunits]
    exact quotedRun_short hu hlookup
  · next he =>
    split_ifs with hplain
    · refine quotedRun_plain hplain ?_ ?_
      · rintro rfl
        cases he
      · rintro rfl
        cases he
    · exact quotedRun_units fun u hu => units_lt hu

theorem quotedRun_text (s rest : List Char) :
    quotedRun (s.flatMap escape ++ '\x22' :: rest) = some (s.flatMap units, rest) := by
  induction s with
  | nil => rfl
  | cons c s ih =>
    rw [List.flatMap_cons, List.append_assoc, quotedRun_escape, ih]
    rfl

theorem printable_ascii (h : ' ' ≤ c ∧ c ≤ '~') : printable c = true := by
  simp [printable, h]

theorem digitChar_printable (n : ℕ) : printable (Nat.digitChar (n % 16)) = true := by
  have hall : ∀ d < 16, printable (Nat.digitChar d) = true := by decide
  exact hall _ (Nat.mod_lt n (by norm_num))

theorem escape_printable (c : Char) : ∀ a ∈ escape c, printable a = true := by
  intro a ha
  unfold escape at ha
  split at ha
  · next e he =>
    have hshort : ∀ p ∈ shortEscapes, printable p.2 = true := by decide
    obtain ⟨l, r, hl, -⟩ := List.lookup_eq_some_iff.mp he
    have hmem : (c, e) ∈ shortEscapes := by
      rw [hl]
      simp
    rcases List.mem_cons.mp ha with rfl | ha
    · decide
    · rw [List.mem_singleton.mp ha]
      exact hshort _ hmem
  · split_ifs at ha with hplain
    · rw [List.mem_singleton.mp ha]
      exact printable_ascii hplain
    · obtain ⟨u, -, ha⟩ := List.mem_flatMap.mp ha
      simp only [hex4, List.mem_cons, List.not_mem_nil, or_false] at ha
      rcases ha with rfl | rfl | rfl | rfl | rfl | rfl
      · decide
      · decide
      · exact digitChar_printable _
      · exact digitChar_printable _
      · exact digitChar_printable _
      · exact digitChar_printable _

theorem quoted_printable (s : List Char) : ∀ a ∈ quoted s, printable a = true := by
  intro a ha
  rcases List.mem_cons.mp ha with rfl | ha
  · decide
  · rcases List.mem_append.mp ha with ha | ha
    · obtain ⟨c, -, ha⟩ := List.mem_flatMap.mp ha
      exact escape_printable c a ha
    · rw [List.mem_singleton.mp ha]
      decide

theorem reads_quoted (s : List Char) : Reads (quoted s) (ofUnits (s.flatMap units)) := by
  refine ⟨⟨_, _, rfl, by decide⟩, fun {flow c rest} _ => ?_, quoted_printable s⟩
  have htext : quoted s ++ c :: rest = '\x22' :: (s.flatMap escape ++ '\x22' :: c :: rest) := by
    simp [quoted]
  rw [htext, scalar, quotedRun_text]
  rfl

/-- A string of characters with one code unit each is read back; one with others is not. -/
theorem ofUnits_units (s : String) : ofUnits (s.toList.flatMap units) =
    if s.toList.all (·.toNat < 0x10000) = true then .str s
    else .surrogates (s.toList.flatMap units) := by
  split_ifs with hall
  · have h : ∀ c ∈ s.toList, c.toNat < 0x10000 := fun c hc =>
      of_decide_eq_true (List.all_eq_true.mp hall c hc)
    have hunits : s.toList.flatMap units = s.toList.map Char.toNat := by
      rw [← List.flatMap_pure_eq_map]
      refine List.flatMap_congr fun c hc => ?_
      rw [units, if_pos (h c hc)]
      rfl
    have hvalid : ∀ u ∈ s.toList.map Char.toNat, u.isValidChar := by
      intro u hu
      obtain ⟨c, -, rfl⟩ := List.mem_map.mp hu
      exact c.valid
    have hchars : (s.toList.map Char.toNat).map Char.ofNat = s.toList := by
      rw [List.map_map]
      conv_rhs => rw [← List.map_id s.toList]
      exact List.map_congr_left fun c _ => Char.ofNat_toNat c
    rw [hunits, ofUnits, if_pos hvalid, hchars, String.ofList_toList]
  · rw [ofUnits, if_neg]
    intro hvalid
    refine hall (List.all_eq_true.mpr fun c hc => decide_eq_true ?_)
    by_contra hbig
    have hlt : c.toNat < 0xd800 ∨ 0xdfff < c.toNat ∧ c.toNat < 0x110000 := c.valid
    have hu : 0xd800 + (c.toNat - 0x10000) / 0x400 ∈ s.toList.flatMap units := by
      refine List.mem_flatMap.mpr ⟨c, hc, ?_⟩
      rw [units, if_neg hbig]
      simp
    have hv : 0xd800 + (c.toNat - 0x10000) / 0x400 < 0xd800 ∨
        0xdfff < 0xd800 + (c.toNat - 0x10000) / 0x400 ∧ _ := hvalid _ hu
    omega

/-- The scanner takes the key as it stands, in front of its colon. -/
def scansKey (flow : Bool) (key : List Char) : Bool :=
  (match key with
    | [] => false
    | c :: rest => starts flow c (rest ++ [':', ' '])) &&
  plainRun flow (key ++ [':', ' ']) = (key, [':', ' ']) && key.getLast? ≠ some ' ' &&
  key.length ≤ 1024 && key.all printable

/-- The key is read as itself. -/
structure PlainKey (flow : Bool) (key : List Char) : Prop where
  scans : scansKey flow key = true
  string : resolve key = .str (String.ofList key)

instance : Decidable (PlainKey flow key) :=
  decidable_of_iff (scansKey flow key = true ∧ resolve key = .str (String.ofList key))
    ⟨fun h => ⟨h.1, h.2⟩, fun h => ⟨h.scans, h.string⟩⟩

theorem scansKey_cases (h : scansKey flow key = true) : ∃ c rest, key = c :: rest ∧
    starts flow c (rest ++ [':', ' ']) = true ∧
    plainRun flow (key ++ [':', ' ']) = (key, [':', ' ']) ∧ key.getLast? ≠ some ' ' ∧
    key.length ≤ 1024 ∧ ∀ a ∈ key, printable a = true := by
  simp only [scansKey, Bool.and_eq_true, decide_eq_true_eq, List.all_eq_true] at h
  obtain ⟨⟨⟨⟨hstart, hrun⟩, hlast⟩, hlen⟩, hprintable⟩ := h
  cases key with
  | nil => cases hstart
  | cons c rest => exact ⟨c, rest, rfl, hstart, hrun, hlast, hlen, hprintable⟩

theorem plainRun_key (h : plainRun flow (w ++ [':', ' ']) = (w, [':', ' '])) :
    plainRun flow (w ++ ':' :: ' ' :: rest) = (w, ':' :: ' ' :: rest) := by
  induction w with
  | nil =>
    have hstop : stops flow ':' (' ' :: rest) = true := by simp [stops]
    rw [List.nil_append, plainRun, if_pos hstop]
  | cons c w ih =>
    have hhead : (w ++ [':', ' ']).head? = (w ++ ':' :: ' ' :: rest).head? := by
      cases w <;> rfl
    rw [List.cons_append, plainRun, stops_congr hhead] at h
    rw [List.cons_append, plainRun]
    split_ifs at h ⊢ with hstop
    · cases h
    · obtain ⟨hw, hrest⟩ := Prod.mk.inj h
      have := ih (Prod.ext (List.cons.inj hw).2 hrest)
      rw [this]

theorem starts_congr {r r' : List Char} (h : r.head? = r'.head?) :
    starts flow c r = starts flow c r' := by
  rw [starts, starts, h]

theorem starts_quote : starts flow '\x22' rest = false := by
  have hmem : '\x22' ∈ ' ' :: '\t' :: lineBreaks ++ "-?:,[]\x7b\x7d#&*!|>'\"%@\x60".toList := by
    decide
  simp only [starts, not_true_eq_false, decide_false, hmem]
  simp

/-- A plain key is read in front of its value. -/
theorem simpleKey_plain (h : PlainKey flow key) (hc : c ≠ ' ') :
    simpleKey flow (key ++ ':' :: ' ' :: c :: rest) =
      some (.str (String.ofList key), c :: rest) := by
  obtain ⟨d, key', hkey, hstart, hrun, hlast, hlen, -⟩ := scansKey_cases h.scans
  have hhead : (key' ++ [':', ' ']).head? = (key' ++ ':' :: ' ' :: c :: rest).head? := by
    cases key' <;> rfl
  have hstarts : starts flow d (key' ++ ':' :: ' ' :: c :: rest) = true := by
    rw [← starts_congr hhead]
    exact hstart
  have htrim : key.rdropWhile (· = ' ') = key := by
    refine List.rdropWhile_eq_self_iff.mpr fun hne => ?_
    rw [List.getLast?_eq_some_getLast hne] at hlast
    simpa using hlast
  have hscalar : scalar flow (key ++ ':' :: ' ' :: c :: rest) =
      some (.str (String.ofList key), ':' :: ' ' :: c :: rest) := by
    have hrun' : plainRun flow (key ++ ':' :: ' ' :: c :: rest) = (key, ':' :: ' ' :: c :: rest) :=
      plainRun_key hrun
    rw [hkey, List.cons_append] at hrun' ⊢
    unfold scalar
    split
    · next heq => cases heq
    · next heq =>
      cases heq
      rw [starts_quote] at hstarts
      cases hstarts
    · next heq =>
      cases heq
      rw [if_pos hstarts, hrun']
      simp only [← hkey, htrim, h.string]
  have hcolon : skip (':' :: ' ' :: c :: rest) = ':' :: ' ' :: c :: rest := skip_cons (by decide)
  have hafter : skip (' ' :: c :: rest) = c :: rest := skip_cons hc
  have hlength : (key ++ ':' :: ' ' :: c :: rest).length -
      (':' :: ' ' :: c :: rest).length ≤ 1024 := by
    rw [List.length_append]
    omega
  unfold simpleKey
  simp only [hscalar, Option.bind_eq_bind, Option.bind_some, hcolon, hafter, if_pos hlength]

theorem stops_flow (hc : c ∈ [',', ']', '\x7d']) : stops true c rest = true := by
  have hmem : c ∈ [',', '?', '[', ']', '\x7b', '\x7d'] := by
    have hall : ∀ a ∈ [',', ']', '\x7d'], a ∈ [',', '?', '[', ']', '\x7b', '\x7d'] :=
      forall_of_all (by decide)
    exact hall c hc
  simp [stops, hmem]

section FlowItems

variable {α : Type} {close : Char} {item : List Char → Option (α × List Char)} {a : α}

/-- The text is read as this item of a flow collection. -/
structure ReadsItem (close : Char) (item : List Char → Option (α × List Char)) (text : List Char)
    (a : α) : Prop where
  head : ∃ c rest, text = c :: rest ∧ c ≠ ' ' ∧ c ≠ close
  read : ∀ {c rest}, c = ',' ∨ c = close → item (text ++ c :: rest) = some (a, c :: rest)

theorem ReadsItem.skip_append (hw : ReadsItem close item w a) : skip (w ++ rest) = w ++ rest := by
  obtain ⟨c, w', rfl, hc, -⟩ := hw.head
  exact skip_cons hc

theorem ReadsItem.head_ne (hw : ReadsItem close item w a) : (w ++ rest).head? ≠ some close := by
  obtain ⟨c, w', rfl, -, hc⟩ := hw.head
  exact fun h => hc (Option.some_inj.mp h)

theorem flowItems_step (hw : ReadsItem close item w a) :
    flowItems close item (k + 1) (w ++ ',' :: rest) =
      (flowItems close item k rest).map fun p => (a :: p.1, p.2) := by
  have hskip : skip (',' :: rest) = ',' :: rest := skip_cons (by decide)
  rw [flowItems, hw.skip_append, if_neg hw.head_ne, hw.read (.inl rfl)]
  simp only [Option.bind_eq_bind, Option.bind_some, hskip]
  cases flowItems close item k rest <;> rfl

theorem flowItems_last (hw : ReadsItem close item w a) (hclose : close ≠ ' ')
    (hcomma : close ≠ ',') :
    flowItems close item (k + 1) (w ++ close :: rest) = some ([a], rest) := by
  have hskip : skip (close :: rest) = close :: rest := skip_cons hclose
  rw [flowItems, hw.skip_append, if_neg hw.head_ne, hw.read (.inr rfl)]
  simp only [Option.bind_eq_bind, Option.bind_some, hskip, if_true]

theorem flowItems_space : flowItems close item k (' ' :: rest) = flowItems close item k rest := by
  cases k <;> rfl

/-- The items of a flow collection are read up to its closing bracket. -/
theorem flowItems_text {ws : List (List Char)} {as : List α}
    (h : List.Forall₂ (ReadsItem close item) ws as) (hclose : close ≠ ' ') (hcomma : close ≠ ',')
    (hk : ws.length < k) :
    flowItems close item k ([',', ' '].intercalate ws ++ close :: rest) = some (as, rest) := by
  induction h generalizing k with
  | nil =>
    obtain ⟨k, rfl⟩ := Nat.exists_eq_succ_of_ne_zero (Nat.ne_zero_of_lt hk)
    rw [List.intercalate_nil, List.nil_append, flowItems, skip_cons hclose,
      if_pos (by rfl : (close :: rest).head? = some close)]
    rfl
  | @cons w a ws as hw hws ih =>
    obtain ⟨k, rfl⟩ := Nat.exists_eq_succ_of_ne_zero (Nat.ne_zero_of_lt hk)
    rw [List.length_cons] at hk
    cases hws with
    | nil => rw [List.intercalate_singleton, flowItems_last hw hclose hcomma]
    | cons hw' hws' =>
      rw [List.intercalate_cons_cons, List.append_assoc, List.append_assoc, List.cons_append,
        List.cons_append, List.nil_append, flowItems_step hw, flowItems_space, ih (by omega)]
      rfl

end FlowItems

theorem Reads.item (hw : Reads w v) : ReadsItem ']' (scalar true) w v := by
  obtain ⟨c, w', hw', hc⟩ := hw.head
  refine ⟨⟨c, w', hw', fun h => hc (by simp [h]), fun h => hc (by simp [h])⟩, fun hc => ?_⟩
  refine hw.read (stops_flow ?_)
  rcases hc with rfl | rfl <;> decide

/-- `key: value` -/
def entryText (key w : List Char) : List Char := key ++ ':' :: ' ' :: w

theorem PlainKey.head (h : PlainKey flow w) : ∃ c w', w = c :: w' ∧ c ≠ ' ' ∧ c ≠ '\x7d' := by
  obtain ⟨c, w', hw, hstart, -⟩ := scansKey_cases h.scans
  refine ⟨c, w', hw, ?_, ?_⟩
  · rintro rfl
    simp [starts] at hstart
  · rintro rfl
    simp [starts] at hstart

theorem simpleKey_entry (hkey : PlainKey flow key) (hw : ∃ c t, w = c :: t ∧ c ≠ ' ') :
    simpleKey flow (entryText key w ++ rest) = some (.str (String.ofList key), w ++ rest) := by
  obtain ⟨c, t, rfl, hc⟩ := hw
  rw [entryText, List.append_assoc, List.cons_append, List.cons_append, List.cons_append,
    simpleKey_plain hkey hc]

theorem Reads.entry (hkey : PlainKey true key) (hw : Reads w v) :
    ReadsItem '\x7d' entry (entryText key w) (.str (String.ofList key), v) := by
  obtain ⟨c, t, ht, hc⟩ := hw.head
  obtain ⟨d, key', hd, hspace, hbrace⟩ := hkey.head
  refine ⟨⟨d, _, by rw [entryText, hd]; rfl, hspace, hbrace⟩, fun {c' rest} hc' => ?_⟩
  have hstop : stops true c' rest = true := by
    refine stops_flow ?_
    rcases hc' with rfl | rfl <;> decide
  rw [Yaml.entry, simpleKey_entry hkey ⟨c, t, ht, fun h => hc (by simp [h])⟩]
  simp only [Option.bind_eq_bind, Option.bind_some, hw.read hstop]

/-- The text is read as this value of a line. -/
structure ReadsNode (text : List Char) (nd : Node) : Prop where
  head : ∃ c rest, text = c :: rest ∧ c ≠ ' '
  read : ∀ {rest}, node (text ++ '\n' :: rest) = some (nd, '\n' :: rest)
  printable : ∀ c ∈ text, Yaml.printable c = true

theorem Reads.node (hw : Reads w v) : ReadsNode w (.scalar v) := by
  obtain ⟨c, t, ht, hc⟩ := hw.head
  refine ⟨⟨c, t, ht, fun h => hc (by simp [h])⟩, fun {rest} => ?_, hw.printable⟩
  have hread : scalar false (w ++ '\n' :: rest) = some (v, '\n' :: rest) := hw.read (by rfl)
  unfold Yaml.node
  split
  · next heq =>
    rw [ht] at heq
    exact absurd (List.cons.inj heq).1 fun h => hc (by simp [h])
  · next heq =>
    rw [ht] at heq
    exact absurd (List.cons.inj heq).1 fun h => hc (by simp [h])
  · rw [hread]
    rfl

theorem length_le_intercalate {ws : List (List Char)} :
    ws.length ≤ ([',', ' '].intercalate ws).length + 1 := by
  induction ws with
  | nil => simp
  | cons w ws ih =>
    cases ws with
    | nil => simp
    | cons w' ws =>
      rw [List.intercalate_cons_cons, List.length_append, List.length_append]
      simp only [List.length_cons, List.length_nil] at ih ⊢
      omega

theorem mem_intercalate {ws : List (List Char)} (h : c ∈ [',', ' '].intercalate ws) :
    c ∈ [',', ' '] ∨ ∃ w ∈ ws, c ∈ w := by
  induction ws with
  | nil => cases h
  | cons w ws ih =>
    cases ws with
    | nil => exact .inr ⟨w, by simp, by simpa using h⟩
    | cons w' ws =>
      rw [List.intercalate_cons_cons, List.mem_append, List.mem_append] at h
      rcases h with (h | h) | h
      · exact .inr ⟨w, by simp, h⟩
      · exact .inl h
      · rcases ih h with h | ⟨u, hu, hc⟩
        · exact .inl h
        · exact .inr ⟨u, List.mem_cons_of_mem _ hu, hc⟩

/-- The printable characters of a flow collection. -/
theorem collection_printable {ws : List (List Char)} {a b : Char} (ha : printable a = true)
    (hb : printable b = true) (h : ∀ w ∈ ws, ∀ c ∈ w, printable c = true) :
    ∀ c ∈ a :: ([',', ' '].intercalate ws ++ [b]), printable c = true := by
  intro c hc
  rcases List.mem_cons.mp hc with rfl | hc
  · exact ha
  · rcases List.mem_append.mp hc with hc | hc
    · rcases mem_intercalate hc with hc | ⟨w, hw, hc⟩
      · have hall : ∀ c ∈ [',', ' '], printable c = true := forall_of_all (by decide)
        exact hall c hc
      · exact h w hw c hc
    · rw [List.mem_singleton.mp hc]
      exact hb

theorem forall₂_left {α β : Type} {R : α → β → Prop} {P : α → Prop} {l : List α} {r : List β}
    (h : List.Forall₂ R l r) (hP : ∀ a b, R a b → P a) : ∀ a ∈ l, P a := by
  intro a ha
  induction h with
  | nil => cases ha
  | cons hab _ ih =>
    rcases List.mem_cons.mp ha with rfl | ha
    · exact hP _ _ hab
    · exact ih ha

theorem readsNode_seq {ws : List (List Char)} {vs : List Scalar} (h : List.Forall₂ Reads ws vs) :
    ReadsNode ('[' :: ([',', ' '].intercalate ws ++ [']'])) (.seq vs) := by
  refine ⟨⟨_, _, rfl, by decide⟩, fun {rest} => ?_, ?_⟩
  · have hitems := h.imp fun _ _ hw => hw.item
    have hlen : ws.length < ([',', ' '].intercalate ws ++ ']' :: '\n' :: rest).length + 1 := by
      have := @length_le_intercalate ws
      rw [List.length_append, List.length_cons]
      omega
    have htext : '[' :: ([',', ' '].intercalate ws ++ [']']) ++ '\n' :: rest =
        '[' :: ([',', ' '].intercalate ws ++ ']' :: '\n' :: rest) := by simp
    rw [htext, node, flowItems_text hitems (by decide) (by decide) hlen]
    rfl
  · exact collection_printable rfl rfl (forall₂_left h fun _ _ hw => hw.printable)

/-- The entry is read as this key and this scalar. -/
structure ReadsEntry (text : List Char) (e : Scalar × Scalar) : Prop where
  item : ReadsItem '\x7d' entry text e
  printable : ∀ c ∈ text, Yaml.printable c = true

theorem PlainKey.printable (h : PlainKey flow key) : ∀ c ∈ key, Yaml.printable c = true := by
  obtain ⟨-, -, -, -, -, -, -, hprintable⟩ := scansKey_cases h.scans
  exact hprintable

theorem entryText_printable (hkey : PlainKey flow key)
    (hw : ∀ c ∈ w, printable c = true) : ∀ c ∈ entryText key w, printable c = true := by
  intro c hc
  rcases List.mem_append.mp hc with hc | hc
  · exact hkey.printable c hc
  · rcases List.mem_cons.mp hc with rfl | hc
    · decide
    · rcases List.mem_cons.mp hc with rfl | hc
      · decide
      · exact hw c hc

theorem Reads.readsEntry (hkey : PlainKey true key) (hw : Reads w v) :
    ReadsEntry (entryText key w) (.str (String.ofList key), v) :=
  ⟨hw.entry hkey, entryText_printable hkey hw.printable⟩

theorem readsNode_map {ws : List (List Char)} {es : List (Scalar × Scalar)}
    (h : List.Forall₂ ReadsEntry ws es) :
    ReadsNode ('\x7b' :: ([',', ' '].intercalate ws ++ ['\x7d'])) (.map (constructMapping es)) := by
  refine ⟨⟨_, _, rfl, by decide⟩, fun {rest} => ?_, ?_⟩
  · have hitems := h.imp fun _ _ hw => hw.item
    have hlen : ws.length < ([',', ' '].intercalate ws ++ '\x7d' :: '\n' :: rest).length + 1 := by
      have := @length_le_intercalate ws
      rw [List.length_append, List.length_cons]
      omega
    have htext : '\x7b' :: ([',', ' '].intercalate ws ++ ['\x7d']) ++ '\n' :: rest =
        '\x7b' :: ([',', ' '].intercalate ws ++ '\x7d' :: '\n' :: rest) := by simp
    rw [htext, node, flowItems_text hitems (by decide) (by decide) hlen]
    rfl
  · exact collection_printable rfl rfl (forall₂_left h fun _ _ hw => hw.printable)

/-- The line is read as this key and this value. -/
structure ReadsLine (line : List Char) (e : Scalar × Node) : Prop where
  entry : ∃ key w, line = entryText key w ∧ PlainKey false key ∧
    e.1 = .str (String.ofList key) ∧ ReadsNode w e.2

theorem ReadsLine.printable {line : List Char} {e : Scalar × Node} (h : ReadsLine line e) :
    ∀ c ∈ line, Yaml.printable c = true := by
  obtain ⟨key, w, rfl, hkey, -, hw⟩ := h.entry
  exact entryText_printable hkey hw.printable

/-- The lines of a file are read as its keys and their values. -/
theorem fileLines_text {ls : List (List Char)} {es : List (Scalar × Node)}
    (h : List.Forall₂ ReadsLine ls es) (hk : ls.length < k) :
    fileLines k (ls.flatMap (· ++ ['\n'])) = some es := by
  induction h generalizing k with
  | nil =>
    obtain ⟨k, rfl⟩ := Nat.exists_eq_succ_of_ne_zero (Nat.ne_zero_of_lt hk)
    rfl
  | @cons line e ls es hline hls ih =>
    obtain ⟨k, rfl⟩ := Nat.exists_eq_succ_of_ne_zero (Nat.ne_zero_of_lt hk)
    rw [List.length_cons] at hk
    obtain ⟨key, w, rfl, hkey, hstr, hw⟩ := hline.entry
    obtain ⟨d, key', hd, -, -⟩ := hkey.head
    have htext : (entryText key w :: ls).flatMap (· ++ ['\n']) =
        entryText key w ++ '\n' :: ls.flatMap (· ++ ['\n']) := by simp
    have hskip : skip ('\n' :: ls.flatMap (· ++ ['\n'])) = '\n' :: ls.flatMap (· ++ ['\n']) :=
      skip_cons (by decide)
    have hne : entryText key w ++ '\n' :: ls.flatMap (· ++ ['\n']) ≠ [] := by simp
    have hrest : fileLines k (ls.flatMap (· ++ ['\n'])) = some es := ih (by omega)
    rw [htext, fileLines]
    · rw [simpleKey_entry hkey hw.head]
      simp only [Option.bind_eq_bind, Option.bind_some, hw.read, hskip, hrest]
      rw [← hstr]
    · exact hne

theorem foldl_set_entries {α : Type} {es : List (Scalar × α)} {d : Dict Scalar α}
    (h : (d.keys ++ es.map Prod.fst).Nodup) :
    (es.foldl (fun d e => d.set e.1 e.2) d).entries = d.entries ++ es := by
  induction es generalizing d with
  | nil => rw [List.foldl_nil, List.append_nil]
  | cons e es ih =>
    rw [List.map_cons, List.nodup_append] at h
    have hnot : e.1 ∉ d.keys := fun hmem => h.2.2 e.1 hmem e.1 (by simp) rfl
    have hset := Dict.entries_set_of_notMem (v := e.2) hnot
    have hkeys : (d.set e.1 e.2).keys = d.keys ++ [e.1] := by
      rw [Dict.keys, hset, List.map_append]
      rfl
    have hnodup : ((d.set e.1 e.2).keys ++ es.map Prod.fst).Nodup := by
      rw [hkeys, List.append_assoc, List.singleton_append, List.nodup_append]
      exact h
    rw [List.foldl_cons, ih hnodup, hset, List.append_assoc, List.singleton_append]

theorem constructMapping_entries {α : Type} {es : List (Scalar × α)} (h : (es.map Prod.fst).Nodup) :
    (constructMapping es).entries = es :=
  foldl_set_entries h

theorem length_le_lines {ls : List (List Char)} :
    ls.length ≤ (ls.flatMap (· ++ ['\n'])).length := by
  induction ls with
  | nil => simp
  | cons line ls ih =>
    rw [List.flatMap_cons, List.length_append, List.length_append]
    simp only [List.length_cons, List.length_nil]
    omega

/-- A file of lines with different keys is read as the dict of its lines. -/
theorem load_text {ls : List (List Char)} {es : List (Scalar × Node)}
    (h : List.Forall₂ ReadsLine ls es) :
    load (ls.flatMap (· ++ ['\n'])) = some (constructMapping es) := by
  have hprintable : (ls.flatMap (· ++ ['\n'])).all printable = true := by
    refine List.all_eq_true.mpr fun c hc => ?_
    obtain ⟨line, hline, hc⟩ := List.mem_flatMap.mp hc
    rcases List.mem_append.mp hc with hc | hc
    · exact forall₂_left h (fun _ _ hl => hl.printable) line hline c hc
    · rw [List.mem_singleton.mp hc]
      decide
  have hlen : ls.length < (ls.flatMap (· ++ ['\n'])).length + 1 :=
    Nat.lt_succ_of_le length_le_lines
  rw [load, if_pos hprintable, fileLines_text h hlen]
  rfl

end Yaml
