import Pyharmonics.JsonValues
import Pyharmonics.Library.Braces
import Pyharmonics.Library.TextLines

/-! The text that `json.dumps` writes. -/
namespace Pyharmonics.Json

open Braces Braces.Marks TextLines

theorem nodup_marks : ['\x7b', '\x7d', '"', '\\'].Nodup := by decide

/-- The marks of an object in JSON. -/
def marks : Marks Char := ⟨'\x7b', '\x7d', '"', '\\', nodup_marks⟩

/-- The characters that numbers are written with, those of `NaN` and `Infinity` too. -/
def isNumeral (c : Char) : Bool := c.isDigit || c ∈ "+-.eNaInfity".toList

/-- The options of a call: only ASCII or not, and how Python writes a float. -/
structure Writer where
  ensureAscii : Bool
  float : PyFloat → List Char
  float_numeral : ∀ x, ∀ c ∈ float x, isNumeral c

/-- `'\\u{0:04x}'.format(n)` -/
def unicode (n : ℕ) : List Char :=
  ['\\', 'u'] ++ (List.range 4).map fun i => Nat.digitChar (n / 16 ^ (3 - i) % 16)

/-- A character inside quotes. -/
def escape (ensureAscii : Bool) (c : Char) : List Char :=
  if c = '"' ∨ c = '\\' then ['\\', c]
  else if c = '\n' then ['\\', 'n']
  else if c = '\r' then ['\\', 'r']
  else if c = '\t' then ['\\', 't']
  else if c = '\x0c' then ['\\', 'f']
  else if c = '\x08' then ['\\', 'b']
  else if c.toNat < 32 ∨ (ensureAscii ∧ 126 < c.toNat) then
    -- above the first plane a pair of surrogates stands for the character
    if c.toNat < 0x10000 then unicode c.toNat
    else unicode (0xd800 + (c.toNat - 0x10000) / 0x400) ++
      unicode (0xdc00 + (c.toNat - 0x10000) % 0x400)
  else [c]

def quoted (ensureAscii : Bool) (s : String) : List Char :=
  '"' :: (s.toList.flatMap (escape ensureAscii) ++ ['"'])

theorem zero_numeral (_ : PyFloat) : ∀ c ∈ ['0'], isNumeral c := List.all_eq_true.mp (by decide)

/-- A call that is given no float. -/
def integerWriter : Writer := ⟨true, fun _ => ['0'], zero_numeral⟩

mutual

/-- `json.dumps(v)` -/
def dumps (w : Writer) : Json → List Char
  | .null => "null".toList
  | .bool b => (if b then "true" else "false").toList
  | .int n => (toString n).toList
  | .float x => w.float x
  | .str s => quoted w.ensureAscii s
  | .list items => '[' :: (dumpsItems w items ++ [']'])
  | .dict entries => '\x7b' :: (dumpsEntries w entries ++ ['\x7d'])

def dumpsItems (w : Writer) : List Json → List Char
  | [] => []
  | [v] => dumps w v
  | v :: rest => dumps w v ++ [',', ' '] ++ dumpsItems w rest

def dumpsEntries (w : Writer) : List (String × Json) → List Char
  | [] => []
  | [(k, v)] => quoted w.ensureAscii k ++ [':', ' '] ++ dumps w v
  | (k, v) :: rest =>
    quoted w.ensureAscii k ++ [':', ' '] ++ dumps w v ++ [',', ' '] ++ dumpsEntries w rest

end

variable {w : Writer} {c : Char} {n : ℕ} {ensureAscii : Bool} {q front : List Char} {s : String}

theorem all_marks : marks.all = ['\x7b', '\x7d', '"', '\\'] := rfl

theorem digitChar_mem (h : n < 16) : Nat.digitChar n ∈ "0123456789abcdef".toList := by
  have hall : ∀ k < 16, Nat.digitChar k ∈ "0123456789abcdef".toList := by decide
  exact hall n h

theorem exists_unicode : ∃ digits, unicode n = '\\' :: 'u' :: digits ∧
    ∀ c ∈ digits, c ∈ "0123456789abcdef".toList := by
  refine ⟨_, rfl, fun c hc => ?_⟩
  obtain ⟨i, -, rfl⟩ := List.mem_map.mp hc
  exact digitChar_mem (Nat.mod_lt _ (by decide))

theorem quoted_plain (h : ∀ c ∈ front, c ∉ marks.all) (hq : marks.Quoted q) :
    marks.Quoted (front ++ q) := by
  induction front with
  | nil => exact hq
  | cons c front ih =>
    obtain ⟨-, -, hquote, hescape⟩ := not_mem_all.mp (h c (by simp))
    exact .plain hquote hescape (ih fun d hd => h d (by simp [hd]))

theorem quoted_unicode (hq : marks.Quoted q) : marks.Quoted (unicode n ++ q) := by
  obtain ⟨digits, hdigits, hmem⟩ := exists_unicode (n := n)
  have hplain : "0123456789abcdef".toList.all (· ∉ marks.all) := by decide
  rw [hdigits]
  exact .escaped 'u' (quoted_plain (fun c hc => by simpa using List.all_eq_true.mp hplain c (hmem c hc)) hq)

theorem quoted_escape (hq : marks.Quoted q) : marks.Quoted (escape ensureAscii c ++ q) := by
  unfold escape
  split_ifs with h
  all_goals first
    | exact .escaped _ hq
    | exact quoted_unicode hq
    | (rw [List.append_assoc]; exact quoted_unicode (quoted_unicode hq))
    | skip
  push Not at h
  exact .plain h.1 h.2 hq

/-- A string is read to its own last quote. -/
theorem quoted_tail : marks.Quoted (s.toList.flatMap (escape ensureAscii) ++ ['"']) := by
  induction s.toList with
  | nil => exact .quote
  | cons c cs ih =>
    rw [List.flatMap_cons, List.append_assoc]
    exact quoted_escape ih

theorem balanced_quoted : marks.Balanced (quoted ensureAscii s) := by
  have htail : marks.Quoted (s.toList.flatMap (escape ensureAscii) ++ ['"']) := quoted_tail
  have h := Balanced.quoted htail .nil
  rw [List.append_nil] at h
  exact h

theorem balanced_of_all (h : front.all (· ∉ marks.all)) : marks.Balanced front :=
  .of_plain fun c hc => of_decide_eq_true (List.all_eq_true.mp h c hc)

theorem balanced_numeral (h : ∀ c ∈ front, isNumeral c) : marks.Balanced front := by
  have hplain : marks.all.all (!isNumeral ·) := by decide
  refine .of_plain fun c hc hmark => ?_
  simpa [h c hc] using List.all_eq_true.mp hplain c hmark

theorem isNumeral_int (n : ℤ) : ∀ c ∈ (toString n).toList, isNumeral c := by
  have hdigits : ∀ k : ℕ, ∀ c ∈ k.repr.toList, isNumeral c := by
    intro k c hc
    have hdigit := Nat.isDigit_of_mem_toDigits (b := 10) (by decide) (by decide)
      (by simpa [Nat.repr] using hc)
    simp [isNumeral, hdigit]
  intro c hc
  cases n with
  | ofNat k => exact hdigits k c hc
  | negSucc k =>
    obtain rfl | hmem : c = '-' ∨ c ∈ (k + 1).repr.toList := by
      simpa [toString, Int.repr] using hc
    · decide
    · exact hdigits (k + 1) c hmem

mutual

theorem balanced_dumps : (v : Json) → marks.Balanced (dumps w v)
  | .null => (balanced_of_all (by decide) : marks.Balanced "null".toList)
  | .bool true => (balanced_of_all (by decide) : marks.Balanced "true".toList)
  | .bool false => (balanced_of_all (by decide) : marks.Balanced "false".toList)
  | .int n => balanced_numeral (isNumeral_int n)
  | .float x => balanced_numeral (w.float_numeral x)
  | .str _ => balanced_quoted
  | .list items => .plain (by decide) ((balanced_items items).append (balanced_of_all (by decide)))
  | .dict entries => .nested (balanced_entries entries) .nil

theorem balanced_items : (items : List Json) → marks.Balanced (dumpsItems w items)
  | [] => .nil
  | [v] => balanced_dumps v
  | v :: u :: rest =>
    ((balanced_dumps v).append (balanced_of_all (by decide))).append (balanced_items (u :: rest))

theorem balanced_entries :
    (entries : List (String × Json)) → marks.Balanced (dumpsEntries w entries)
  | [] => .nil
  | [(k, v)] => (balanced_quoted.append (balanced_of_all (by decide))).append (balanced_dumps v)
  | (k, v) :: e :: rest =>
    (((balanced_quoted.append (balanced_of_all (by decide))).append (balanced_dumps v)).append
      (balanced_of_all (by decide))).append (balanced_entries (e :: rest))

end

/-- A `dict` is written as one object. -/
theorem object_dumps {entries : List (String × Json)} : marks.Object (dumps w (.dict entries)) :=
  ⟨dumpsEntries w entries, balanced_entries entries, rfl⟩

/-- No control character, and only ASCII where that is asked for. -/
def Written (ensureAscii : Bool) (c : Char) : Prop :=
  32 ≤ c.toNat ∧ (ensureAscii → c.toNat ≤ 126)

instance : Decidable (Written ensureAscii c) := by unfold Written; infer_instance

theorem written_ascii (h : Written true c) : Written ensureAscii c := ⟨h.1, fun _ => h.2 rfl⟩

theorem written_of_all (h : front.all (Written true ·)) : ∀ c ∈ front, Written ensureAscii c := by
  intro c hc
  exact written_ascii (by simpa using List.all_eq_true.mp h c hc)

theorem written_unicode : ∀ c ∈ unicode n, Written ensureAscii c := by
  obtain ⟨digits, hdigits, hmem⟩ := exists_unicode (n := n)
  rw [hdigits]
  intro c hc
  rcases List.mem_cons.mp hc with rfl | hc
  · exact written_ascii (by decide)
  rcases List.mem_cons.mp hc with rfl | hc
  · exact written_ascii (by decide)
  · have hall : "0123456789abcdef".toList.all (Written true ·) := by decide
    exact written_of_all hall c (hmem c hc)

theorem written_escape {d : Char} : ∀ c ∈ escape ensureAscii d, Written ensureAscii c := by
  unfold escape
  split_ifs with h
  · rcases h with rfl | rfl <;> exact written_of_all (by decide)
  · exact written_of_all (by decide)
  · exact written_of_all (by decide)
  · exact written_of_all (by decide)
  · exact written_of_all (by decide)
  · exact written_of_all (by decide)
  · exact written_unicode
  · intro c hc
    rcases List.mem_append.mp hc with hc | hc <;> exact written_unicode c hc
  · rename_i hplain
    push Not at hplain
    intro c hc
    obtain rfl := List.mem_singleton.mp hc
    exact hplain

theorem written_quoted : ∀ c ∈ quoted ensureAscii s, Written ensureAscii c := by
  intro c hc
  simp only [quoted, List.mem_cons, List.mem_append, List.mem_flatMap, List.not_mem_nil,
    or_false] at hc
  obtain rfl | ⟨d, -, hd⟩ | rfl := hc
  · exact written_ascii (by decide)
  · exact written_escape c hd
  · exact written_ascii (by decide)

theorem written_numeral (h : isNumeral c) : Written ensureAscii c := by
  simp only [isNumeral, Bool.or_eq_true, decide_eq_true_eq] at h
  obtain h | h := h
  · obtain ⟨hlow, hhigh⟩ := Char.isDigit_iff_toNat.mp h
    have hzero : '0'.toNat = 48 := rfl
    have hnine : '9'.toNat = 57 := rfl
    exact ⟨by omega, fun _ => by omega⟩
  · exact written_of_all (by decide) c h

mutual

theorem written_dumps : (v : Json) → ∀ c ∈ dumps w v, Written w.ensureAscii c
  | .null => (written_of_all (by decide) : ∀ c ∈ "null".toList, Written w.ensureAscii c)
  | .bool true => (written_of_all (by decide) : ∀ c ∈ "true".toList, Written w.ensureAscii c)
  | .bool false => (written_of_all (by decide) : ∀ c ∈ "false".toList, Written w.ensureAscii c)
  | .int n => fun c hc => written_numeral (isNumeral_int n c hc)
  | .float x => fun c hc => written_numeral (w.float_numeral x c hc)
  | .str _ => written_quoted
  | .list items => List.forall_mem_cons.mpr ⟨written_ascii (by decide),
      List.forall_mem_append.mpr ⟨written_items items, written_of_all (by decide)⟩⟩
  | .dict entries => List.forall_mem_cons.mpr ⟨written_ascii (by decide),
      List.forall_mem_append.mpr ⟨written_entries entries, written_of_all (by decide)⟩⟩

theorem written_items : (items : List Json) → ∀ c ∈ dumpsItems w items, Written w.ensureAscii c
  | [] => nofun
  | [v] => written_dumps v
  | v :: u :: rest => List.forall_mem_append.mpr
      ⟨List.forall_mem_append.mpr ⟨written_dumps v, written_of_all (by decide)⟩,
        written_items (u :: rest)⟩

theorem written_entries :
    (entries : List (String × Json)) → ∀ c ∈ dumpsEntries w entries, Written w.ensureAscii c
  | [] => nofun
  | [(k, v)] => written_entry k v
  | (k, v) :: e :: rest => List.forall_mem_append.mpr
      ⟨List.forall_mem_append.mpr ⟨written_entry k v, written_of_all (by decide)⟩,
        written_entries (e :: rest)⟩

theorem written_entry (k : String) (v : Json) :
    ∀ c ∈ quoted w.ensureAscii k ++ [':', ' '] ++ dumps w v, Written w.ensureAscii c :=
  List.forall_mem_append.mpr
    ⟨List.forall_mem_append.mpr ⟨written_quoted, written_of_all (by decide)⟩, written_dumps v⟩

end

/-- No line ends inside a text of ASCII characters. -/
theorem not_break_of_written (h : Written true c) : c ∉ breaks := by
  have hbreaks : breaks.all (¬ Written true ·) := by decide
  intro hc
  have hnot : ¬ Written true c := by simpa using List.all_eq_true.mp hbreaks c hc
  exact hnot h

end Pyharmonics.Json
