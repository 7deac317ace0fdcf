import Pyharmonics.Library.TextLines
import Pyharmonics.VibeOrchestrator

/-! The log of durable facts: each promotion adds an entry and marks the one it supersedes. -/
namespace Pyharmonics.DurableFacts

open TextLines VibeAgent

/-- A call of `promote_episodic_to_durable`, with what `uuid4` and the clock gave. -/
structure Promotion where
  episodicKey : List Char
  durableSummary : List Char
  source : List Char
  content : List Char
  durableUuid : BitVec 32
  now : List Char
  deriving DecidableEq

/-- `uuid4().hex[:8]`, of the first 32 bits. -/
def hex (u : BitVec 32) : List Char :=
  (List.range 8).map fun i => Nat.digitChar (u.toNat / 16 ^ (7 - i) % 16)

def marker : List Char := "<!-- Entries are append-only. Format:".toList

/-- What the last line of an entry starts with. -/
def label : List Char := "- **superseded_by**: ".toList

def none_ : List Char := "_none_".toList

/-- What the file is before the first entry, where there is none. -/
def template : List Char :=
  flat ["# Durable Facts — cryptoagg".toList, [],
    "> Append-only log of durable project facts.".toList,
    "> NEVER delete entries — mark superseded ".toList ++ "with \x60superseded_by\x60.".toList, [],
    "## Entries".toList, [], marker, [],
    "### [uuid] — \x7bfact summary\x7d".toList, "- **Created**: \x7bdate\x7d".toList,
    "- **Content**: \x7bdescription\x7d".toList,
    "- **Source**: ".toList ++ "\x7bgit commit or decision reference\x7d".toList,
    label ++ "\x7buuid if applicable\x7d".toList, [], "-->".toList]

/-- The lines of an entry before its last. -/
def facts (c : Promotion) : List Char :=
  "### [".toList ++ hex c.durableUuid ++ "] — ".toList ++ c.durableSummary ++ ['\n'] ++
    "- **Created**: ".toList ++ c.now ++ ['\n'] ++
    "- **Source**: ".toList ++ c.source ++ ['\n'] ++
    "- **Content**: ".toList ++ c.content ++ ['\n']

def newEntry (c : Promotion) : List Char := facts c ++ label ++ none_ ++ ['\n']

def rstrip (text : List Char) : List Char := text.rdropWhile isSpace

def strip (text : List Char) : List Char := rstrip (text.dropWhile isSpace)

/-- Space around a text that neither starts nor ends with it. -/
theorem strip_core {front core back : List Char} (hfront : ∀ c ∈ front, isSpace c)
    (hback : ∀ c ∈ back, isSpace c) (hhead : ∀ c ∈ core.head?, isSpace c = false)
    (hlast : ∀ c ∈ core.getLast?, isSpace c = false) (hne : core ≠ []) :
    strip (front ++ core ++ back) = core := by
  have hstart : (front ++ core ++ back).dropWhile isSpace = core ++ back := by
    obtain ⟨c, core, rfl⟩ := List.exists_cons_of_ne_nil hne
    rw [List.append_assoc, List.dropWhile_append_of_pos hfront]
    simp [hhead c rfl]
  have hend : rstrip (core ++ back) = core := by
    have hself : core.rdropWhile isSpace = core := by
      refine List.rdropWhile_eq_self_iff.mpr fun hl => ?_
      simp [hlast _ (List.getLast?_eq_some_getLast hl)]
    rw [rstrip, List.rdropWhile, List.reverse_append,
      List.dropWhile_append_of_pos (by simpa using hback)]
    exact hself
  rw [strip, hstart, hend]

/-- A line that opens the section of a key. -/
def opens (episodicKey line : List Char) : Bool :=
  ("**Content**: ".toList ++ episodicKey <:+: line) || (episodicKey <:+: line)

/-- The last line of an entry that nothing supersedes, or one that reads like it. -/
def isLive (line : List Char) : Bool := (label ++ none_).isPrefixOf (strip line)

/-- `_mark_superseded` -/
def markSuperseded (file : Option (List Char)) (episodicKey : List Char) (newUuid : BitVec 32) :
    Option (List Char) :=
  file.map fun raw =>
    joinLines (editClosing (opens episodicKey) isLive (fun _ => label ++ hex newUuid) false
      (splitLines (universal raw)))

/-- The last part of `promote_episodic_to_durable`: the entry goes before the marker. -/
def insertEntry (contentText : List Char) (c : Promotion) : List Char :=
  match contentText.dropInfix? marker with
  | some (header, tail) =>
    rstrip header ++ ['\n', '\n'] ++ newEntry c ++ ['\n'] ++ (marker ++ tail)
  | none => contentText ++ ['\n'] ++ newEntry c

/-- `promote_episodic_to_durable`: the file, and the uuid it returns. -/
def promoteEpisodicToDurable (file : Option (List Char)) (c : Promotion) :
    List Char × List Char :=
  let contentText := match markSuperseded file c.episodicKey c.durableUuid with
    | some raw => universal raw
    | none => template
  (insertEntry contentText c, hex c.durableUuid)

/-- The file after some calls. -/
def durableFile (start : Option (List Char)) (calls : List Promotion) : Option (List Char) :=
  calls.foldl (fun file c => some (promoteEpisodicToDurable file c).1) start

/-- What a call wrote, and the call that supersedes it. -/
structure Entry where
  promotion : Promotion
  supersededBy : Option (BitVec 32)
  deriving DecidableEq

/-- An entry per call; the next call of its key supersedes it. -/
def chain : List Promotion → List Entry
  | [] => []
  | c :: later =>
    ⟨c, (later.find? (·.episodicKey = c.episodicKey)).map (·.durableUuid)⟩ :: chain later

/-- The last line of an entry. -/
def Entry.closing (e : Entry) : List Char :=
  label ++ match e.supersededBy with
    | none => none_
    | some u => hex u

def Entry.text (e : Entry) : List Char :=
  ['\n'] ++ facts e.promotion ++ e.closing ++ ['\n']

/-- The lines of the file before the first call. -/
def startLines (start : Option (List Char)) : List (List Char) :=
  match start with
  | some raw => splitLines (universal raw)
  | none => []

/-- The text the first call adds its entry to. -/
def startText (start : Option (List Char)) : List Char :=
  match start with
  | some _ => joinLines (startLines start)
  | none => template

/-- The text before the entries and the text after them. -/
def around (start : Option (List Char)) : List Char × List Char :=
  match (startText start).dropInfix? marker with
  | some (header, tail) => (rstrip header ++ ['\n'], ['\n'] ++ (marker ++ tail))
  | none => (startText start, [])

/-- The file with the entries. -/
def durableText (start : Option (List Char)) (entries : List Entry) : List Char :=
  (around start).1 ++ entries.flatMap Entry.text ++ (around start).2

/-- After every call the file has an entry for each call so far, with what supersedes it, and the
call has left the entries of other keys as they were. -/
structure Chained (start : Option (List Char)) (calls : List Promotion) : Prop where
  file : ∀ (n : ℕ) (c : Promotion), calls[n]? = some c → durableFile start (calls.take n ++ [c]) =
    some (durableText start (chain (calls.take n ++ [c])))
  others : ∀ (n : ℕ) (c : Promotion), calls[n]? = some c → ∀ (i : ℕ) (e : Entry),
    (chain (calls.take n))[i]? = some e → e.promotion.episodicKey ≠ c.episodicKey →
      (chain (calls.take n ++ [c]))[i]? = some e

/-- A line is no entry's last, or the last of one that nothing supersedes, of a key. -/
def unowned (lines : List (List Char)) : List (List Char × Option (List Char)) :=
  lines.map fun line => (line, none)

def Entry.lines (e : Entry) : List (List Char × Option (List Char)) :=
  unowned (splitLines (['\n'] ++ facts e.promotion)) ++
    [(e.closing, if e.supersededBy = none then some e.promotion.episodicKey else none)]

/-- The lines of the file after some calls, with whose they are. -/
def ownedLines (start : Option (List Char)) (past : List Promotion) :
    List (List Char × Option (List Char)) :=
  match past with
  | [] => unowned (startLines start)
  | c :: past =>
    unowned (splitLines (around start).1) ++ (chain (c :: past)).flatMap Entry.lines ++
      unowned (splitLines (around start).2)

/-- A call for a key can tell the entries apart: the texts have no markup of the file, and the key
is in the lines from one live last line to the next just where the entry is of the key. -/
structure Told (start : Option (List Char)) (past : List Promotion) (key : List Char) : Prop where
  clean : ∀ c ∈ past, Clean (facts c)
  unmarked : ∀ c ∈ past, ¬ marker <:+: facts c
  told : ∀ i : ℕ, ∀ p ∈ (ownedLines start past)[i]?, isLive p.1 →
    (Reached (opens key) isLive (((ownedLines start past).take i).map Prod.fst) p.1 ↔
      p.2 = some key)

variable {start : Option (List Char)} {past calls : List Promotion} {c : Promotion} {e : Entry}
  {key : List Char} {u : BitVec 32} {es : List Entry} {ch : Char}

theorem mem_hex (h : ch ∈ hex u) : ch ∈ "0123456789abcdef".toList := by
  obtain ⟨i, _, rfl⟩ := List.mem_map.mp h
  have hdigit : ∀ n < 16, Nat.digitChar n ∈ "0123456789abcdef".toList := by decide
  exact hdigit _ (Nat.mod_lt _ (by decide))

theorem hex_ne_nil : hex u ≠ [] := by simp [hex]

theorem mem_closing (h : ch ∈ e.closing) : ch ∈ label ++ none_ ++ "0123456789abcdef".toList := by
  rw [Entry.closing] at h
  rcases List.mem_append.mp h with h | h
  · simp [h]
  · cases hby : e.supersededBy with
    | none => simp_all
    | some u =>
      rw [hby] at h
      exact List.mem_append_right _ (mem_hex h)

theorem closing_not_break (h : ch ∈ e.closing) : ch ∉ breaks := by
  have hall : (label ++ none_ ++ "0123456789abcdef".toList).all (· ∉ breaks) := by decide
  exact of_decide_eq_true (List.all_eq_true.mp hall ch (mem_closing h))

theorem rstrip_closing (text : List Char) : rstrip (text ++ e.closing) = text ++ e.closing := by
  have hlast : ∃ front d, e.closing = front ++ [d] ∧ isSpace d = false := by
    cases hby : e.supersededBy with
    | none =>
      exact ⟨label ++ none_.dropLast, '_', by rw [Entry.closing, hby]; decide, by decide⟩
    | some u =>
      have hsplit := List.dropLast_append_getLast (hex_ne_nil (u := u))
      have hall : "0123456789abcdef".toList.all (!isSpace ·) := by decide
      exact ⟨label ++ (hex u).dropLast, (hex u).getLast hex_ne_nil,
        by rw [Entry.closing, hby, List.append_assoc, hsplit],
        by simpa using List.all_eq_true.mp hall _ (mem_hex (List.getLast_mem hex_ne_nil))⟩
  obtain ⟨front, d, hclosing, hd⟩ := hlast
  rw [hclosing, ← List.append_assoc, rstrip, List.rdropWhile_concat_neg _ _ _ (by simp [hd])]

theorem ended_facts : Ended (facts c) := ended_concat.mpr rfl

theorem clean_closing : Clean e.closing := fun _ hch hbreak => absurd hbreak (closing_not_break hch)

theorem clean_text : Clean e.text ↔ Clean (facts e.promotion) := by
  simp [Entry.text, clean_closing]

theorem ended_text : Ended e.text := ended_concat.mpr rfl

theorem map_unowned (lines : List (List Char)) : (unowned lines).map Prod.fst = lines := by
  simp [unowned, Function.comp_def]

theorem splitLines_text : splitLines e.text = e.lines.map Prod.fst := by
  have hfacts : Ended (['\n'] ++ facts e.promotion) := ended_append ended_newline ended_facts
  have hclosing : splitLines (e.closing ++ ['\n']) = [e.closing] :=
    splitLines_line fun ch hch => closing_not_break hch
  rw [Entry.text, List.append_assoc, splitLines_append hfacts, hclosing, Entry.lines,
    List.map_append, map_unowned]
  rfl

theorem clean_startText (start : Option (List Char)) :
    Clean (startText start) ∧ Ended (startText start) := by
  cases start with
  | none => exact ⟨by decide +kernel, ended_flat⟩
  | some raw =>
    exact ⟨clean_joinLines fun line hline ch hch => not_break_of_mem_splitLines hline hch,
      ended_joinLines⟩

theorem clean_rstrip {text : List Char} (h : Clean text) : Clean (rstrip text) :=
  fun ch hch => h ch ((List.rdropWhile_prefix _ _).mem hch)

theorem newline_notMem_marker : '\n' ∉ marker := by decide

theorem marker_ne_nil : marker ≠ [] := by decide

/-- The entries go where a line starts, before the marker or at the end. -/
structure Around (front back : List Char) : Prop where
  ended_front : Ended front
  ended_back : Ended back
  clean_front : Clean front
  clean_back : Clean back
  unmarked : ¬ marker <:+: front
  back_eq : back = [] ∨ ∃ tail, back = ['\n'] ++ (marker ++ tail)

theorem around_spec (start : Option (List Char)) : Around (around start).1 (around start).2 := by
  obtain ⟨hclean, hended⟩ := clean_startText start
  cases hfind : (startText start).dropInfix? marker with
  | none =>
    have haround : around start = (startText start, []) := by rw [around, hfind]
    rw [haround]
    exact ⟨hended, ended_nil, hclean, clean_nil, dropInfix_eq_none.mp hfind, Or.inl rfl⟩
  | some split =>
    obtain ⟨header, tail⟩ := split
    have haround : around start = (rstrip header ++ ['\n'], ['\n'] ++ (marker ++ tail)) := by
      rw [around, hfind]
    obtain ⟨htext, hfirst⟩ := of_dropInfix marker_ne_nil hfind
    rw [htext, List.append_assoc] at hclean hended
    obtain ⟨hheader, htail⟩ := clean_append.mp hclean
    rw [haround]
    refine ⟨ended_concat.mpr rfl, ended_append ended_newline hended.right,
      clean_append.mpr ⟨clean_rstrip hheader, clean_newline⟩, clean_append.mpr ⟨clean_newline, htail⟩, ?_,
      Or.inr ⟨tail, rfl⟩⟩
    intro hmarker
    exact hfirst ((infix_of_concat newline_notMem_marker marker_ne_nil hmarker).trans
      (List.rdropWhile_prefix _ _).isInfix)

/-- An entry of a key that nothing supersedes is superseded. -/
def supersede (key : List Char) (u : BitVec 32) (e : Entry) : Entry :=
  if e.supersededBy = none ∧ e.promotion.episodicKey = key then { e with supersededBy := some u }
  else e

theorem chain_append : chain (past ++ [c]) =
    (chain past).map (supersede c.episodicKey c.durableUuid) ++ [⟨c, none⟩] := by
  induction past with
  | nil => rfl
  | cons x past ih =>
    rw [List.cons_append, chain, ih, chain, List.map_cons, List.cons_append]
    congr 1
    rw [List.find?_append]
    cases hlater : past.find? (·.episodicKey = x.episodicKey) with
    | none =>
      by_cases hkey : c.episodicKey = x.episodicKey
      · simp [supersede, hkey]
      · simp [supersede, hkey, Ne.symm hkey]
    | some y => simp [supersede]

@[simp] theorem supersede_promotion : (supersede key u e).promotion = e.promotion := by
  rw [supersede]
  split <;> rfl

theorem mem_chain (h : e ∈ chain past) : e.promotion ∈ past := by
  induction past with
  | nil => simp [chain] at h
  | cons x past ih =>
    rcases List.mem_cons.mp h with rfl | h
    · simp
    · exact List.mem_cons_of_mem _ (ih h)

/-- Marking edits the last lines of the live entries of a key. -/
def marked (key : List Char) (u : BitVec 32) (p : List Char × Option (List Char)) : List Char :=
  if p.2 = some key then label ++ hex u else p.1

theorem map_marked_unowned (lines : List (List Char)) :
    (unowned lines).map (marked key u) = lines := by
  simp [unowned, marked, Function.comp_def]

theorem marked_closing :
    marked key u (e.closing, if e.supersededBy = none then some e.promotion.episodicKey else none) =
      (supersede key u e).closing := by
  rw [marked, supersede]
  cases hby : e.supersededBy with
  | none => by_cases hkey : e.promotion.episodicKey = key <;> simp [hkey, Entry.closing]
  | some v => simp

theorem flat_marked_lines (h : Clean (facts e.promotion)) :
    flat (e.lines.map (marked key u)) = (supersede key u e).text := by
  have hfacts : flat (splitLines (['\n'] ++ facts e.promotion)) = ['\n'] ++ facts e.promotion :=
    flat_splitLines (clean_append.mpr ⟨clean_newline, h⟩) (ended_append ended_newline ended_facts)
  rw [Entry.lines, List.map_append, map_marked_unowned, flat_append, hfacts, List.map_singleton,
    marked_closing, Entry.text, supersede_promotion]
  simp

theorem ownedLines_of_ne_nil (h : past ≠ []) :
    ownedLines start past = unowned (splitLines (around start).1) ++
      (chain past).flatMap Entry.lines ++ unowned (splitLines (around start).2) := by
  cases past with
  | nil => contradiction
  | cons c past => rfl

theorem splitLines_flatMap_text :
    splitLines (es.flatMap Entry.text) = (es.flatMap Entry.lines).map Prod.fst := by
  induction es with
  | nil => rfl
  | cons e es ih =>
    rw [List.flatMap_cons, splitLines_append ended_text, splitLines_text, ih, List.flatMap_cons,
      List.map_append]

theorem ended_texts : Ended (es.flatMap Entry.text) := ended_flatMap fun _ _ => ended_text

theorem splitLines_durableText (h : past ≠ []) :
    splitLines (durableText start (chain past)) = (ownedLines start past).map Prod.fst := by
  have hfront := (around_spec start).ended_front
  rw [durableText, splitLines_append (ended_append hfront ended_texts), splitLines_append hfront,
    splitLines_flatMap_text, ownedLines_of_ne_nil h]
  simp only [List.map_append, map_unowned]

theorem flat_marked_flatMap (h : ∀ e ∈ es, Clean (facts e.promotion)) :
    flat ((es.flatMap Entry.lines).map (marked key u)) =
      (es.map (supersede key u)).flatMap Entry.text := by
  induction es with
  | nil => rfl
  | cons e es ih =>
    rw [List.flatMap_cons, List.map_append, flat_append, flat_marked_lines (h e (by simp)),
      ih fun x hx => h x (by simp [hx]), List.map_cons, List.flatMap_cons]

theorem flat_marked_owned (hne : past ≠ []) (h : ∀ c ∈ past, Clean (facts c)) :
    flat ((ownedLines start past).map (marked key u)) =
      durableText start ((chain past).map (supersede key u)) := by
  have hspec := around_spec start
  rw [ownedLines_of_ne_nil hne, List.map_append, List.map_append, flat_append, flat_append,
    map_marked_unowned, map_marked_unowned, flat_splitLines hspec.clean_front hspec.ended_front,
    flat_splitLines hspec.clean_back hspec.ended_back,
    flat_marked_flatMap fun e he => h _ (mem_chain he), durableText]

theorem clean_durableText (h : ∀ e ∈ es, Clean (facts e.promotion)) :
    Clean (durableText start es) := by
  have hspec := around_spec start
  refine clean_append.mpr ⟨clean_append.mpr ⟨hspec.clean_front, ?_⟩, hspec.clean_back⟩
  exact clean_flatMap fun e he => clean_text.mpr (h e he)

theorem snd_of_mem_unowned {lines : List (List Char)} {p : List Char × Option (List Char)}
    (h : p ∈ unowned lines) : p.2 = none := by
  obtain ⟨line, _, rfl⟩ := List.mem_map.mp h
  rfl

theorem isLive_of_mem_lines {p : List Char × Option (List Char)} (hp : p ∈ e.lines)
    (howner : p.2 = some key) : isLive p.1 := by
  rcases List.mem_append.mp hp with hp | hp
  · simp [snd_of_mem_unowned hp] at howner
  · obtain rfl := List.mem_singleton.mp hp
    have hby : e.supersededBy = none := by
      by_contra hby
      simp [hby] at howner
    have hlive : isLive (label ++ none_) := by decide
    simpa [Entry.closing, hby] using hlive

theorem isLive_of_owned {p : List Char × Option (List Char)} (hp : p ∈ ownedLines start past)
    (howner : p.2 = some key) : isLive p.1 := by
  by_cases hpast : past = []
  · subst hpast
    simp [snd_of_mem_unowned hp] at howner
  · rw [ownedLines_of_ne_nil hpast] at hp
    rcases List.mem_append.mp hp with hp | hp
    · rcases List.mem_append.mp hp with hp | hp
      · simp [snd_of_mem_unowned hp] at howner
      · obtain ⟨e, _, he⟩ := List.mem_flatMap.mp hp
        exact isLive_of_mem_lines he howner
    · simp [snd_of_mem_unowned hp] at howner

/-- A call that can tell the entries apart marks those of its key. -/
theorem edited_owned (h : Told start past key) :
    editClosing (opens key) isLive (fun _ => label ++ hex u) false
      ((ownedLines start past).map Prod.fst) = (ownedLines start past).map (marked key u) :=
  editClosing_eq_map (P := fun owner => owner = some key)
    (fun _ hp howner => isLive_of_owned hp howner) h.told

theorem markSuperseded_durableText (hne : past ≠ []) (h : Told start past key) :
    markSuperseded (some (durableText start (chain past))) key u =
      some (durableText start ((chain past).map (supersede key u))) := by
  have hclean : Clean (durableText start (chain past)) :=
    clean_durableText fun e he => h.clean _ (mem_chain he)
  have hlines : (ownedLines start past).map (marked key u) ≠ [] := by
    cases past with
    | nil => contradiction
    | cons c past => simp [ownedLines, chain, Entry.lines]
  rw [markSuperseded, Option.map_some, universal_of_clean hclean, splitLines_durableText hne,
    edited_owned h, joinLines_eq_flat hlines, flat_marked_owned hne h.clean]

/-- Nothing is marked before the first entry. -/
theorem markSuperseded_start {raw : List Char} (h : Told (some raw) [] key) :
    markSuperseded (some raw) key u = some (startText (some raw)) := by
  have hedited := edited_owned (u := u) h
  rw [ownedLines, map_unowned, map_marked_unowned] at hedited
  rw [markSuperseded, Option.map_some, startText]
  exact congrArg (fun lines => some (joinLines lines)) hedited

theorem marker_notMem_text (h : ¬ marker <:+: facts e.promotion) : ¬ marker <:+: e.text := by
  intro hmarker
  have hclosing : ¬ marker <:+: e.closing := by
    intro hfound
    have hall : '<' ∉ label ++ none_ ++ "0123456789abcdef".toList := by decide
    exact hall (mem_closing (hfound.mem (by decide)))
  rcases infix_of_ended (ended_append ended_newline ended_facts) newline_notMem_marker
    (infix_of_concat newline_notMem_marker marker_ne_nil hmarker) with hfound | hfound
  · rcases infix_of_ended ended_newline newline_notMem_marker hfound with hfound | hfound
    · exact absurd hfound (by decide)
    · exact h hfound
  · exact hclosing hfound

theorem marker_notMem_texts (h : ∀ e ∈ es, ¬ marker <:+: facts e.promotion) :
    ¬ marker <:+: (around start).1 ++ es.flatMap Entry.text := by
  intro hmarker
  have hspec := around_spec start
  rcases infix_of_ended hspec.ended_front newline_notMem_marker hmarker with hfound | hfound
  · exact hspec.unmarked hfound
  · obtain ⟨e, he, hfound⟩ := infix_flatMap (fun e _ => ended_text) newline_notMem_marker
      marker_ne_nil hfound
    exact marker_notMem_text (h e he) hfound

theorem rstrip_newline (text : List Char) : rstrip (text ++ ['\n']) = rstrip text :=
  List.rdropWhile_concat_pos _ _ _ (by decide)

theorem rstrip_texts (front : List Char) (hne : es ≠ []) :
    rstrip (front ++ es.flatMap Entry.text ++ ['\n']) ++ ['\n'] =
      front ++ es.flatMap Entry.text := by
  obtain ⟨es, e, rfl⟩ := (List.eq_nil_or_concat' es).resolve_left hne
  have hsplit : front ++ (es ++ [e]).flatMap Entry.text =
      front ++ es.flatMap Entry.text ++ ['\n'] ++ facts e.promotion ++ e.closing ++ ['\n'] := by
    simp [Entry.text]
  rw [hsplit, rstrip_newline, rstrip_newline, rstrip_closing]

theorem insertEntry_durableText (hne : es ≠ [])
    (h : ∀ e ∈ es, ¬ marker <:+: facts e.promotion) :
    insertEntry (durableText start es) c = durableText start (es ++ [⟨c, none⟩]) := by
  have hspec := around_spec start
  have hmarker : ¬ marker <:+: (around start).1 ++ es.flatMap Entry.text := marker_notMem_texts h
  rcases hspec.back_eq with hback | ⟨tail, hback⟩
  · have hfind : (durableText start es).dropInfix? marker = none := by
      rw [durableText, hback, List.append_nil]
      exact dropInfix_eq_none.mpr hmarker
    rw [insertEntry, hfind]
    simp [durableText, hback, newEntry, Entry.text, Entry.closing]
  · have hfind : (durableText start es).dropInfix? marker =
        some ((around start).1 ++ es.flatMap Entry.text ++ ['\n'], tail) := by
      have hended : Ended ((around start).1 ++ es.flatMap Entry.text ++ ['\n']) :=
        ended_concat.mpr rfl
      rw [← dropInfix_of_ended hended newline_notMem_marker fun hfound =>
        hmarker (infix_of_concat newline_notMem_marker marker_ne_nil hfound), durableText, hback]
      simp
    rw [insertEntry, hfind]
    calc
      _ = (rstrip ((around start).1 ++ es.flatMap Entry.text ++ ['\n']) ++ ['\n']) ++
          (['\n'] ++ newEntry c ++ ['\n'] ++ (marker ++ tail)) := by simp
      _ = durableText start (es ++ [⟨c, none⟩]) := by
        rw [rstrip_texts _ hne]
        simp [durableText, hback, newEntry, Entry.text, Entry.closing]

theorem insertEntry_start : insertEntry (startText start) c = durableText start [⟨c, none⟩] := by
  cases hfind : (startText start).dropInfix? marker <;>
    simp [insertEntry, durableText, around, hfind, newEntry, Entry.text, Entry.closing]

/-- The file after some calls that could tell the entries apart. -/
def fileAfter (start : Option (List Char)) (past : List Promotion) : Option (List Char) :=
  if past = [] then start else some (durableText start (chain past))

theorem fileAfter_of_ne_nil (h : past ≠ []) :
    fileAfter start past = some (durableText start (chain past)) := if_neg h

/-- Such a call adds its entry, and marks those of its key. -/
theorem promote_fileAfter (h : Told start past c.episodicKey) :
    (promoteEpisodicToDurable (fileAfter start past) c).1 =
      durableText start (chain (past ++ [c])) := by
  by_cases hpast : past = []
  · subst hpast
    have htext : chain [c] = [⟨c, none⟩] := rfl
    rw [List.nil_append, htext, ← insertEntry_start]
    cases start with
    | none => rfl
    | some raw =>
      have hclean := (clean_startText (some raw)).1
      have hmarked := markSuperseded_start (u := c.durableUuid) h
      simp only [promoteEpisodicToDurable, fileAfter, if_true, hmarked, universal_of_clean hclean]
  · have hclean : Clean (durableText start
        ((chain past).map (supersede c.episodicKey c.durableUuid))) := by
      refine clean_durableText fun e he => ?_
      obtain ⟨x, hx, rfl⟩ := List.mem_map.mp he
      rw [supersede_promotion]
      exact h.clean _ (mem_chain hx)
    have hunmarked : ∀ e ∈ (chain past).map (supersede c.episodicKey c.durableUuid),
        ¬ marker <:+: facts e.promotion := by
      intro e he
      obtain ⟨x, hx, rfl⟩ := List.mem_map.mp he
      rw [supersede_promotion]
      exact h.unmarked _ (mem_chain hx)
    have hentries : (chain past).map (supersede c.episodicKey c.durableUuid) ≠ [] := by
      cases past with
      | nil => contradiction
      | cons x past => simp [chain]
    rw [chain_append, ← insertEntry_durableText hentries hunmarked]
    simp only [promoteEpisodicToDurable, fileAfter_of_ne_nil hpast,
      markSuperseded_durableText hpast h, universal_of_clean hclean]

theorem durableFile_append :
    durableFile start (past ++ [c]) =
      some (promoteEpisodicToDurable (durableFile start past) c).1 := by
  simp [durableFile]

/-- A run of such calls. -/
theorem durableFile_take (h : ∀ n c, calls[n]? = some c → Told start (calls.take n) c.episodicKey)
    (n : ℕ) : durableFile start (calls.take n) = fileAfter start (calls.take n) := by
  induction n with
  | zero => rfl
  | succ n ih =>
    cases hc : calls[n]? with
    | none => rwa [List.take_add_one, hc, Option.toList_none, List.append_nil]
    | some c =>
      rw [List.take_add_one, hc, Option.toList_some, durableFile_append, ih,
        promote_fileAfter (h n c hc), fileAfter_of_ne_nil (by simp)]

theorem getElem_chain_append {i : ℕ} (h : (chain past)[i]? = some e)
    (hkey : e.promotion.episodicKey ≠ c.episodicKey) : (chain (past ++ [c]))[i]? = some e := by
  have hlt := (List.getElem?_eq_some_iff.mp h).1
  rw [chain_append, List.getElem?_append_left (by simpa using hlt), List.getElem?_map, h]
  simp [supersede, hkey]

theorem chained_of_told
    (h : ∀ n c, calls[n]? = some c → Told start (calls.take n) c.episodicKey) :
    Chained start calls where
  file n c hc := by
    rw [durableFile_append, durableFile_take h, promote_fileAfter (h n c hc)]
  others n c _ i e he hkey := getElem_chain_append he hkey

theorem told_of_forall_lt (hclean : ∀ c ∈ past, Clean (facts c))
    (hunmarked : ∀ c ∈ past, ¬ marker <:+: facts c)
    (h : ∀ i < (ownedLines start past).length, ∀ p ∈ (ownedLines start past)[i]?, isLive p.1 →
      (Reached (opens key) isLive (((ownedLines start past).take i).map Prod.fst) p.1 ↔
        p.2 = some key)) : Told start past key where
  clean := hclean
  unmarked := hunmarked
  told i p hp := h i (List.getElem?_eq_some_iff.mp hp).1 p hp

theorem told_none_nil : Told none [] key where
  clean := by simp
  unmarked := by simp
  told := by simp [ownedLines, startLines, unowned]

def windowFact (content : List Char) : Promotion :=
  ⟨"rsi-window".toList, "RSI window".toList, "a1b2c3d".toList, content, 0x0a1b2c3d#32,
    "2026-08-06T10:00:00+00:00".toList⟩

def stopFact (content : List Char) : Promotion :=
  ⟨"stop".toList, "Stops".toList, "b2c3d4e".toList, content, 0x1b2c3d4e#32,
    "2026-08-07T10:00:00+00:00".toList⟩

def windowUpdate (content : List Char) : Promotion :=
  ⟨"rsi-window".toList, "RSI window".toList, "c3d4e5f".toList, content, 0x2c3d4e5f#32,
    "2026-08-08T10:00:00+00:00".toList⟩

def keyedCalls : List Promotion :=
  [windowFact "rsi-window is 14".toList, stopFact "stop is 2 ATR".toList,
    windowUpdate "rsi-window is 21".toList]

theorem keyedCalls_chained : Chained none keyedCalls := by
  refine chained_of_told fun n c hc => ?_
  rcases n with _ | _ | _ | n
  · exact told_none_nil
  · obtain rfl : stopFact "stop is 2 ATR".toList = c := Option.some.inj hc
    exact told_of_forall_lt (by decide +kernel) (by decide +kernel) (by decide +kernel)
  · obtain rfl : windowUpdate "rsi-window is 21".toList = c := Option.some.inj hc
    exact told_of_forall_lt (by decide +kernel) (by decide +kernel) (by decide +kernel)
  · simp [keyedCalls] at hc

def unkeyedCalls : List Promotion :=
  [windowFact "14 candles".toList, windowUpdate "21 candles".toList]

/-- Two calls for a key that their texts do not have: both entries stay live. -/
theorem unkeyedCalls_live :
    durableFile none unkeyedCalls = some (durableText none (unkeyedCalls.map fun c => ⟨c, none⟩)) ∧
      ¬ Chained none unkeyedCalls := by
  have hfile : durableFile none unkeyedCalls =
      some (durableText none (unkeyedCalls.map fun c => ⟨c, none⟩)) := by decide +kernel
  refine ⟨hfile, fun h => ?_⟩
  have hchained := h.file 1 (windowUpdate "21 candles".toList) rfl
  have htexts : (unkeyedCalls.map fun c => Entry.mk c none).flatMap Entry.text ≠
      (chain unkeyedCalls).flatMap Entry.text := by decide +kernel
  have heq := Option.some.inj (hfile.symm.trans hchained)
  exact htexts (List.append_cancel_left (List.append_cancel_right heq))

end Pyharmonics.DurableFacts
