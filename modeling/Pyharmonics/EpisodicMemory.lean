import Pyharmonics.DurableFacts
import Pyharmonics.JsonText
import Pyharmonics.Library.LineLogs
import Pyharmonics.Library.Slices
import Pyharmonics.ScratchPromotion

/-! The episodic file as one process keeps it: the promoted records, a line each, for two weeks. -/
namespace Pyharmonics.LoopContext

open TextLines Machines VibeAgent DurableFacts Slices
open Json (Writer dumps)

/-- What the module uses of Python: `str.lower`, how `json.dumps` writes, `json.loads`, which gives
nothing where it raises `JSONDecodeError`, and the time of `datetime.fromisoformat`. -/
structure Platform where
  lower : String → String
  writer : Writer
  ascii : writer.ensureAscii = true
  loads : List Char → Except PyError (Option Json)
  fromisoformat : String → Option ℚ

/-- What a call of `hygiene` sees: the gate and the clock at each check, the clock at each append,
and the clock at the end. -/
structure Sight where
  see : String → Probe
  stamp : ℕ → String
  now : ℚ

/-- What `hygiene` returns. -/
structure Summary where
  promoted : ℕ
  cleaned : ℕ
  episodicRemaining : ℕ
  scratchRemaining : ℕ
  deriving DecidableEq

/-- `_scratch` and the text of the episodic file. -/
structure Store where
  scratch : Dict String (String × ℚ) := .empty
  file : Option (List Char) := none

variable (P : Platform)

def Record.toJson (r : Record) : Json :=
  .dict [("ts", .str r.ts), ("key", .str r.key), ("value", .str r.value)]

def Record.line (r : Record) : List Char := dumps P.writer r.toJson

/-- The loop of `promote_all`. -/
def promoteKeys (stamp : ℕ → String) : List String → ℕ → Store → Store × ℕ
  | [], promoted, m => (m, promoted)
  | key :: toDelete, promoted, m =>
    match m.scratch.get? key with
    | none => promoteKeys stamp toDelete promoted m
    | some (value, _) =>
      promoteKeys stamp toDelete (promoted + 1)
        ⟨m.scratch.erase key,
          some (m.file.getD [] ++ (Record.line P ⟨stamp promoted, key, value⟩ ++ ['\n']))⟩

/-- `promote_all` -/
def promoteAll (sight : Sight) (m : Store) : Store × Except PyError ℕ :=
  let m := { m with file := some (m.file.getD []) }
  match collect P.lower sight.see m.scratch.entries with
  | .error e => (m, .error e)
  | .ok toDelete =>
    let (m, promoted) := promoteKeys P sight.stamp toDelete 0 m
    (m, .ok promoted)

/-- `ts.replace("Z", "+00:00")` -/
def withOffset (ts : String) : String :=
  String.ofList (ts.toList.flatMap fun c => if c = 'Z' then "+00:00".toList else [c])

/-- The time of a stamp, if it is one. -/
def timeOf (ts : String) : Option ℚ := P.fromisoformat (withOffset ts)

/-- The time of the record in a line, if it has one. -/
def lineTime (line : List Char) : Option ℚ :=
  match P.loads line with
  | .ok (some (.dict record)) =>
    match record.lookup "ts" with
    | some (.str ts) => timeOf P ts
    | _ => none
  | _ => none

/-- Fourteen days, in seconds. -/
def retention : ℚ := 14 * 24 * 3600

/-- Before the cutoff of a clean-up. -/
def expired (now : ℚ) (time : Option ℚ) : Bool := time.any fun t => t < now - retention

/-- `hygiene` -/
def hygiene (sight : Sight) (m : Store) : Store × Except PyError Summary :=
  match promoteAll P sight m with
  | (m, .error e) => (m, .error e)
  | (m, .ok promoted) =>
    let lines := (splitLines (universal (m.file.getD []))).filter (· ≠ [])
    let remaining := lines.filter fun line => !expired sight.now (lineTime P line)
    ({ m with file := some (joinLines remaining) },
      .ok ⟨promoted, lines.countP fun line => expired sight.now (lineTime P line),
        remaining.length, m.scratch.entries.length⟩)

/-- `load_episodic` -/
def loadEpisodic (limit : ℤ) (m : Store) : Except PyError (List Json) :=
  match m.file with
  | none => .ok []
  | some text => do
    let read ← (splitLines (strip (universal text))).mapM P.loads
    return sliceFrom (read.filterMap id) (-limit)

/-- The calls of the module. -/
inductive Op
  | put (key value : String) (now : ℚ)
  | get (key : String)
  | size
  | clear
  | promote (sight : Sight)
  | hygiene (sight : Sight)
  | load (limit : ℤ)

/-- What a call returns. -/
inductive Answer
  | done
  | value (value : Option String)
  | size (n : ℕ)
  | promoted (result : Except PyError ℕ)
  | summary (result : Except PyError Summary)
  | records (result : Except PyError (List Json))

def Store.step (m : Store) : Op → Store × Answer
  | .put key value now => ({ m with scratch := m.scratch.set key (value, now) }, .done)
  | .get key => (m, .value ((m.scratch.get? key).map Prod.fst))
  | .size => (m, .size m.scratch.entries.length)
  | .clear => ({ m with scratch := .empty }, .done)
  | .promote sight =>
    let (m, result) := promoteAll P sight m
    (m, .promoted result)
  | .hygiene sight =>
    let (m, result) := LoopContext.hygiene P sight m
    (m, .summary result)
  | .load limit => (m, .records (loadEpisodic P limit m))

/-- The memory as it is meant: the scratch entries, and the promoted records in order. -/
structure Ledger where
  scratch : Dict String (String × ℚ) := .empty
  records : List Record := []

namespace Ledger

def promoteKeys (stamp : ℕ → String) : List String → ℕ → Ledger → Ledger × ℕ
  | [], promoted, l => (l, promoted)
  | key :: toDelete, promoted, l =>
    match l.scratch.get? key with
    | none => promoteKeys stamp toDelete promoted l
    | some (value, _) =>
      promoteKeys stamp toDelete (promoted + 1)
        ⟨l.scratch.erase key, l.records ++ [⟨stamp promoted, key, value⟩]⟩

def promoteAll (sight : Sight) (l : Ledger) : Ledger × Except PyError ℕ :=
  match collect P.lower sight.see l.scratch.entries with
  | .error e => (l, .error e)
  | .ok toDelete =>
    let (l, promoted) := promoteKeys sight.stamp toDelete 0 l
    (l, .ok promoted)

/-- The records that a clean-up keeps. -/
def cleaned (now : ℚ) (records : List Record) : List Record :=
  records.filter fun r => !expired now (timeOf P r.ts)

def hygiene (sight : Sight) (l : Ledger) : Ledger × Except PyError Summary :=
  match promoteAll P sight l with
  | (l, .error e) => (l, .error e)
  | (l, .ok promoted) =>
    let remaining := cleaned P sight.now l.records
    ({ l with records := remaining },
      .ok ⟨promoted, l.records.countP fun r => expired sight.now (timeOf P r.ts),
        remaining.length, l.scratch.entries.length⟩)

def step (l : Ledger) : Op → Ledger × Answer
  | .put key value now => ({ l with scratch := l.scratch.set key (value, now) }, .done)
  | .get key => (l, .value ((l.scratch.get? key).map Prod.fst))
  | .size => (l, .size l.scratch.entries.length)
  | .clear => ({ l with scratch := .empty }, .done)
  | .promote sight =>
    let (l, result) := promoteAll P sight l
    (l, .promoted result)
  | .hygiene sight =>
    let (l, result) := hygiene P sight l
    (l, .summary result)
  | .load limit => (l, .records (.ok (sliceFrom (l.records.map Record.toJson) (-limit))))

end Ledger

/-- `json.loads` gives back the record of a line. -/
def Record.Readable (r : Record) : Prop := P.loads (r.line P) = .ok (some r.toJson)

/-- The file has a line for each record, after at most one empty line. -/
def Filed (file : Option (List Char)) (records : List Record) : Prop :=
  match file with
  | none => records = []
  | some text => ∃ gap ∈ [[], ['\n']], text = gap ++ flat (records.map (Record.line P))

/-- The store holds what the ledger says. -/
structure Holds (m : Store) (l : Ledger) : Prop where
  scratch : m.scratch = l.scratch
  file : Filed P m.file l.records
  readable : ∀ r ∈ l.records, r.Readable P

/-- The records in the file at the end of a call, or before its clean-up. -/
def written (l : Ledger) : Op → List Record
  | .promote sight | .hygiene sight => (l.promoteAll P sight).1.records
  | _ => l.records

/-- `json.loads` gives back what the call has in the file. -/
def ReadsBack (l : Ledger) (op : Op) : Prop := ∀ r ∈ written P l op, r.Readable P

variable {P} {m : Store} {l : Ledger} {r : Record} {records : List Record} {sight : Sight}
  {keys : List String} {stamp : ℕ → String} {n : ℕ} {text gap : List Char} {op : Op}

theorem exists_line (r : Record) : ∃ body, r.line P = '\x7b' :: (body ++ ['\x7d']) := ⟨_, rfl⟩

theorem unbroken_line : Unbroken (r.line P) := by
  intro c hc
  have hwritten := Json.written_dumps r.toJson c hc
  rw [P.ascii] at hwritten
  exact Json.not_break_of_written hwritten

theorem forall_unbroken : ∀ line ∈ records.map (Record.line P), Unbroken line := by
  intro line hline
  obtain ⟨r, -, rfl⟩ := List.mem_map.mp hline
  exact unbroken_line

theorem clean_filed (hgap : gap ∈ [[], ['\n']]) :
    Clean (gap ++ flat (records.map (Record.line P))) := by
  refine clean_append.mpr ⟨?_, clean_flat forall_unbroken⟩
  rcases List.mem_pair.mp hgap with rfl | rfl <;> simp

/-- The lines of the file that are not empty are those of the records. -/
theorem lines_filed (hgap : gap ∈ [[], ['\n']]) :
    (splitLines (universal (gap ++ flat (records.map (Record.line P))))).filter (· ≠ []) =
      records.map (Record.line P) := by
  have hne : (records.map (Record.line P)).filter (· ≠ []) = records.map (Record.line P) := by
    refine List.filter_eq_self.mpr fun line hline => ?_
    obtain ⟨r, -, rfl⟩ := List.mem_map.mp hline
    obtain ⟨body, hbody⟩ := exists_line r (P := P)
    simp [hbody]
  rw [universal_of_clean (clean_filed hgap)]
  rcases List.mem_pair.mp hgap with rfl | rfl
  · rw [List.nil_append, splitLines_flat forall_unbroken, hne]
  · have hsplit : splitLines (['\n'] ++ flat (records.map (Record.line P))) =
        [] :: records.map (Record.line P) := by
      rw [splitLines_append ended_newline, splitLines_flat forall_unbroken]
      rfl
    rw [hsplit, List.filter_cons_of_neg (by simp), hne]

/-- The stripped file is its lines, joined. -/
theorem splitLines_strip_filed (hgap : gap ∈ [[], ['\n']]) :
    splitLines (strip (universal (gap ++ flat (records.map (Record.line P))))) =
      records.map (Record.line P) := by
  rw [universal_of_clean (clean_filed hgap)]
  by_cases hrecords : records = []
  · subst hrecords
    rcases List.mem_pair.mp hgap with rfl | rfl <;> rfl
  have hlines : records.map (Record.line P) ≠ [] := by simpa using hrecords
  have hspace : ∀ c ∈ gap, isSpace c := by
    rcases List.mem_pair.mp hgap with rfl | rfl <;> simp [isSpace]
  have hhead : ∃ rest, ['\n'].intercalate (records.map (Record.line P)) = '\x7b' :: rest := by
    obtain ⟨r, more, rfl⟩ := List.exists_cons_of_ne_nil hrecords
    obtain ⟨rest, hrest⟩ : ∃ rest, ['\n'].intercalate (r.line P :: more.map (Record.line P)) =
      r.line P ++ rest := exists_intercalate_cons
    exact ⟨_, hrest⟩
  have hlast : ∃ front, ['\n'].intercalate (records.map (Record.line P)) = front ++ ['\x7d'] := by
    obtain rfl | ⟨more, r, rfl⟩ := records.eq_nil_or_concat'
    · exact absurd rfl hrecords
    · obtain ⟨front, hfront⟩ : ∃ front, ['\n'].intercalate (more.map (Record.line P) ++ [r.line P]) =
        front ++ r.line P := exists_intercalate_concat
      obtain ⟨body, hbody⟩ := exists_line r (P := P)
      exact ⟨front ++ '\x7b' :: body, by
        rw [List.map_append, List.map_singleton, hfront, hbody]; simp⟩
  obtain ⟨rest, hrest⟩ := hhead
  obtain ⟨front, hfront⟩ := hlast
  have hcore : strip (gap ++ ['\n'].intercalate (records.map (Record.line P)) ++ ['\n']) =
      ['\n'].intercalate (records.map (Record.line P)) := by
    refine strip_core hspace (by simp [isSpace]) ?_ ?_ (by simp [hrest])
    · rw [hrest]
      rintro _ ⟨⟩
      decide
    · rw [hfront, List.getLast?_concat]
      rintro _ ⟨⟩
      decide
  rw [← joinLines_eq_flat hlines, joinLines, ← List.append_assoc, hcore]
  refine splitLines_intercalate forall_unbroken fun line hline => ?_
  obtain ⟨r, -, rfl⟩ := List.mem_map.mp (List.mem_of_getLast? hline)
  obtain ⟨body, hbody⟩ := exists_line r (P := P)
  simp [hbody]

theorem lineTime_line (h : r.Readable P) : lineTime P (r.line P) = timeOf P r.ts := by
  rw [lineTime, h]
  rfl

theorem Filed.getD {file : Option (List Char)} (h : Filed P file records) :
    ∃ gap ∈ [[], ['\n']], file.getD [] = gap ++ flat (records.map (Record.line P)) := by
  cases file with
  | none => exact ⟨[], by simp, by simp [show records = [] from h]⟩
  | some text => exact h

theorem Filed.append {file : Option (List Char)} (h : Filed P file records) :
    Filed P (some (file.getD [] ++ (r.line P ++ ['\n']))) (records ++ [r]) := by
  obtain ⟨gap, hgap, hfile⟩ := h.getD
  exact ⟨gap, hgap, by simp [hfile]⟩

/-- Promoting adds the same records to the text as to the ledger. -/
theorem promoteKeys_filed (hscratch : m.scratch = l.scratch) (hfile : Filed P m.file l.records) :
    (promoteKeys P stamp keys n m).2 = (l.promoteKeys stamp keys n).2 ∧
      (promoteKeys P stamp keys n m).1.scratch = (l.promoteKeys stamp keys n).1.scratch ∧
      Filed P (promoteKeys P stamp keys n m).1.file (l.promoteKeys stamp keys n).1.records := by
  induction keys generalizing n m l with
  | nil => exact ⟨rfl, hscratch, hfile⟩
  | cons key keys ih =>
    cases hget : l.scratch.get? key with
    | none =>
      simp only [promoteKeys, Ledger.promoteKeys, hscratch, hget]
      exact ih hscratch hfile
    | some entry =>
      simp only [promoteKeys, Ledger.promoteKeys, hscratch, hget]
      exact ih rfl hfile.append

theorem promoteAll_filed (h : Holds P m l) :
    (promoteAll P sight m).2 = (l.promoteAll P sight).2 ∧
      (promoteAll P sight m).1.scratch = (l.promoteAll P sight).1.scratch ∧
      Filed P (promoteAll P sight m).1.file (l.promoteAll P sight).1.records := by
  obtain ⟨gap, hgap, hfile⟩ := h.file.getD
  have hcreated : Filed P (some (m.file.getD [])) l.records := ⟨gap, hgap, hfile⟩
  simp only [promoteAll, Ledger.promoteAll, h.scratch]
  cases collect P.lower sight.see l.scratch.entries with
  | error e => exact ⟨rfl, rfl, hcreated⟩
  | ok toDelete =>
    have hm : (⟨l.scratch, some (m.file.getD [])⟩ : Store).scratch = l.scratch := rfl
    obtain ⟨hcount, hscratch, hkeys⟩ := promoteKeys_filed hm hcreated
    exact ⟨congrArg Except.ok hcount, hscratch, hkeys⟩

theorem filter_lines {now : ℚ} (h : ∀ r ∈ records, r.Readable P) :
    (records.map (Record.line P)).filter (fun line => !expired now (lineTime P line)) =
      (Ledger.cleaned P now records).map (Record.line P) := by
  rw [List.filter_map, Ledger.cleaned]
  congr 1
  refine List.filter_congr fun r hr => ?_
  simp [lineTime_line (h r hr)]

theorem countP_lines {now : ℚ} (h : ∀ r ∈ records, r.Readable P) :
    (records.map (Record.line P)).countP (fun line => expired now (lineTime P line)) =
      records.countP fun r => expired now (timeOf P r.ts) := by
  rw [List.countP_map]
  refine List.countP_congr fun r hr => ?_
  simp [lineTime_line (h r hr)]

theorem filed_joinLines : Filed P (some (joinLines (records.map (Record.line P)))) records := by
  by_cases h : records = []
  · subst h
    exact ⟨['\n'], by simp, rfl⟩
  · exact ⟨[], by simp, joinLines_eq_flat (by simpa using h)⟩

/-- A clean-up of the file is one of the ledger. -/
theorem hygiene_holds (h : Holds P m l) (hreads : ReadsBack P l (.hygiene sight)) :
    (hygiene P sight m).2 = (l.hygiene P sight).2 ∧
      Holds P (hygiene P sight m).1 (l.hygiene P sight).1 := by
  obtain ⟨hresult, hscratch, hfile⟩ : _ ∧ _ ∧ Filed P (promoteAll P sight m).1.file _ :=
    promoteAll_filed h
  have hread : ∀ r ∈ (l.promoteAll P sight).1.records, r.Readable P := hreads
  unfold hygiene Ledger.hygiene
  generalize promoteAll P sight m = c at hresult hscratch hfile ⊢
  generalize l.promoteAll P sight = d at hresult hscratch hfile hread ⊢
  obtain ⟨m, result⟩ := c
  obtain ⟨l, result⟩ := d
  subst hresult
  cases result with
  | error e => exact ⟨rfl, hscratch, hfile, hread⟩
  | ok promoted =>
    obtain ⟨gap, hgap, htext⟩ := hfile.getD
    have hsize : m.scratch.entries.length = l.scratch.entries.length := by rw [hscratch]
    simp only [htext, lines_filed hgap, filter_lines hread, countP_lines hread, List.length_map, hsize]
    exact ⟨trivial, hscratch, filed_joinLines, fun r hr => hread r (List.mem_of_mem_filter hr)⟩

theorem loadEpisodic_holds {limit : ℤ} (h : Holds P m l) :
    loadEpisodic P limit m = .ok (sliceFrom (l.records.map Record.toJson) (-limit)) := by
  have hfile := h.file
  unfold loadEpisodic
  cases hm : m.file with
  | none =>
    rw [hm] at hfile
    simp [show l.records = [] from hfile, sliceFrom]
  | some text =>
    rw [hm] at hfile
    obtain ⟨gap, hgap, rfl⟩ := hfile
    have hread : (l.records.map (Record.line P)).mapM P.loads =
        .ok (l.records.map fun r => some r.toJson) := by
      rw [mapM_eq_ok, List.forall₂_map_left_iff, List.forall₂_map_right_iff, List.forall₂_same]
      exact h.readable
    simp only [splitLines_strip_filed hgap, hread, ok_bind]
    simp [List.filterMap_map, pure, Except.pure]

theorem step_holds (h : Holds P m l) (hreads : ReadsBack P l op) :
    (m.step P op).2 = (l.step P op).2 ∧ Holds P (m.step P op).1 (l.step P op).1 := by
  cases op with
  | put key value now => exact ⟨rfl, by rw [Store.step, h.scratch]; rfl, h.file, h.readable⟩
  | get key => exact ⟨by simp [Store.step, Ledger.step, h.scratch], h⟩
  | size => exact ⟨by simp [Store.step, Ledger.step, h.scratch], h⟩
  | clear => exact ⟨rfl, rfl, h.file, h.readable⟩
  | promote sight =>
    obtain ⟨hresult, hscratch, hfile⟩ : _ ∧ _ ∧ Filed P (promoteAll P sight m).1.file _ :=
      promoteAll_filed h
    exact ⟨congrArg Answer.promoted hresult, hscratch, hfile, hreads⟩
  | hygiene sight =>
    obtain ⟨hresult, hholds⟩ := hygiene_holds h hreads
    exact ⟨congrArg Answer.summary hresult, hholds⟩
  | load limit => exact ⟨congrArg Answer.records (loadEpisodic_holds h), h⟩

/-- The calls of a process answer as the ledger does. -/
theorem outputs_store {ops : List Op} (h : Along (Ledger.step P) (ReadsBack P) {} ops) :
    outputs (Store.step P) {} ops = outputs (Ledger.step P) {} ops ∧
      Holds P (final (Store.step P) {} ops) (final (Ledger.step P) {} ops) :=
  simulates (fun _ _ _ hholds hreads => step_holds hholds hreads) ⟨rfl, rfl, nofun⟩ h

/-- A value long enough to be promoted, and its record a day later. -/
@[irreducible] def dayValue : String := .ofList (.replicate minValueLen 'a')

theorem length_dayValue : dayValue.length = minValueLen := by
  unfold dayValue
  exact String.length_ofList.trans List.length_replicate

def dayRecord : Record := ⟨"1970-01-02T00:00:00+00:00", "k", dayValue⟩

theorem integerWriter_ascii : Json.integerWriter.ensureAscii = true := rfl

/-- `json` and `datetime` on this record. -/
def dayPlatform : Platform where
  lower := id
  writer := Json.integerWriter
  ascii := integerWriter_ascii
  loads := fun text =>
    .ok (if text = dumps Json.integerWriter dayRecord.toJson then some dayRecord.toJson else none)
  fromisoformat := fun ts => if ts = dayRecord.ts then some 86400 else none

def daySight : Sight := ⟨openGate 86400, fun _ => dayRecord.ts, 86400⟩

theorem records_promoteAll {key value : String} {seen : ℚ}
    (hcollect : collect P.lower sight.see l.scratch.entries = .ok [key])
    (hget : l.scratch.get? key = some (value, seen)) :
    (l.promoteAll P sight).1.records = l.records ++ [⟨sight.stamp 0, key, value⟩] := by
  simp [Ledger.promoteAll, hcollect, Ledger.promoteKeys, hget]

theorem readsBack_day : Along (Ledger.step dayPlatform) (ReadsBack dayPlatform) {}
    [.put "k" dayValue 0, .hygiene daySight] := by
  have hput : (Ledger.step dayPlatform {} (.put "k" dayValue 0)).1 =
      ⟨.set .empty "k" (dayValue, 0), []⟩ := rfl
  have hday : (Ledger.promoteAll dayPlatform daySight ⟨.set .empty "k" (dayValue, 0), []⟩).1.records =
      [dayRecord] :=
    records_promoteAll (collect_openGate length_dayValue.ge) (by rw [Dict.get?_set, if_pos rfl])
  refine ⟨nofun, ?_, trivial⟩
  intro r hr
  rw [hput, written, hday, List.mem_singleton] at hr
  subst hr
  simp [Record.Readable, Record.line, dayPlatform]

theorem outputs_store_day :
    outputs (Store.step dayPlatform) {} [.put "k" dayValue 0, .hygiene daySight] =
        outputs (Ledger.step dayPlatform) {} [.put "k" dayValue 0, .hygiene daySight] ∧
      Holds dayPlatform (final (Store.step dayPlatform) {} [.put "k" dayValue 0, .hygiene daySight])
        (final (Ledger.step dayPlatform) {} [.put "k" dayValue 0, .hygiene daySight]) :=
  outputs_store readsBack_day

section Kept

variable {key value ts : String} {ops all : List Op}

/-- A stamp that a call of the list gave. -/
def Stamped (ops : List Op) (ts : String) : Prop :=
  ∃ sight i, (.promote sight ∈ ops ∨ .hygiene sight ∈ ops) ∧ ts = sight.stamp i

def Ledger.InScratch (l : Ledger) (key value : String) : Prop :=
  ∃ seen, l.scratch.get? key = some (value, seen)

/-- A call that neither replaces the value of a key nor clears the scratch. -/
def Op.Spares (key : String) (op : Op) : Prop :=
  op ≠ .clear ∧ ∀ value now, op ≠ .put key value now

/-- The value of a key is in scratch, or it has a record, which stays until it expires. -/
def Retained (P : Platform) (all : List Op) (key value : String) (l : Ledger) : Prop :=
  l.InScratch key value ∨ ∃ ts, Stamped all ts ∧ (⟨ts, key, value⟩ ∈ l.records ∨
    ∃ sight, .hygiene sight ∈ all ∧ expired sight.now (timeOf P ts))

theorem promoteKeys_records : l.records <+: (l.promoteKeys stamp keys n).1.records := by
  induction keys generalizing n l with
  | nil => exact List.prefix_rfl
  | cons k keys ih =>
    cases hget : l.scratch.get? k with
    | none =>
      simp only [Ledger.promoteKeys, hget]
      exact ih
    | some entry =>
      simp only [Ledger.promoteKeys, hget]
      have hnext : l.records ++ [⟨stamp n, k, entry.1⟩] <+:
          (Ledger.promoteKeys stamp keys (n + 1)
            ⟨l.scratch.erase k, l.records ++ [⟨stamp n, k, entry.1⟩]⟩).1.records :=
        @ih ⟨l.scratch.erase k, l.records ++ [⟨stamp n, k, entry.1⟩]⟩ (n + 1)
      exact (List.prefix_append _ _).trans hnext

/-- A promoted value has a record with one of the stamps. -/
theorem promoteKeys_keeps (h : l.InScratch key value) :
    (l.promoteKeys stamp keys n).1.InScratch key value ∨
      ∃ i, ⟨stamp i, key, value⟩ ∈ (l.promoteKeys stamp keys n).1.records := by
  induction keys generalizing n l with
  | nil => exact .inl h
  | cons k keys ih =>
    obtain ⟨seen, hseen⟩ := h
    cases hget : l.scratch.get? k with
    | none =>
      simp only [Ledger.promoteKeys, hget]
      exact ih ⟨seen, hseen⟩
    | some entry =>
      simp only [Ledger.promoteKeys, hget]
      by_cases hk : key = k
      · subst hk
        obtain rfl : (value, seen) = entry := by simpa [hseen] using hget
        refine .inr ⟨n, promoteKeys_records.subset ?_⟩
        simp
      · exact ih ⟨seen, by simpa [Dict.get?_erase hk] using hseen⟩

theorem Retained.promoteAll (h : Retained P all key value l)
    (hop : .promote sight ∈ all ∨ .hygiene sight ∈ all) :
    Retained P all key value (l.promoteAll P sight).1 := by
  unfold Ledger.promoteAll
  cases collect P.lower sight.see l.scratch.entries with
  | error e => exact h
  | ok toDelete =>
    obtain hscratch | ⟨ts, hts, hrecord | hgone⟩ := h
    · obtain hscratch | ⟨i, hi⟩ := promoteKeys_keeps hscratch
      · exact .inl hscratch
      · exact .inr ⟨sight.stamp i, ⟨sight, i, hop, rfl⟩, .inl hi⟩
    · exact .inr ⟨ts, hts, .inl (promoteKeys_records.subset hrecord)⟩
    · exact .inr ⟨ts, hts, .inr hgone⟩

theorem Retained.hygiene (h : Retained P all key value l) (hop : .hygiene sight ∈ all) :
    Retained P all key value (l.hygiene P sight).1 := by
  have hsafe := h.promoteAll (.inr hop)
  unfold Ledger.hygiene
  generalize l.promoteAll P sight = d at hsafe ⊢
  obtain ⟨l, e | promoted⟩ := d
  · exact hsafe
  · obtain hscratch | ⟨ts, hts, hrecord | hgone⟩ := hsafe
    · exact .inl hscratch
    · -- the record passes the clean-up, or it has expired
      cases hexpired : expired sight.now (timeOf P ts) with
      | true => exact .inr ⟨ts, hts, .inr ⟨sight, hop, hexpired⟩⟩
      | false => exact .inr ⟨ts, hts, .inl (List.mem_filter.mpr ⟨hrecord, by simp [hexpired]⟩)⟩
    · exact .inr ⟨ts, hts, .inr hgone⟩

theorem Retained.step (h : Retained P all key value l) (hop : op ∈ all) (hspares : op.Spares key) :
    Retained P all key value (l.step P op).1 := by
  cases op with
  | put key' value' now =>
    obtain ⟨seen, hseen⟩ | hrecord := h
    · have hne : key ≠ key' := by
        rintro rfl
        exact hspares.2 value' now rfl
      exact .inl ⟨seen, by simp [Ledger.step, Dict.get?_set, hne, hseen]⟩
    · exact .inr hrecord
  | get key' => exact h
  | size => exact h
  | clear => exact absurd rfl hspares.1
  | promote sight => exact h.promoteAll (.inl hop)
  | hygiene sight => exact h.hygiene hop
  | load limit => exact h

theorem Retained.final (h : Retained P all key value l) (hops : ∀ op ∈ ops, op ∈ all ∧ op.Spares key) :
    Retained P all key value (final (Ledger.step P) l ops) := by
  induction ops generalizing l with
  | nil => exact h
  | cons op ops ih =>
    obtain ⟨hop, hspares⟩ := hops op (by simp)
    exact ih (h.step hop hspares) fun op' hop' => hops op' (by simp [hop'])

end Kept

section Alone

variable {ι : Type*} [DecidableEq ι] {i : ι} {phase : ι → Phase} {see : String → Probe}
  {lower : String → String} {c d : Memory ι}

/-- One promotion gets there by steps of its own. -/
def Reaches (lower : String → String) (i : ι) (see : String → Probe) (c d : Memory ι) : Prop :=
  ∃ moves : List (Move ι), (∀ x ∈ moves, ∃ ts, x = .next i see ts) ∧
    final (Memory.step lower) c moves = d

theorem Reaches.next (ts : String) (h : Reaches lower i see (c.step lower (.next i see ts)).1 d) :
    Reaches lower i see c d := by
  obtain ⟨moves, hmoves, hfinal⟩ := h
  exact ⟨.next i see ts :: moves, List.forall_mem_cons.mpr ⟨⟨ts, rfl⟩, hmoves⟩, hfinal⟩

/-- The memory of the interleaved promotions that a ledger describes. -/
def Ledger.memory (l : Ledger) (phase : ι → Phase) : Memory ι := ⟨l.scratch, some l.records, phase⟩

/-- The loop of a promotion that no other call disturbs. -/
theorem reaches_returned (h : phase i = .working keys n) :
    Reaches lower i see (l.memory phase) ((l.promoteKeys stamp keys n).1.memory
      (Function.update phase i (.returned (l.promoteKeys stamp keys n).2))) := by
  induction keys generalizing n l phase with
  | nil =>
    refine .next "" ⟨[], nofun, ?_⟩
    simp [Memory.step, Ledger.memory, h, Memory.setPhase, Ledger.promoteKeys]
  | cons key keys ih =>
    cases hget : l.scratch.get? key with
    | none =>
      refine .next "" ?_
      have hstep : ((l.memory phase).step lower (.next i see "")).1 =
          l.memory (Function.update phase i (.working keys n)) := by
        simp [Memory.step, Ledger.memory, h, hget, Memory.setPhase]
      have hrest := @ih l n (Function.update phase i (.working keys n)) (by simp)
      rw [Function.update_idem] at hrest
      simpa [hstep, Ledger.promoteKeys, hget] using hrest
    | some entry =>
      -- it reads the entry, appends its record and deletes it
      refine .next "" (.next (stamp n) (.next "" ?_))
      have hsteps : ((((l.memory phase).step lower (.next i see "")).1.step lower
            (.next i see (stamp n))).1.step lower (.next i see "")).1 =
          Ledger.memory ⟨l.scratch.erase key, l.records ++ [⟨stamp n, key, entry.1⟩]⟩
            (Function.update phase i (.working keys (n + 1))) := by
        simp [Memory.step, Ledger.memory, h, hget, Memory.setPhase]
      have hrest := @ih ⟨l.scratch.erase key, l.records ++ [⟨stamp n, key, entry.1⟩]⟩ (n + 1)
        (Function.update phase i (.working keys (n + 1))) (by simp)
      rw [Function.update_idem] at hrest
      simpa [hsteps, Ledger.promoteKeys, hget] using hrest

/-- How a promotion ends that returned or raised. -/
def ended : Except PyError ℕ → Phase
  | .ok promoted => .returned promoted
  | .error e => .raised e

end Alone

end Pyharmonics.LoopContext
