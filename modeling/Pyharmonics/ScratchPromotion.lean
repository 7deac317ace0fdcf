import Mathlib.Algebra.Order.Ring.Rat
import Pyharmonics.Errors
import Pyharmonics.Library.Dict
import Pyharmonics.Library.Machines
import Pyharmonics.VibeOrchestrator

/-! The promotion of scratch entries to the episodic file, with puts and other promotions between
its steps. -/
namespace Pyharmonics.LoopContext

open Machines VibeAgent

/-- An item of the denylist: a text, or a value of another type. -/
inductive Pattern
  | text (s : String)
  | other (typeName : String)

/-- What `load_gate_config` gives: it raises, or its denylist is no collection, or has items. -/
inductive Gate
  | unreadable
  | scalar (typeName : String)
  | denylist (patterns : List Pattern)

/-- What the check of an entry reads: the clock, in seconds, and the gate. -/
structure Probe where
  now : ℚ
  gate : Gate

/-- `MIN_VALUE_LEN`, in characters -/
def minValueLen : ℕ := 256

/-- `MIN_AGE_HOURS` -/
def minAgeHours : ℚ := 24

variable {ι : Type*} [DecidableEq ι] {lower : String → String} {key value : String} {firstSeen : ℚ}

/-- A pattern of the denylist occurs in the key or in the value, whatever the case. -/
def Denied (lower : String → String) (key value pattern : String) : Prop :=
  Contains (lower pattern) (lower key) ∨ Contains (lower pattern) (lower value)

instance decidableDenied {pattern : String} : Decidable (Denied lower key value pattern) :=
  inferInstanceAs (Decidable (_ ∨ _))

/-- The loop of `should_promote`. -/
def passes (lower : String → String) (key value : String) : List Pattern → Except PyError Bool
  | [] => .ok true
  | .text pattern :: rest =>
    if Denied lower key value pattern then .ok false else passes lower key value rest
  | .other typeName :: _ =>
    .error (.attributeError ("'" ++ typeName ++ "' object has no attribute 'lower'"))

/-- `should_promote` -/
def shouldPromote (lower : String → String) (key value : String) (firstSeen : ℚ) (see : Probe) :
    Except PyError Bool :=
  if value.length < minValueLen then .ok false
  else if (see.now - firstSeen) / 3600 < minAgeHours then .ok false
  else
    match see.gate with
    | .unreadable => .ok false
    | .scalar typeName => .error (.typeError ("'" ++ typeName ++ "' object is not iterable"))
    | .denylist patterns => passes lower key value patterns

/-- `to_delete`: the keys to promote of a list of entries. -/
def collect (lower : String → String) (see : String → Probe) :
    List (String × String × ℚ) → Except PyError (List String)
  | [] => .ok []
  | (key, value, firstSeen) :: rest => do
    let promote ← shouldPromote lower key value firstSeen (see key)
    let toDelete ← collect lower see rest
    return if promote then key :: toDelete else toDelete

/-- A line of the episodic file. -/
structure Record where
  ts : String
  key : String
  value : String

/-- Where a call of `promote_all` stands: before its first step, at the creation of the file it
found missing, before it collects, at the head of its loop, with the entry it has read, behind the
append of its record, and at its end. -/
inductive Phase
  | called
  | missing
  | ready
  | working (toDelete : List String) (promoted : ℕ)
  | holding (key value : String) (toDelete : List String) (promoted : ℕ)
  | recorded (key : String) (toDelete : List String) (promoted : ℕ)
  | returned (promoted : ℕ)
  | raised (e : PyError)

/-- `_scratch`, the episodic file, and where the calls stand. -/
structure Memory (ι : Type*) where
  scratch : Dict String (String × ℚ)
  file : Option (List Record)
  phase : ι → Phase

def Memory.start (file : Option (List Record)) : Memory ι := ⟨.empty, file, fun _ => .called⟩

def Memory.setPhase (m : Memory ι) (i : ι) (p : Phase) : Memory ι :=
  { m with phase := Function.update m.phase i p }

/-- A `scratch_put`, or the next step of one of the promotions, with what the gate and the clocks
show it. -/
inductive Move (ι : Type*)
  | put (key value : String) (now : ℚ)
  | next (i : ι) (see : String → Probe) (ts : String)

/-- One locked section, one append, or one of the steps with which a promotion begins and ends. -/
def Memory.step (lower : String → String) (m : Memory ι) : Move ι → Memory ι × Unit
  | .put key value now => ({ m with scratch := m.scratch.set key (value, now) }, ())
  | .next i see ts =>
    match m.phase i with
    | .called =>
      match m.file with
      | none => (m.setPhase i .missing, ())
      | some _ => (m.setPhase i .ready, ())
    | .missing => ({ m.setPhase i .ready with file := some [] }, ())
    | .ready =>
      match collect lower see m.scratch.entries with
      | .error e => (m.setPhase i (.raised e), ())
      | .ok toDelete => (m.setPhase i (.working toDelete 0), ())
    | .working [] promoted => (m.setPhase i (.returned promoted), ())
    | .working (key :: toDelete) promoted =>
      match m.scratch.get? key with
      | none => (m.setPhase i (.working toDelete promoted), ())
      | some (value, _) => (m.setPhase i (.holding key value toDelete promoted), ())
    | .holding key value toDelete promoted =>
      ({ m.setPhase i (.recorded key toDelete promoted) with
        file := some (m.file.getD [] ++ [⟨ts, key, value⟩]) }, ())
    | .recorded key toDelete promoted =>
      match m.scratch.get? key with
      | none => (m.setPhase i (.raised (.other ("KeyError: " ++ key))), ())
      | some _ =>
        ({ m.setPhase i (.working toDelete (promoted + 1)) with
          scratch := m.scratch.erase key }, ())
    | .returned _ | .raised _ => (m, ())

/-- The memory after a run in a process that starts with the file. -/
def reached (lower : String → String) (file : Option (List Record)) (run : List (Move ι)) :
    Memory ι :=
  final (Memory.step lower) (.start file) run

/-- What a move makes of the last value put for the key. -/
def Move.putFor (key : String) (last : Option String) : Move ι → Option String
  | .put key' value _ => if key = key' then some value else last
  | .next .. => last

/-- The last value put for the key. -/
def lastPut (run : List (Move ι)) (key : String) : Option String :=
  run.foldl (Move.putFor key) none

def InScratch (m : Memory ι) (key value : String) : Prop :=
  ∃ firstSeen, m.scratch.get? key = some (value, firstSeen)

def Recorded (m : Memory ι) (key value : String) : Prop :=
  ∃ r ∈ m.file.getD [], r.key = key ∧ r.value = value

/-- The last value put for each key is in scratch or in the file. -/
def Kept (run : List (Move ι)) (m : Memory ι) : Prop :=
  ∀ key value, lastPut run key = some value → InScratch m key value ∨ Recorded m key value

def NeverRaised (m : Memory ι) : Prop := ∀ i e, m.phase i ≠ .raised e

def AllReturned (m : Memory ι) : Prop := ∀ i, ∃ promoted, m.phase i = .returned promoted

/-- Before an item of the denylist that is no text stands a text that denies the entry. -/
def TextsFirst (lower : String → String) (key value : String) (patterns : List Pattern) : Prop :=
  ∀ before typeName rest, patterns = before ++ .other typeName :: rest →
    ∃ pattern, .text pattern ∈ before ∧ Denied lower key value pattern

/-- The gate can be applied to the entry, if it is long enough and old enough. -/
def Probe.Applies (lower : String → String) (key value : String) (firstSeen : ℚ) (see : Probe) :
    Prop :=
  minValueLen ≤ value.length → minAgeHours ≤ (see.now - firstSeen) / 3600 →
    match see.gate with
    | .unreadable => True
    | .scalar _ => False
    | .denylist patterns => TextsFirst lower key value patterns

/-- A promotion creates the file only while every key put is still in scratch, applies the gate only
where it can, and deletes only an entry whose value the file records. -/
def Orderly (lower : String → String) (run : List (Move ι)) (m : Memory ι) : Move ι → Prop
  | .put .. => True
  | .next i see _ =>
    match m.phase i with
    | .missing => ∀ key value, lastPut run key = some value → key ∈ m.scratch.keys
    | .ready => ∀ e ∈ m.scratch.entries, (see e.1).Applies lower e.1 e.2.1 e.2.2
    | .recorded key _ _ => ∃ value, InScratch m key value ∧ Recorded m key value
    | .called | .working .. | .holding .. | .returned _ | .raised _ => True

variable {m m' : Memory ι} {i j : ι} {p q : Phase} {x : Move ι} {run moves : List (Move ι)}
  {see : String → Probe} {ts : String} {file : Option (List Record)} {now : ℚ} {see' : Probe}

theorem textsFirst_cons {pattern : String} {patterns : List Pattern} :
    TextsFirst lower key value (.text pattern :: patterns) ↔
      Denied lower key value pattern ∨ TextsFirst lower key value patterns := by
  constructor
  · intro h
    by_cases hdenied : Denied lower key value pattern
    · exact .inl hdenied
    · refine .inr fun before typeName rest heq => ?_
      obtain ⟨pattern', hmem, hdenied'⟩ :=
        h (.text pattern :: before) typeName rest (by rw [heq]; rfl)
      rcases List.mem_cons.mp hmem with he | hmem
      · cases he
        exact absurd hdenied' hdenied
      · exact ⟨pattern', hmem, hdenied'⟩
  · intro h before typeName rest heq
    cases before with
    | nil => cases heq
    | cons head before =>
      cases heq
      rcases h with hdenied | h
      · exact ⟨pattern, List.mem_cons_self, hdenied⟩
      · obtain ⟨pattern', hmem, hdenied'⟩ := h before typeName rest rfl
        exact ⟨pattern', List.mem_cons_of_mem _ hmem, hdenied'⟩

theorem passes_ok_iff {patterns : List Pattern} :
    (∃ b, passes lower key value patterns = .ok b) ↔ TextsFirst lower key value patterns := by
  induction patterns with
  | nil => simp [passes, TextsFirst]
  | cons pattern patterns ih =>
    cases pattern with
    | other typeName =>
      simp only [passes, reduceCtorEq, exists_false, false_iff]
      intro h
      obtain ⟨pattern, hmem, -⟩ := h [] typeName patterns rfl
      cases hmem
    | text pattern =>
      rw [passes, textsFirst_cons]
      by_cases hdenied : Denied lower key value pattern
      · rw [if_pos hdenied]
        exact iff_of_true ⟨false, rfl⟩ (.inl hdenied)
      · rw [if_neg hdenied, ih, or_iff_right hdenied]

theorem shouldPromote_ok_iff :
    (∃ b, shouldPromote lower key value firstSeen see' = .ok b) ↔
      see'.Applies lower key value firstSeen := by
  rw [shouldPromote, Probe.Applies]
  by_cases hlen : value.length < minValueLen
  · simp [hlen]
  · by_cases hage : (see'.now - firstSeen) / 3600 < minAgeHours
    · simp [hlen, hage]
    · rw [if_neg hlen, if_neg hage, forall_prop_of_true (not_lt.mp hlen),
        forall_prop_of_true (not_lt.mp hage)]
      cases see'.gate with
      | unreadable => simp
      | scalar typeName => simp
      | denylist patterns => exact passes_ok_iff

theorem collect_ok_iff {entries : List (String × String × ℚ)} :
    (∃ toDelete, collect lower see entries = .ok toDelete) ↔
      ∀ e ∈ entries, (see e.1).Applies lower e.1 e.2.1 e.2.2 := by
  induction entries with
  | nil => simp [collect]
  | cons e entries ih =>
    obtain ⟨key, value, firstSeen⟩ := e
    rw [List.forall_mem_cons, ← ih, ← shouldPromote_ok_iff]
    simp only [collect, bind_ok]
    constructor
    · rintro ⟨-, b, hb, toDelete, hrest, -⟩
      exact ⟨⟨b, hb⟩, toDelete, hrest⟩
    · rintro ⟨⟨b, hb⟩, toDelete, hrest⟩
      exact ⟨_, b, hb, toDelete, hrest, rfl⟩

omit [DecidableEq ι] in
theorem lastPut_concat : lastPut (run ++ [x]) key = x.putFor key (lastPut run key) := by
  rw [lastPut, List.foldl_append]
  rfl

omit [DecidableEq ι] in
@[simp] theorem lastPut_next : lastPut (run ++ [.next i see ts]) key = lastPut run key :=
  lastPut_concat

omit [DecidableEq ι] in
theorem lastPut_put {key' : String} :
    lastPut (run ++ [.put key' value now]) key =
      if key = key' then some value else lastPut run key :=
  lastPut_concat

theorem reached_concat :
    reached lower file (run ++ [x]) = ((reached lower file run).step lower x).1 := final_append

/-- A promotion that comes to hold an entry has read it; none comes to its deletion like this. -/
def Reads (m : Memory ι) : Phase → Prop
  | .holding key value _ _ => InScratch m key value
  | .recorded .. => False
  | .called | .missing | .ready | .working .. | .returned _ | .raised _ => True

/-- What one move can do. -/
inductive Steps (lower : String → String) (m : Memory ι) : Move ι → Memory ι → Prop
  | puts (key value : String) (now : ℚ) :
      Steps lower m (.put key value now) { m with scratch := m.scratch.set key (value, now) }
  | stays (i : ι) (see : String → Probe) (ts : String)
      (h : ∀ run, Orderly lower run m (.next i see ts)) : Steps lower m (.next i see ts) m
  | moves (i : ι) (see : String → Probe) (ts : String) (p : Phase) (hp : ∀ e, p ≠ .raised e)
      (h : ∀ run, Orderly lower run m (.next i see ts)) (hread : Reads m p) :
      Steps lower m (.next i see ts) (m.setPhase i p)
  | creates (i : ι) (see : String → Probe) (ts : String) (h : m.phase i = .missing) :
      Steps lower m (.next i see ts) { m.setPhase i .ready with file := some [] }
  | fails (i : ι) (see : String → Probe) (ts : String) (e : PyError)
      (h : ∀ run, ¬ Orderly lower run m (.next i see ts)) :
      Steps lower m (.next i see ts) (m.setPhase i (.raised e))
  | records (i : ι) (see : String → Probe) (ts key value : String) (toDelete : List String)
      (promoted : ℕ) (h : m.phase i = .holding key value toDelete promoted) :
      Steps lower m (.next i see ts)
        { m.setPhase i (.recorded key toDelete promoted) with
          file := some (m.file.getD [] ++ [⟨ts, key, value⟩]) }
  | deletes (i : ι) (see : String → Probe) (ts key value : String) (toDelete : List String)
      (promoted : ℕ) (h : m.phase i = .recorded key toDelete promoted)
      (hkey : InScratch m key value) :
      Steps lower m (.next i see ts)
        { m.setPhase i (.working toDelete (promoted + 1)) with scratch := m.scratch.erase key }

theorem steps_step : Steps lower m x (m.step lower x).1 := by
  cases x with
  | put key value now => exact .puts key value now
  | next i see ts =>
    rw [Memory.step]
    split
    · next h =>
      have horderly : ∀ run, Orderly lower run m (.next i see ts) := by simp [Orderly, h]
      split
      · exact .moves _ _ _ _ (by simp) horderly trivial
      · exact .moves _ _ _ _ (by simp) horderly trivial
    · next h => exact .creates _ _ _ h
    · next h =>
      have hchecks : ∀ run, Orderly lower run m (.next i see ts) ↔
          ∃ toDelete, collect lower see m.scratch.entries = .ok toDelete := by
        intro run
        simp only [Orderly, h, collect_ok_iff]
      split
      · next e he => exact .fails _ _ _ e (by simp [hchecks, he])
      · next toDelete hok => exact .moves _ _ _ _ (by simp) (by simp [hchecks, hok]) trivial
    · next h => exact .moves _ _ _ _ (by simp) (by simp [Orderly, h]) trivial
    · next h =>
      have horderly : ∀ run, Orderly lower run m (.next i see ts) := by simp [Orderly, h]
      split
      · exact .moves _ _ _ _ (by simp) horderly trivial
      · next value firstSeen hsome => exact .moves _ _ _ _ (by simp) horderly ⟨firstSeen, hsome⟩
    · next h => exact .records _ _ _ _ _ _ _ h
    · next h =>
      split
      · next hnone => exact .fails _ _ _ _ (by simp [Orderly, h, InScratch, hnone])
      · next entry hsome => exact .deletes _ _ _ _ entry.1 _ _ h ⟨entry.2, hsome⟩
    · next h => exact .stays _ _ _ (by simp [Orderly, h])
    · next h => exact .stays _ _ _ (by simp [Orderly, h])

/-- What is in scratch was put last. -/
def Fresh (run : List (Move ι)) (m : Memory ι) : Prop :=
  ∀ key value, InScratch m key value → lastPut run key = some value

/-- No promotion has raised, and no last value is gone. -/
structure Safe (run : List (Move ι)) (m : Memory ι) : Prop where
  quiet : NeverRaised m
  kept : Kept run m

omit [DecidableEq ι] in
theorem inScratch_set {key' value' : String} :
    InScratch { m with scratch := m.scratch.set key (value, now) } key' value' ↔
      key' = key ∧ value' = value ∨ key' ≠ key ∧ InScratch m key' value' := by
  rw [InScratch, Dict.get?_set]
  by_cases h : key' = key
  · simp [h, eq_comm]
  · simp [h, InScratch]

theorem Fresh.step (h : Fresh run m) (hs : Steps lower m x m') : Fresh (run ++ [x]) m' := by
  intro key' value' hin
  cases hs with
  | puts key value now =>
    rw [lastPut_put]
    rcases inScratch_set.mp hin with ⟨rfl, rfl⟩ | ⟨hne, hin⟩
    · exact if_pos rfl
    · rw [if_neg hne]
      exact h key' value' hin
  | deletes i see ts key value toDelete promoted hphase hkey =>
    rw [lastPut_next]
    obtain ⟨firstSeen, hget⟩ := hin
    have hne : key' ≠ key := by
      rintro rfl
      simp [Dict.get?_erase_eq] at hget
    exact h key' value' ⟨firstSeen, (Dict.get?_erase hne).symm.trans hget⟩
  | stays | moves | creates | fails | records =>
    rw [lastPut_next]
    exact h key' value' hin

theorem fresh_reached : Fresh run (reached lower file run) := by
  induction run using List.reverseRecOn with
  | nil =>
    rintro key value ⟨firstSeen, hget⟩
    cases hget
  | append_singleton run x ih =>
    rw [reached_concat]
    exact ih.step steps_step

theorem NeverRaised.setPhase (h : NeverRaised m) (hp : ∀ e, p ≠ .raised e) :
    NeverRaised (m.setPhase i p) := by
  intro j e hj
  rcases moved_iff.mp hj with ⟨-, hpe⟩ | ⟨-, hj⟩
  · exact hp e hpe
  · exact h j e hj

omit [DecidableEq ι] in
theorem Kept.put (h : Kept run m) :
    Kept (run ++ [.put key value now]) { m with scratch := m.scratch.set key (value, now) } := by
  intro key' value' hlast
  rw [lastPut_put] at hlast
  by_cases hk : key' = key
  · rw [if_pos hk] at hlast
    exact .inl (inScratch_set.mpr (.inl ⟨hk, (Option.some.inj hlast).symm⟩))
  · rw [if_neg hk] at hlast
    exact (h key' value' hlast).imp_left fun hin => inScratch_set.mpr (.inr ⟨hk, hin⟩)

omit [DecidableEq ι] in
/-- The creation of the file, which empties one that another promotion has created meanwhile. -/
theorem kept_truncate_iff (hfresh : Fresh run m) {phase : ι → Phase} :
    Kept run { m with file := some [], phase := phase } ↔
      ∀ key value, lastPut run key = some value → key ∈ m.scratch.keys := by
  refine forall₂_congr fun key value => forall_congr' fun hlast => ?_
  rw [Dict.mem_keys_iff]
  constructor
  · rintro (⟨firstSeen, hget⟩ | ⟨r, hr, -⟩)
    · exact ⟨_, hget⟩
    · cases hr
  · rintro ⟨⟨value', firstSeen⟩, hget⟩
    have heq : value' = value :=
      Option.some.inj ((hfresh key value' ⟨firstSeen, hget⟩).symm.trans hlast)
    exact .inl ⟨firstSeen, heq ▸ hget⟩

omit [DecidableEq ι] in
theorem Kept.append (h : Kept run m) {r : Record} {phase : ι → Phase} :
    Kept run { m with file := some (m.file.getD [] ++ [r]), phase := phase } := by
  intro key' value' hlast
  refine (h key' value' hlast).imp_right ?_
  rintro ⟨r', hr', heq⟩
  exact ⟨r', List.mem_append_left _ hr', heq⟩

omit [DecidableEq ι] in
theorem kept_erase_iff (h : Kept run m) (hfresh : Fresh run m) (hkey : InScratch m key value)
    {phase : ι → Phase} :
    Kept run { m with scratch := m.scratch.erase key, phase := phase } ↔ Recorded m key value := by
  constructor
  · intro hkept
    rcases hkept key value (hfresh key value hkey) with ⟨firstSeen, hget⟩ | hrecorded
    · simp [Dict.get?_erase_eq] at hget
    · exact hrecorded
  · intro hrecorded key' value' hlast
    by_cases hk : key' = key
    · subst hk
      cases (hfresh key' value hkey).symm.trans hlast
      exact .inr hrecorded
    · refine (h key' value' hlast).imp_left ?_
      rintro ⟨firstSeen, hget⟩
      exact ⟨firstSeen, (Dict.get?_erase hk).trans hget⟩

omit [DecidableEq ι] in
theorem inScratch_unique {value' : String} (h : InScratch m key value)
    (h' : InScratch m key value') : value' = value := by
  obtain ⟨firstSeen, hget⟩ := h
  obtain ⟨firstSeen', hget'⟩ := h'
  cases hget.symm.trans hget'
  rfl

omit [DecidableEq ι] in
theorem kept_next : Kept (run ++ [.next i see ts]) m ↔ Kept run m := by
  simp only [Kept, lastPut_next]

theorem Safe.step_iff (h : Safe run m) (hfresh : Fresh run m) (hs : Steps lower m x m') :
    Orderly lower run m x ↔ Safe (run ++ [x]) m' := by
  cases hs with
  | puts key value now => exact iff_of_true trivial ⟨h.quiet, h.kept.put⟩
  | stays i see ts horderly =>
    exact iff_of_true (horderly run) ⟨h.quiet, kept_next.mpr h.kept⟩
  | moves i see ts p hp horderly hread =>
    exact iff_of_true (horderly run) ⟨h.quiet.setPhase hp, kept_next.mpr h.kept⟩
  | creates i see ts hphase =>
    have horderly : Orderly lower run m (.next i see ts) ↔
        ∀ key value, lastPut run key = some value → key ∈ m.scratch.keys := by
      simp only [Orderly, hphase]
    rw [horderly, ← kept_truncate_iff hfresh]
    constructor
    · exact fun hkept => ⟨h.quiet.setPhase (by simp), kept_next.mpr hkept⟩
    · exact fun hsafe => kept_next.mp hsafe.kept
  | fails i see ts e hnot =>
    refine iff_of_false (hnot run) ?_
    exact fun hsafe => hsafe.quiet i e (moved_iff.mpr (.inl ⟨rfl, rfl⟩))
  | records i see ts key value toDelete promoted hphase =>
    refine iff_of_true (by simp only [Orderly, hphase]) ?_
    exact ⟨h.quiet.setPhase (by simp), kept_next.mpr h.kept.append⟩
  | deletes i see ts key value toDelete promoted hphase hkey =>
    have horderly : Orderly lower run m (.next i see ts) ↔ Recorded m key value := by
      simp only [Orderly, hphase]
      constructor
      · rintro ⟨value', hkey', hrecorded⟩
        exact inScratch_unique hkey hkey' ▸ hrecorded
      · exact fun hrecorded => ⟨value, hkey, hrecorded⟩
    rw [horderly, ← kept_erase_iff h.kept hfresh hkey]
    constructor
    · exact fun hkept => ⟨h.quiet.setPhase (by simp), kept_next.mpr hkept⟩
    · exact fun hsafe => kept_next.mp hsafe.kept

omit [DecidableEq ι] in
theorem safe_start : Safe [] (Memory.start file : Memory ι) := by
  constructor
  · intro i e h
    cases h
  · intro key value h
    cases h

theorem safe_step_iff (h : Safe run (reached lower file run)) :
    Orderly lower run (reached lower file run) x ↔
      Safe (run ++ [x]) (reached lower file (run ++ [x])) := by
  rw [reached_concat]
  exact h.step_iff fresh_reached steps_step

/-- Every move of a run is orderly exactly when after every part of it no promotion has raised and
the last value put for each key is in scratch or in the file. -/
theorem forall_orderly_iff_kept :
    (∀ run x, run ++ [x] <+: moves → Orderly lower run (reached lower file run) x) ↔
      ∀ run, run <+: moves →
        NeverRaised (reached lower file run) ∧ Kept run (reached lower file run) := by
  have hsafe : ∀ run : List (Move ι), NeverRaised (reached lower file run) ∧
      Kept run (reached lower file run) ↔ Safe run (reached lower file run) :=
    fun run => ⟨fun h => ⟨h.1, h.2⟩, fun h => ⟨h.quiet, h.kept⟩⟩
  simp only [hsafe]
  exact forall_isPrefix_iff safe_start fun run x => safe_step_iff

/-- What the gate and the clock show when a promotion collects at the time. -/
def openGate (now : ℚ) : String → Probe := fun _ => ⟨now, .denylist []⟩

/-- A put between the read of an entry and its deletion, a day after the entry was put. -/
def putInGap (value value' : String) : List (Move Unit) :=
  [.put "k" value 0, .next () (openGate 0) "t", .next () (openGate 0) "t",
    .next () (openGate 86400) "t", .next () (openGate 0) "t", .put "k" value' 86401,
    .next () (openGate 0) "t", .next () (openGate 0) "t", .next () (openGate 0) "t"]

theorem collect_openGate (h : minValueLen ≤ value.length) :
    collect id (openGate 86400) (Dict.empty.set "k" (value, 0)).entries = .ok ["k"] := by
  have hpromote : shouldPromote id "k" value 0 (openGate 86400 "k") = .ok true := by
    rw [shouldPromote, if_neg (not_lt.mpr h), if_neg (by norm_num [openGate, minAgeHours])]
    rfl
  change collect id (openGate 86400) [("k", value, 0)] = _
  rw [collect, hpromote]
  rfl

theorem reached_putInGap {value' : String} (h : minValueLen ≤ value.length) :
    reached id none (putInGap value value') =
      ⟨.empty, some [⟨"t", "k", value⟩], fun _ => .returned 1⟩ := by
  simp only [reached, putInGap, final_cons, final_nil, Memory.step, Memory.start, Memory.setPhase,
    collect_openGate h, Dict.get?_set, Function.update_self, Function.update_idem, if_pos,
    Option.getD_some, List.nil_append]
  congr 1

/-- The put is deleted with the entry, and the file records the value it replaced. -/
theorem putInGap_lost :
    AllReturned (reached id none (putInGap (.ofList (.replicate 256 'a')) "new")) ∧
      ¬ Kept (putInGap (.ofList (.replicate 256 'a')) "new")
        (reached id none (putInGap (.ofList (.replicate 256 'a')) "new")) := by
  have hlength : (String.ofList (.replicate 256 'a')).length = 256 := by
    rw [String.length_ofList, List.length_replicate]
  rw [reached_putInGap hlength.ge]
  refine ⟨fun _ => ⟨1, rfl⟩, ?_⟩
  intro hkept
  rcases hkept "k" "new" rfl with ⟨firstSeen, hget⟩ | ⟨r, hr, -, hvalue⟩
  · cases hget
  · obtain rfl := List.mem_singleton.mp hr
    have hshort := hlength.symm.trans (congrArg String.length hvalue)
    cases hshort

-- Two promotions read the entry before either deletes it, and the second deletion raises.
example (h : minValueLen ≤ value.length) :
    ¬ NeverRaised (reached id (some []) (.put "k" value 0 ::
      [false, true, false, true, false, true, false, true, false, true].map
        fun i => .next i (openGate 86400) "t")) := by
  intro hquiet
  refine hquiet true (.other "KeyError: k") ?_
  simp [reached, Memory.step, Memory.start, Memory.setPhase, collect_openGate h, Dict.get?_set,
    Dict.get?_erase_eq]

/-- The key that the call has read and not yet deleted. -/
def Phase.key? : Phase → Option String
  | .holding key _ _ _ | .recorded key _ _ => some key
  | .called | .missing | .ready | .working .. | .returned _ | .raised _ => none

/-- No put and no deletion of a key comes between a promotion's read of it and its deletion, the
file is created once, and the gate can be applied. -/
def Undisturbed (lower : String → String) (m : Memory ι) : Move ι → Prop
  | .put key _ _ => ∀ j, (m.phase j).key? ≠ some key
  | .next i see _ =>
    match m.phase i with
    | .missing => m.file = none
    | .ready => ∀ e ∈ m.scratch.entries, (see e.1).Applies lower e.1 e.2.1 e.2.2
    | .recorded key _ _ => ∀ j, j ≠ i → (m.phase j).key? ≠ some key
    | .called | .working .. | .holding .. | .returned _ | .raised _ => True

/-- What a promotion has read is still there, and what it has appended is in the file. -/
def Phase.Held (m : Memory ι) : Phase → Prop
  | .holding key value _ _ => InScratch m key value
  | .recorded key _ _ => ∃ value, InScratch m key value ∧ Recorded m key value
  | .called | .missing | .ready | .working .. | .returned _ | .raised _ => True

omit [DecidableEq ι] in
theorem Phase.Held.mono (h : p.Held m)
    (hscratch : ∀ key value, p.key? = some key → InScratch m key value → InScratch m' key value)
    (hfile : ∀ key value, Recorded m key value → Recorded m' key value) : p.Held m' := by
  cases p with
  | holding key value => exact hscratch key value rfl h
  | recorded key =>
    obtain ⟨value, hin, hrecorded⟩ := h
    exact ⟨value, hscratch key value rfl hin, hfile key value hrecorded⟩
  | called | missing | ready | working | returned | raised => trivial

theorem held_step (h : ∀ j, (m.phase j).Held m) (hs : Steps lower m x m')
    (hu : Undisturbed lower m x) : ∀ j, (m'.phase j).Held m' := by
  -- Where the call has moved its new phase holds, and the others keep what they hold.
  have hmoved : ∀ (m' : Memory ι) i p, m'.phase = Function.update m.phase i p → p.Held m' →
      (∀ j, j ≠ i → (m.phase j).Held m') → ∀ j, (m'.phase j).Held m' := by
    intro m' i p hphase hp hothers j
    rw [hphase]
    by_cases hj : j = i
    · subst hj
      rwa [Function.update_self]
    · rw [Function.update_of_ne hj]
      exact hothers j hj
  cases hs with
  | puts key value now =>
    refine fun j => (h j).mono ?_ fun _ _ hr => hr
    intro key' value' hkey hin
    refine inScratch_set.mpr (.inr ⟨?_, hin⟩)
    rintro rfl
    exact hu j hkey
  | stays => exact h
  | moves i see ts p hp horderly hread =>
    refine hmoved _ i p rfl ?_ fun j _ => (h j).mono (fun _ _ _ hin => hin) fun _ _ hr => hr
    cases p with
    | holding => exact hread
    | recorded => exact hread.elim
    | called | missing | ready | working | returned | raised => trivial
  | creates i see ts hphase =>
    refine hmoved _ i .ready rfl trivial fun j _ => (h j).mono (fun _ _ _ hin => hin) ?_
    -- Nothing is recorded in a file that is not there.
    rintro key value ⟨r, hr, -⟩
    simp only [Undisturbed, hphase] at hu
    rw [hu] at hr
    cases hr
  | fails i see ts e =>
    exact hmoved _ i (.raised e) rfl trivial fun j _ =>
      (h j).mono (fun _ _ _ hin => hin) fun _ _ hr => hr
  | records i see ts key value toDelete promoted hphase =>
    have hin := h i
    rw [hphase] at hin
    refine hmoved _ i (.recorded key toDelete promoted) rfl ?_ fun j _ =>
      (h j).mono (fun _ _ _ hin => hin) ?_
    · have hmem : ⟨ts, key, value⟩ ∈ m.file.getD [] ++ [⟨ts, key, value⟩] :=
        List.mem_append_right _ (List.mem_singleton_self _)
      exact ⟨value, hin, _, hmem, rfl, rfl⟩
    · rintro key' value' ⟨r, hr, heq⟩
      exact ⟨r, List.mem_append_left _ hr, heq⟩
  | deletes i see ts key value toDelete promoted hphase =>
    refine hmoved _ i (.working toDelete (promoted + 1)) rfl trivial fun j hj =>
      (h j).mono ?_ fun _ _ hr => hr
    rintro key' value' hkey ⟨firstSeen, hget⟩
    simp only [Undisturbed, hphase] at hu
    have hne : key' ≠ key := by
      rintro rfl
      exact hu j hj hkey
    exact ⟨firstSeen, (Dict.get?_erase hne).trans hget⟩

omit [DecidableEq ι] in
theorem Undisturbed.orderly (h : Undisturbed lower m x) (hheld : ∀ j, (m.phase j).Held m)
    (hkept : Kept run m) : Orderly lower run m x := by
  cases x with
  | put => trivial
  | next i see ts =>
    have hi := hheld i
    cases hphase : m.phase i with
    | missing =>
      simp only [Undisturbed, Orderly, hphase] at h ⊢
      intro key value hlast
      rcases hkept key value hlast with ⟨firstSeen, hget⟩ | ⟨r, hr, -⟩
      · exact Dict.mem_keys_iff.mpr ⟨_, hget⟩
      · rw [h] at hr
        cases hr
    | recorded key =>
      simp only [Phase.Held, Orderly, hphase] at hi ⊢
      exact hi
    | ready => simpa only [Undisturbed, Orderly, hphase] using h
    | called | working | holding | returned | raised => simp only [Orderly, hphase]

/-- Where nothing comes between the steps of a promotion that have to do with a key, no promotion
raises and the last value put for each key is in scratch or in the file. -/
theorem kept_of_undisturbed
    (h : Along (Memory.step lower) (Undisturbed lower) (.start file) moves) :
    NeverRaised (reached lower file moves) ∧ Kept moves (reached lower file moves) := by
  have hheld : ∀ run : List (Move ι),
      Along (Memory.step lower) (Undisturbed lower) (.start file) run →
      ∀ j, ((reached lower file run).phase j).Held (reached lower file run) := by
    intro run hrun
    refine final_of_along (I := fun m => ∀ j, (m.phase j).Held m) ?_ (fun j => trivial) hrun
    exact fun m x hm hu => held_step hm steps_step hu
  have hsafe : Safe moves (reached lower file moves) := by
    induction moves using List.reverseRecOn with
    | nil => exact safe_start
    | append_singleton run x ih =>
      obtain ⟨hrun, hx⟩ := along_append.mp h
      have hrunSafe := ih hrun
      exact (safe_step_iff hrunSafe).mp (hx.1.orderly (hheld run hrun) hrunSafe.kept)
  exact ⟨hsafe.quiet, hsafe.kept⟩

end Pyharmonics.LoopContext
