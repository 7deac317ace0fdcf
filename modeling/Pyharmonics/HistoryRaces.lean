import Mathlib.Data.Fintype.Basic
import Pyharmonics.Library.Machines

/-! Concurrent appends to one journal: open, lock, write, size check, copy and unlink. -/
namespace Pyharmonics.Loop

open Machines

variable {ι : Type*} [DecidableEq ι]

/-- Where a call of `append_history` stands. Its descriptor is that of the file it opened. -/
inductive AppendPhase
  | called
  | opened (fd : ℕ)
  | locked (fd : ℕ)
  | wrote (fd : ℕ)
  | rotating
  | copied
  | returned
  deriving DecidableEq

/-- The record of the call is in a file. -/
def AppendPhase.HasWritten : AppendPhase → Prop
  | .called | .opened _ | .locked _ => False
  | .wrote _ | .rotating | .copied | .returned => True

/-- The records of each file by its descriptor, each record named by its call; which file the name
`HISTORY.jsonl` leads to and who holds a file's lock; and the archives, each of its own name. -/
structure Directory (ι : Type*) where
  files : ℕ → List ι
  next : ℕ
  live : Option ℕ
  holder : ℕ → Option ι
  archives : List (List ι)
  phase : ι → AppendPhase

def Directory.start : Directory ι := ⟨fun _ => [], 0, none, fun _ => none, [], fun _ => .called⟩

def Directory.setPhase (d : Directory ι) (i : ι) (p : AppendPhase) : Directory ι :=
  { d with phase := Function.update d.phase i p }

def Directory.liveRecords (d : Directory ι) : List ι := (d.live.map d.files).getD []

/-- The records of the archives and of the live file. -/
def Directory.stored (d : Directory ι) : List ι := d.archives.flatten ++ d.liveRecords

/-- `os.open` with `O_CREAT` where there is no file. -/
def Directory.create (d : Directory ι) (i : ι) : Directory ι :=
  { d.setPhase i (.opened d.next) with
    files := Function.update d.files d.next [], live := some d.next, next := d.next + 1 }

/-- `os.write` with `O_APPEND`. -/
def Directory.write (d : Directory ι) (i : ι) (fd : ℕ) : Directory ι :=
  { d.setPhase i (.wrote fd) with files := Function.update d.files fd (d.files fd ++ [i]) }

/-- `shutil.copyfileobj` of the file of the name, whichever that is now. -/
def Directory.copy (d : Directory ι) (i : ι) : Directory ι :=
  { d.setPhase i .copied with archives := d.archives ++ [d.liveRecords] }

/-- `path.unlink()`; that the name is gone already is swallowed. -/
def Directory.unlink (d : Directory ι) (i : ι) : Directory ι :=
  { d.setPhase i .returned with live := none }

/-- The next step of one of the calls. -/
def Directory.step (bytes : ι → ℕ) (rotateBytes : ℤ) (d : Directory ι) (i : ι) :
    Directory ι × Unit :=
  match d.phase i with
  | .called =>
    match d.live with
    | some fd => (d.setPhase i (.opened fd), ())
    | none => (d.create i, ())
  | .opened fd =>
    -- `flock` waits for the lock
    match d.holder fd with
    | some _ => (d, ())
    | none =>
      ({ d.setPhase i (.locked fd) with holder := Function.update d.holder fd (some i) }, ())
  | .locked fd => (d.write i fd, ())
  | .wrote fd =>
    let newSize := ((d.files fd).map bytes).sum
    let after := if newSize ≠ 0 ∧ rotateBytes ≤ newSize then .rotating else .returned
    ({ d.setPhase i after with holder := Function.update d.holder fd none }, ())
  | .rotating =>
    match d.live with
    | some _ => (d.copy i, ())
    | none => (d.setPhase i .returned, ())
  | .copied => (d.unlink i, ())
  | .returned => (d, ())

/-- No call is under way. -/
def Settled (d : Directory ι) : Prop := ∀ i, d.phase i = .called ∨ d.phase i = .returned

instance decidableSettled [Fintype ι] {d : Directory ι} : Decidable (Settled d) :=
  inferInstanceAs (Decidable (∀ _, _))

/-- Archives and live file hold the record of each returned call once, and no other. -/
def Exact (d : Directory ι) : Prop :=
  ∀ i, d.stored.count i = if d.phase i = .returned then 1 else 0

instance decidableExact [Fintype ι] {d : Directory ι} : Decidable (Exact d) :=
  inferInstanceAs (Decidable (∀ _, _))

/-- A write goes to the file of the name, a copy is of records that no archive holds, and what is
unlinked is in the archives. -/
def Undisturbed (d : Directory ι) (i : ι) : Prop :=
  match d.phase i with
  | .locked fd => d.live = some fd
  | .rotating => ∀ r ∈ d.liveRecords, r ∉ d.archives.flatten
  | .copied => ∀ r ∈ d.liveRecords, r ∈ d.archives.flatten
  | .called | .opened _ | .wrote _ | .returned => True

instance decidableUndisturbed {d : Directory ι} {i : ι} : Decidable (Undisturbed d i) :=
  match h : d.phase i with
  | .locked fd => decidable_of_iff (d.live = some fd) (by simp [Undisturbed, h])
  | .rotating =>
    decidable_of_iff (∀ r ∈ d.liveRecords, r ∉ d.archives.flatten) (by simp [Undisturbed, h])
  | .copied =>
    decidable_of_iff (∀ r ∈ d.liveRecords, r ∈ d.archives.flatten) (by simp [Undisturbed, h])
  | .called | .opened _ | .wrote _ | .returned => isTrue (by simp [Undisturbed, h])

variable {d d' : Directory ι} {i j r : ι} {p q : AppendPhase} {fd : ℕ} {bytes : ι → ℕ}
  {rotateBytes : ℤ} {schedule : List ι}

theorem phase_setPhase : (d.setPhase i p).phase j = q ↔ j = i ∧ p = q ∨ j ≠ i ∧ d.phase j = q :=
  moved_iff

theorem hasWritten_setPhase (hp : p.HasWritten ↔ (d.phase i).HasWritten) :
    ((d.setPhase i p).phase j).HasWritten ↔ (d.phase j).HasWritten := by
  by_cases h : j = i
  · subst h
    simpa [Directory.setPhase] using hp
  · simp [Directory.setPhase, h]

theorem hasWritten_write :
    ((d.write i fd).phase j).HasWritten ↔ (d.phase j).HasWritten ∨ j = i := by
  by_cases h : j = i
  · subst h
    simp [Directory.write, Directory.setPhase, AppendPhase.HasWritten]
  · simp [Directory.write, Directory.setPhase, h]

theorem hasWritten_create (h : d.phase i = .called) :
    ((d.create i).phase j).HasWritten ↔ (d.phase j).HasWritten :=
  hasWritten_setPhase (by simp [h, AppendPhase.HasWritten])

theorem hasWritten_copy (h : d.phase i = .rotating) :
    ((d.copy i).phase j).HasWritten ↔ (d.phase j).HasWritten :=
  hasWritten_setPhase (by simp [h, AppendPhase.HasWritten])

theorem hasWritten_unlink (h : d.phase i = .copied) :
    ((d.unlink i).phase j).HasWritten ↔ (d.phase j).HasWritten :=
  hasWritten_setPhase (by simp [h, AppendPhase.HasWritten])

/-- What one step does to the files, the name and the archives. -/
inductive DirectorySteps (d : Directory ι) (i : ι) : Directory ι → Prop
  | quiet (d' : Directory ι) (hfiles : d'.files = d.files) (hlive : d'.live = d.live)
      (harchives : d'.archives = d.archives)
      (hwritten : ∀ j, (d'.phase j).HasWritten ↔ (d.phase j).HasWritten)
      (hcopied : ∀ j, d'.phase j = .copied ↔ d.phase j = .copied)
      (hundisturbed : Undisturbed d i) : DirectorySteps d i d'
  | creates (h : d.phase i = .called) (hlive : d.live = none) : DirectorySteps d i (d.create i)
  | writes (fd : ℕ) (h : d.phase i = .locked fd) : DirectorySteps d i (d.write i fd)
  | copies (h : d.phase i = .rotating) : DirectorySteps d i (d.copy i)
  | unlinks (h : d.phase i = .copied) : DirectorySteps d i (d.unlink i)

/-- A step that changes nothing but where its call stands, and not whether it has written. -/
theorem DirectorySteps.moves {holder : ℕ → Option ι}
    (hwritten : p.HasWritten ↔ (d.phase i).HasWritten) (hp : p ≠ .copied)
    (hold : d.phase i ≠ .copied) (hundisturbed : Undisturbed d i) :
    DirectorySteps d i { d.setPhase i p with holder := holder } := by
  refine .quiet _ rfl rfl rfl (fun j => hasWritten_setPhase hwritten) ?_ hundisturbed
  · intro j
    by_cases h : j = i
    · subst h
      simp [Directory.setPhase, hp, hold]
    · simp [Directory.setPhase, h]

theorem directorySteps_step : DirectorySteps d i (d.step bytes rotateBytes i).1 := by
  rw [Directory.step]
  split
  · next h =>
    split
    · exact .moves (by simp [h, AppendPhase.HasWritten]) (by simp) (by simp [h])
        (by simp [Undisturbed, h])
    · next hlive => exact .creates h hlive
  · next fd h =>
    split
    · exact .quiet _ rfl rfl rfl (fun _ => Iff.rfl) (fun _ => Iff.rfl) (by simp [Undisturbed, h])
    · exact .moves (by simp [h, AppendPhase.HasWritten]) (by simp) (by simp [h])
        (by simp [Undisturbed, h])
  · next fd h => exact .writes fd h
  · next fd h =>
    refine .moves ?_ ?_ (by simp [h]) (by simp [Undisturbed, h])
    · rw [h]
      split <;> simp [AppendPhase.HasWritten]
    · split <;> simp
  · next h =>
    split
    · exact .copies h
    · next hlive =>
      refine .moves (by simp [h, AppendPhase.HasWritten]) (by simp) (by simp [h]) ?_
      simp [Undisturbed, h, Directory.liveRecords, hlive]
  · next h => exact .unlinks h
  · next h =>
    exact .quiet _ rfl rfl rfl (fun _ => Iff.rfl) (fun _ => Iff.rfl) (by simp [Undisturbed, h])

/-- In every state: records in files and archives are written ones, none twice in a file, and while
the live file is in the archives too, its copier is about to unlink it. -/
structure Directory.Sound (d : Directory ι) : Prop where
  written : ∀ i fd, i ∈ d.files fd → (d.phase i).HasWritten
  nodup : ∀ fd, (d.files fd).Nodup
  archived : ∀ i ∈ d.archives.flatten, (d.phase i).HasWritten
  copier : ∀ i ∈ d.liveRecords, i ∈ d.archives.flatten → ∃ j, d.phase j = .copied

omit [DecidableEq ι] in
theorem Directory.Sound.live (h : d.Sound) : ∀ i ∈ d.liveRecords, (d.phase i).HasWritten := by
  intro i hi
  rw [liveRecords] at hi
  cases hl : d.live with
  | none => simp [hl] at hi
  | some fd => exact h.written i fd (by simpa [hl] using hi)

theorem mem_files_write {fd' : ℕ} :
    r ∈ (d.write i fd).files fd' ↔ r ∈ d.files fd' ∨ fd' = fd ∧ r = i := by
  by_cases h : fd' = fd
  · subst h
    simp [Directory.write]
  · simp [Directory.write, h]

theorem mem_live_write :
    r ∈ (d.write i fd).liveRecords ↔ r ∈ d.liveRecords ∨ d.live = some fd ∧ r = i := by
  cases hl : d.live with
  | none => simp [Directory.liveRecords, Directory.write, Directory.setPhase, hl]
  | some fd' =>
    have hmem : r ∈ (d.write i fd).files fd' ↔ r ∈ d.files fd' ∨ fd' = fd ∧ r = i := mem_files_write
    simpa [Directory.liveRecords, Directory.write, Directory.setPhase, hl] using hmem

theorem live_create : (d.create i).liveRecords = [] := by
  simp [Directory.liveRecords, Directory.create]

theorem archives_copy : (d.copy i).archives.flatten = d.archives.flatten ++ d.liveRecords := by
  simp [Directory.copy]

omit [DecidableEq ι] in
theorem Directory.Sound.nodup_live (h : d.Sound) : d.liveRecords.Nodup := by
  rw [liveRecords]
  cases d.live with
  | none => exact List.nodup_nil
  | some fd => exact h.nodup fd

theorem Directory.Sound.create (h : d.Sound) (hphase : d.phase i = .called) : (d.create i).Sound := by
  have hkeep : ∀ j, (d.phase j).HasWritten → ((d.create i).phase j).HasWritten := fun j hj =>
    (hasWritten_create hphase).mpr hj
  constructor
  · intro j fd hj
    by_cases hfd : fd = d.next
    · simp [Directory.create, hfd] at hj
    · exact hkeep j (h.written j fd (by simpa [Directory.create, hfd] using hj))
  · intro fd
    by_cases hfd : fd = d.next
    · simp [Directory.create, hfd]
    · simpa [Directory.create, hfd] using h.nodup fd
  · exact fun j hj => hkeep j (h.archived j hj)
  · intro j hj
    simp [live_create] at hj

/-- A record is written once: its call has not written before. -/
theorem Directory.Sound.write (h : d.Sound) (hphase : d.phase i = .locked fd) : (d.write i fd).Sound := by
  have hkeep : ∀ j, (d.phase j).HasWritten → ((d.write i fd).phase j).HasWritten := fun j hj =>
    hasWritten_write.mpr (.inl hj)
  have hunwritten : ¬ (d.phase i).HasWritten := by simp [hphase, AppendPhase.HasWritten]
  constructor
  · intro j fd' hj
    rcases mem_files_write.mp hj with hj | ⟨-, rfl⟩
    · exact hkeep j (h.written j fd' hj)
    · exact hasWritten_write.mpr (.inr rfl)
  · intro fd'
    by_cases hfd : fd' = fd
    · subst hfd
      have hnew : i ∉ d.files fd' := fun hi => hunwritten (h.written i fd' hi)
      have hnodup : (d.files fd' ++ [i]).Nodup :=
        List.nodup_append'.mpr ⟨h.nodup fd', List.nodup_singleton i, by simpa using hnew⟩
      simpa [Directory.write] using hnodup
    · simpa [Directory.write, hfd] using h.nodup fd'
  · exact fun j hj => hkeep j (h.archived j hj)
  · intro j hj harch
    rcases mem_live_write.mp hj with hj | ⟨-, rfl⟩
    · obtain ⟨k, hk⟩ := h.copier j hj harch
      have hki : k ≠ i := by
        rintro rfl
        simp [hphase] at hk
      exact ⟨k, phase_setPhase.mpr (.inr ⟨hki, hk⟩)⟩
    · exact absurd (h.archived j harch) hunwritten

theorem Directory.Sound.copy (h : d.Sound) (hphase : d.phase i = .rotating) : (d.copy i).Sound := by
  have hkeep : ∀ j, (d.phase j).HasWritten → ((d.copy i).phase j).HasWritten := fun j hj =>
    (hasWritten_copy hphase).mpr hj
  constructor
  · exact fun j fd hj => hkeep j (h.written j fd hj)
  · exact h.nodup
  · intro j hj
    rw [archives_copy, List.mem_append] at hj
    exact hkeep j (hj.elim (h.archived j) (h.live j))
  · exact fun j _ _ => ⟨i, phase_setPhase.mpr (.inl ⟨rfl, rfl⟩)⟩

theorem Directory.Sound.unlink (h : d.Sound) (hphase : d.phase i = .copied) : (d.unlink i).Sound := by
  have hkeep : ∀ j, (d.phase j).HasWritten → ((d.unlink i).phase j).HasWritten := fun j hj =>
    (hasWritten_unlink hphase).mpr hj
  constructor
  · exact fun j fd hj => hkeep j (h.written j fd hj)
  · exact h.nodup
  · exact fun j hj => hkeep j (h.archived j hj)
  · intro j hj
    simp [liveRecords, Directory.unlink] at hj

theorem Directory.Sound.step (h : d.Sound) (hs : DirectorySteps d i d') : d'.Sound := by
  cases hs with
  | quiet _ hfiles hlive harchives hwritten hcopied =>
    constructor
    · intro j fd hj
      exact (hwritten j).mpr (h.written j fd (hfiles ▸ hj))
    · intro fd
      exact hfiles ▸ h.nodup fd
    · intro j hj
      exact (hwritten j).mpr (h.archived j (harchives ▸ hj))
    · intro j hj harch
      rw [liveRecords, hlive, hfiles] at hj
      obtain ⟨k, hk⟩ := h.copier j hj (harchives ▸ harch)
      exact ⟨k, (hcopied k).mpr hk⟩
  | creates hphase => exact h.create hphase
  | writes fd hphase => exact h.write hphase
  | copies hphase => exact h.copy hphase
  | unlinks hphase => exact h.unlink hphase

/-- Every written record is in the live file or in an archive, and in one archive at most. -/
structure Directory.Kept (d : Directory ι) : Prop where
  sound : d.Sound
  held : ∀ i, (d.phase i).HasWritten → i ∈ d.liveRecords ∨ i ∈ d.archives.flatten
  once : d.archives.flatten.Nodup

/-- A written record is in neither, or one is in two archives. -/
structure Directory.Spoilt (d : Directory ι) : Prop where
  sound : d.Sound
  spoilt : (∃ i, (d.phase i).HasWritten ∧ i ∉ d.liveRecords ∧ i ∉ d.archives.flatten) ∨
    ¬ d.archives.flatten.Nodup

omit [DecidableEq ι] in
theorem Directory.kept_start : (start : Directory ι).Kept := by
  refine ⟨⟨?_, ?_, ?_, ?_⟩, ?_, ?_⟩ <;> simp [start, liveRecords, AppendPhase.HasWritten]

theorem Directory.Kept.step (h : d.Kept) (hs : DirectorySteps d i d') (hg : Undisturbed d i) :
    d'.Kept := by
  refine ⟨h.sound.step hs, ?_, ?_⟩
  · intro j hj
    cases hs with
    | quiet _ hfiles hlive harchives hwritten =>
      rw [liveRecords, hlive, hfiles, harchives]
      exact h.held j ((hwritten j).mp hj)
    | creates hphase hlive =>
      refine .inr ((h.held j ((hasWritten_create hphase).mp hj)).resolve_left ?_)
      simp [liveRecords, hlive]
    | writes fd hphase =>
      have hfd : d.live = some fd := by simpa [Undisturbed, hphase] using hg
      rw [mem_live_write]
      rcases hasWritten_write.mp hj with hj | rfl
      · exact (h.held j hj).imp_left .inl
      · exact .inl (.inr ⟨hfd, rfl⟩)
    | copies hphase =>
      rw [archives_copy, List.mem_append]
      exact (h.held j ((hasWritten_copy hphase).mp hj)).imp_right .inl
    | unlinks hphase =>
      have harch : ∀ r ∈ d.liveRecords, r ∈ d.archives.flatten := by
        simpa [Undisturbed, hphase] using hg
      exact .inr ((h.held j ((hasWritten_unlink hphase).mp hj)).elim (harch j) id)
  · cases hs with
    | quiet _ _ _ harchives => exact harchives ▸ h.once
    | creates => exact h.once
    | writes => exact h.once
    | copies hphase =>
      have hnew : ∀ r ∈ d.liveRecords, r ∉ d.archives.flatten := by
        simpa [Undisturbed, hphase] using hg
      rw [archives_copy]
      refine List.nodup_append'.mpr ⟨h.once, h.sound.nodup_live, ?_⟩
      exact fun r harch hlive => hnew r hlive harch
    | unlinks => exact h.once

/-- A disturbed step loses a record or stores one twice. -/
theorem Directory.Kept.spoils (h : d.Kept) (hs : DirectorySteps d i d') (hg : ¬ Undisturbed d i) :
    d'.Spoilt := by
  refine ⟨h.sound.step hs, ?_⟩
  cases hs with
  | quiet _ _ _ _ _ _ hundisturbed => exact absurd hundisturbed hg
  | creates hphase => exact absurd (by simp [Undisturbed, hphase]) hg
  | writes fd hphase =>
    have hfd : d.live ≠ some fd := by simpa [Undisturbed, hphase] using hg
    have hunwritten : ¬ (d.phase i).HasWritten := by simp [hphase, AppendPhase.HasWritten]
    refine .inl ⟨i, hasWritten_write.mpr (.inr rfl), ?_, fun harch =>
      hunwritten (h.sound.archived i harch)⟩
    intro hlive
    rcases mem_live_write.mp hlive with hlive | ⟨heq, -⟩
    · exact hunwritten (h.sound.live i hlive)
    · exact hfd heq
  | copies hphase =>
    obtain ⟨r, hlive, harch⟩ : ∃ r ∈ d.liveRecords, r ∈ d.archives.flatten := by
      simpa [Undisturbed, hphase] using hg
    refine .inr ?_
    rw [archives_copy, List.nodup_append']
    exact fun hn => hn.2.2 harch hlive
  | unlinks hphase =>
    obtain ⟨r, hlive, harch⟩ : ∃ r ∈ d.liveRecords, r ∉ d.archives.flatten := by
      simpa [Undisturbed, hphase] using hg
    exact .inl ⟨r, (hasWritten_unlink hphase).mpr (h.sound.live r hlive), by
      simp [liveRecords, unlink], harch⟩

theorem Directory.Spoilt.step (h : d.Spoilt) (hs : DirectorySteps d i d') : d'.Spoilt := by
  refine ⟨h.sound.step hs, ?_⟩
  rcases h.spoilt with ⟨j, hj, hlive, harch⟩ | htwice
  · cases hs with
    | quiet _ hfiles hlive' harchives hwritten =>
      refine .inl ⟨j, (hwritten j).mpr hj, ?_, harchives ▸ harch⟩
      rwa [liveRecords, hlive', hfiles]
    | creates hphase =>
      exact .inl ⟨j, (hasWritten_create hphase).mpr hj, by simp [live_create], harch⟩
    | writes fd hphase =>
      refine .inl ⟨j, hasWritten_write.mpr (.inl hj), ?_, harch⟩
      intro hmem
      rcases mem_live_write.mp hmem with hmem | ⟨-, rfl⟩
      · exact hlive hmem
      · simp [hphase, AppendPhase.HasWritten] at hj
    | copies hphase =>
      refine .inl ⟨j, (hasWritten_copy hphase).mpr hj, hlive, ?_⟩
      rw [archives_copy, List.mem_append]
      exact fun hmem => hmem.elim harch hlive
    | unlinks hphase =>
      exact .inl ⟨j, (hasWritten_unlink hphase).mpr hj, by simp [liveRecords, unlink], harch⟩
  · refine .inr ?_
    cases hs with
    | quiet _ _ _ harchives => exact harchives ▸ htwice
    | creates => exact htwice
    | writes => exact htwice
    | copies =>
      rw [archives_copy]
      exact fun hn => htwice hn.of_append_left
    | unlinks => exact htwice

/-- With no call under way, a record is written exactly when its call has returned, and what the
archives hold is not live. -/
theorem Directory.Kept.exact (h : d.Kept) (hsettled : Settled d) : Exact d := by
  intro i
  have hnone : ∀ j ∈ d.liveRecords, j ∉ d.archives.flatten := by
    intro j hlive harch
    obtain ⟨k, hk⟩ := h.sound.copier j hlive harch
    rcases hsettled k with hk' | hk' <;> simp [hk] at hk'
  have hnodup : d.stored.Nodup := by
    refine List.nodup_append'.mpr ⟨h.once, h.sound.nodup_live, ?_⟩
    exact fun j harch hlive => hnone j hlive harch
  rcases hsettled i with hi | hi
  · have hunwritten : ¬ (d.phase i).HasWritten := by simp [hi, AppendPhase.HasWritten]
    rw [if_neg (by simp [hi]), List.count_eq_zero, stored, List.mem_append, not_or]
    exact ⟨fun hmem => hunwritten (h.sound.archived i hmem),
      fun hmem => hunwritten (h.sound.live i hmem)⟩
  · have hwritten : (d.phase i).HasWritten := by simp [hi, AppendPhase.HasWritten]
    rw [if_pos hi]
    refine List.count_eq_one_of_mem hnodup ?_
    rw [stored, List.mem_append]
    exact (h.held i hwritten).symm

theorem Directory.Spoilt.not_exact (h : d.Spoilt) (hsettled : Settled d) : ¬ Exact d := by
  intro hexact
  rcases h.spoilt with ⟨i, hi, hlive, harch⟩ | htwice
  · have hreturned : d.phase i = .returned := by
      rcases hsettled i with hc | hr
      · simp [hc, AppendPhase.HasWritten] at hi
      · exact hr
    have hcount := hexact i
    rw [if_pos hreturned] at hcount
    have hmem : i ∈ d.stored := List.count_pos_iff.mp (by omega)
    rcases List.mem_append.mp hmem with hmem | hmem
    · exact harch hmem
    · exact hlive hmem
  · refine htwice (List.nodup_iff_count_le_one.mpr ?_)
    intro i
    have hcount := hexact i
    rw [stored, List.count_append] at hcount
    split at hcount <;> omega

/-- After any interleaving that has brought every call begun to its end, archives and live file hold
exactly the records of the calls, once each, when each write went to the file of the name, each copy
was of records in no archive, and each unlinked file was archived; and only then. -/
theorem exact_iff_undisturbed
    (hsettled : Settled (final (Directory.step bytes rotateBytes) .start schedule)) :
    Exact (final (Directory.step bytes rotateBytes) .start schedule) ↔
      Along (Directory.step bytes rotateBytes) Undisturbed .start schedule := by
  refine good_iff_along (I := Directory.Kept) (B := Directory.Spoilt) (F := fun _ _ => True)
    ?_ ?_ ?_ Directory.kept_start along_true ?_ ?_
  · exact fun d i h _ hg => h.step directorySteps_step hg
  · exact fun d i h _ hg => h.spoils directorySteps_step hg
  · exact fun d i _ h => h.step directorySteps_step
  · exact fun h => h.exact hsettled
  · exact fun h => h.not_exact hsettled

/-- Two calls, one after the other, each of which rotates. -/
theorem exact_iff_undisturbed_two :
    Exact (final (Directory.step (fun _ : Bool => 40) 1) .start
      [false, false, false, false, false, false, true, true, true, true, true, true]) :=
  (exact_iff_undisturbed (by decide)).mpr (by decide)

/-- A call that has opened the file writes to it after another has archived and unlinked it. -/
theorem write_after_unlink_loses :
    Settled (final (Directory.step (fun _ : Bool => 40) 1) .start
      [false, true, true, true, true, true, true, false, false, false, false]) ∧
    ¬ Exact (final (Directory.step (fun _ : Bool => 40) 1) .start
      [false, true, true, true, true, true, true, false, false, false, false]) := by
  decide

end Pyharmonics.Loop
