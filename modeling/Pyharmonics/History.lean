import Mathlib.Data.Rat.Floor
import Mathlib.Data.String.Basic
import Pyharmonics.Library.Dict
import Pyharmonics.Library.Machines
import Pyharmonics.Library.Sorting

/-! The journal of the search loop: appends with rotation, and the replay of all its files. -/
namespace Pyharmonics.Loop

open Machines Sorting

variable {ρ : Type*}

/-- `f"HISTORY-{ts}.jsonl.gz"` -/
def archiveName (ts : ℤ) : String := "HISTORY-" ++ (toString ts ++ ".jsonl.gz")

def liveName : String := "HISTORY.jsonl"

/-- `int(x)` truncates. -/
def trunc (x : ℚ) : ℤ := if 0 ≤ x then ⌊x⌋ else ⌈x⌉

theorem archiveName_lt (ts : ℤ) : archiveName ts < liveName := by
  rw [archiveName, liveName, String.lt_iff_toList_lt, String.toList_append]
  simp [List.cons_lt_cons_iff]

/-- The journal in its directory: the records of the live file, if there is one, and of the
archives under their names. -/
structure Journal (ρ : Type*) where
  live : Option (List ρ)
  archives : Dict String (List ρ)
  older : ∀ name ∈ archives.keys, name < liveName

/-- A call of `append_history` and the clock at it. -/
structure Append (ρ : Type*) where
  record : ρ
  time : ℚ

namespace Journal

def empty : Journal ρ := ⟨none, .empty, by simp [Dict.empty, Dict.keys]⟩

/-- The lines of the live file after the write. -/
def written (j : Journal ρ) (r : ρ) : List ρ := j.live.getD [] ++ [r]

/-- Whether the file has reached the threshold with the write. -/
def Rotates (bytes : ρ → ℕ) (rotateBytes : ℤ) (j : Journal ρ) (r : ρ) : Prop :=
  ((j.written r).map bytes).sum ≠ 0 ∧ rotateBytes ≤ (((j.written r).map bytes).sum : ℤ)

instance decidableRotates {bytes : ρ → ℕ} {rotateBytes : ℤ} {j : Journal ρ} {r : ρ} :
    Decidable (j.Rotates bytes rotateBytes r) := inferInstanceAs (Decidable (_ ∧ _))

/-- The live file goes to the archive of this second, over one that has the name. -/
def rotate (j : Journal ρ) (lines : List ρ) (ts : ℤ) : Journal ρ where
  live := none
  archives := j.archives.set (archiveName ts) lines
  older := by
    intro name hname
    obtain ⟨⟨k, ls⟩, he, rfl⟩ := List.mem_map.mp hname
    rcases Dict.mem_entries_set.mp he with ⟨rfl, -⟩ | ⟨-, he⟩
    · exact archiveName_lt ts
    · exact j.older k (List.mem_map.mpr ⟨(k, ls), he, rfl⟩)

/-- `append_history`, its record `bytes` long on disk. -/
def appendHistory (bytes : ρ → ℕ) (rotateBytes : ℤ) (j : Journal ρ) (a : Append ρ) :
    Journal ρ × Unit :=
  if j.Rotates bytes rotateBytes a.record then
    (j.rotate (j.written a.record) (trunc a.time), ())
  else ({ j with live := some (j.written a.record) }, ())

/-- `root.glob("HISTORY*.jsonl*")` -/
def glob (j : Journal ρ) : List (String × List ρ) :=
  j.archives.entries ++ (j.live.map fun lines => (liveName, lines)).toList

/-- Every record of every file, the files in the order of their names. -/
def replayFromHistory (j : Journal ρ) : List ρ := (sortBy Prod.fst j.glob).flatMap Prod.snd

end Journal

/-- An append that rotates makes the last archive by name. -/
def Orderly (bytes : ρ → ℕ) (rotateBytes : ℤ) (j : Journal ρ) (a : Append ρ) : Prop :=
  j.Rotates bytes rotateBytes a.record →
    ∀ name ∈ j.archives.keys, name < archiveName (trunc a.time)

instance decidableOrderly {bytes : ρ → ℕ} {rotateBytes : ℤ} {j : Journal ρ} {a : Append ρ} :
    Decidable (Orderly bytes rotateBytes j a) := inferInstanceAs (Decidable (_ → _))

namespace Journal

variable {bytes : ρ → ℕ} {rotateBytes : ℤ} {j : Journal ρ} {a : Append ρ} {r : ρ}
  {appended lines : List ρ} {name : String} {ts : ℤ}

/-- What one append can do. -/
theorem append_cases (bytes : ρ → ℕ) (rotateBytes : ℤ) (j : Journal ρ) (a : Append ρ) :
    (j.Rotates bytes rotateBytes a.record ∧
      (j.appendHistory bytes rotateBytes a).1 = j.rotate (j.written a.record) (trunc a.time)) ∨
    (¬ j.Rotates bytes rotateBytes a.record ∧
      (j.appendHistory bytes rotateBytes a).1 = { j with live := some (j.written a.record) }) := by
  by_cases h : j.Rotates bytes rotateBytes a.record
  · exact .inl ⟨h, by rw [appendHistory, if_pos h]⟩
  · exact .inr ⟨h, by rw [appendHistory, if_neg h]⟩

/-- The records of the archives, and behind them those of the live file. -/
theorem replay_eq (j : Journal ρ) : j.replayFromHistory =
    (sortBy Prod.fst j.archives.entries).flatMap Prod.snd ++ j.live.getD [] := by
  rw [replayFromHistory, glob]
  cases hl : j.live with
  | none => simp
  | some lines =>
    have hlast : ∀ e ∈ j.archives.entries, e.1 ≤ liveName := fun e he =>
      (j.older e.1 (List.mem_map_of_mem he)).le
    rw [Option.map_some, Option.toList_some, sortBy_concat hlast, List.flatMap_append]
    simp

theorem mem_glob : (name, lines) ∈ j.glob ↔
    (name, lines) ∈ j.archives.entries ∨ name = liveName ∧ j.live = some lines := by
  rw [glob, List.mem_append, Option.mem_toList, Option.map_eq_some_iff]
  simp only [Prod.mk.injEq, eq_comm (a := liveName)]
  grind

theorem mem_replay : r ∈ j.replayFromHistory ↔ ∃ name lines, (name, lines) ∈ j.glob ∧ r ∈ lines := by
  simp [replayFromHistory, mem_sortBy]

/-- A journal of appends of distinct records: no file is empty, every record was appended, and none
is in two files. -/
structure Sound (j : Journal ρ) (appended : List ρ) : Prop where
  filled : ∀ name lines, (name, lines) ∈ j.glob → lines ≠ []
  appended : ∀ name lines, (name, lines) ∈ j.glob → ∀ r ∈ lines, r ∈ appended
  apart : ∀ name lines name' lines', (name, lines) ∈ j.glob → (name', lines') ∈ j.glob →
    ∀ r ∈ lines, r ∈ lines' → name = name'

theorem sound_empty : Sound (.empty : Journal ρ) [] := by
  have hnone : (Journal.empty : Journal ρ).glob = [] := rfl
  constructor <;> simp [hnone]

theorem mem_written {x : ρ} :
    x ∈ j.written r ↔ (∃ lines, j.live = some lines ∧ x ∈ lines) ∨ x = r := by
  cases h : j.live <;> simp [written, h]

/-- The written lines are in one file, and the others are archives from before. -/
theorem glob_append (bytes : ρ → ℕ) (rotateBytes : ℤ) (j : Journal ρ) (a : Append ρ) :
    ∃ file, ∀ name lines, (name, lines) ∈ (j.appendHistory bytes rotateBytes a).1.glob ↔
      name = file ∧ lines = j.written a.record ∨ name ≠ file ∧ (name, lines) ∈ j.archives.entries := by
  rcases append_cases bytes rotateBytes j a with ⟨-, heq⟩ | ⟨-, heq⟩
  · refine ⟨archiveName (trunc a.time), ?_⟩
    intro name lines
    rw [heq, mem_glob, rotate, Dict.mem_entries_set]
    simp
  · refine ⟨liveName, ?_⟩
    intro name lines
    have hne : (name, lines) ∈ j.archives.entries → name ≠ liveName := fun he =>
      (j.older name (List.mem_map_of_mem he)).ne
    rw [heq, mem_glob, Option.some_inj, eq_comm (a := j.written a.record), or_comm]
    exact or_congr_right ⟨fun he => ⟨hne he, he⟩, And.right⟩

/-- A written record that an archive holds too was in the live file, which no archive shares. -/
theorem Sound.not_archived (hs : Sound j appended) (hr : r ∉ appended)
    (he : (name, lines) ∈ j.archives.entries) {x : ρ} (hx : x ∈ j.written r) : x ∉ lines := by
  intro hxl
  have hglob : (name, lines) ∈ j.glob := mem_glob.mpr (.inl he)
  rcases mem_written.mp hx with ⟨live, hlive, hxlive⟩ | rfl
  · have hname : name = liveName :=
      hs.apart name lines liveName live hglob (mem_glob.mpr (.inr ⟨rfl, hlive⟩)) x hxl hxlive
    exact (j.older name (List.mem_map_of_mem he)).ne hname
  · exact hr (hs.appended name lines hglob x hxl)

theorem Sound.append (hs : Sound j appended) (ha : a.record ∉ appended) :
    Sound (j.appendHistory bytes rotateBytes a).1 (appended ++ [a.record]) := by
  obtain ⟨file, hglob⟩ := glob_append bytes rotateBytes j a
  constructor
  · intro name lines he
    rcases (hglob name lines).mp he with ⟨-, rfl⟩ | ⟨-, he⟩
    · simp [written]
    · exact hs.filled name lines (mem_glob.mpr (.inl he))
  · intro name lines he r hr
    rw [List.mem_append, List.mem_singleton]
    rcases (hglob name lines).mp he with ⟨-, rfl⟩ | ⟨-, he⟩
    · refine (mem_written.mp hr).imp_left ?_
      rintro ⟨live, hlive, hmem⟩
      exact hs.appended liveName live (mem_glob.mpr (.inr ⟨rfl, hlive⟩)) r hmem
    · exact .inl (hs.appended name lines (mem_glob.mpr (.inl he)) r hr)
  · intro name lines name' lines' he he' r hr hr'
    rcases (hglob name lines).mp he with ⟨rfl, rfl⟩ | ⟨-, he⟩
    · rcases (hglob name' lines').mp he' with ⟨rfl, -⟩ | ⟨-, he'⟩
      · rfl
      · exact absurd hr' (hs.not_archived ha he' hr)
    · rcases (hglob name' lines').mp he' with ⟨rfl, rfl⟩ | ⟨-, he'⟩
      · exact absurd hr (hs.not_archived ha he hr')
      · exact hs.apart name lines name' lines' (mem_glob.mpr (.inl he)) (mem_glob.mpr (.inl he')) r
          hr hr'

/-- An append in order adds its record to the end of the replay. -/
theorem replay_orderly (ha : Orderly bytes rotateBytes j a) :
    (j.appendHistory bytes rotateBytes a).1.replayFromHistory = j.replayFromHistory ++ [a.record] := by
  rw [replay_eq, replay_eq]
  rcases append_cases bytes rotateBytes j a with ⟨hrot, heq⟩ | ⟨-, heq⟩
  · have hlt := ha hrot
    have hnew : archiveName (trunc a.time) ∉ j.archives.keys := fun hmem => lt_irrefl _ (hlt _ hmem)
    have hlast : ∀ e ∈ j.archives.entries, e.1 ≤ archiveName (trunc a.time) := fun e he =>
      (hlt e.1 (List.mem_map_of_mem he)).le
    rw [heq, rotate, Dict.entries_set_of_notMem hnew, sortBy_concat hlast]
    simp [written]
  · rw [heq]
    simp [written]

/-- A replay that ends with a record of an archive has this archive last. -/
theorem Sound.last (hs : Sound j (appended ++ [r])) (hlive : j.live = none)
    (hreplay : j.replayFromHistory = appended ++ [r]) (he : (name, lines) ∈ j.archives.entries)
    (hr : r ∈ lines) : ∀ e ∈ j.archives.entries, e.1 ≤ name := by
  have hglob : (name, lines) ∈ sortBy Prod.fst j.archives.entries := mem_sortBy.mpr he
  obtain ⟨front, back, hsplit⟩ := List.append_of_mem hglob
  have hmem : ∀ e, e ∈ j.archives.entries ↔ e ∈ front ++ (name, lines) :: back := fun e => by
    rw [← hsplit, mem_sortBy]
  have hnodup : ((front ++ (name, lines) :: back).map Prod.fst).Nodup := by
    rw [← hsplit]
    exact ((sortBy_perm _ _).map _).nodup_iff.mpr j.archives.nodup
  have hback : back = [] := by
    rw [replay_eq, hsplit, hlive, Option.getD_none, List.append_nil, List.flatMap_append,
      List.flatMap_cons, ← List.append_assoc] at hreplay
    rcases List.eq_nil_or_concat (back.flatMap Prod.snd) with hnil | ⟨init, x, hx⟩
    · refine List.eq_nil_iff_forall_not_mem.mpr ?_
      rintro ⟨name', lines'⟩ hin
      have hglob : (name', lines') ∈ j.glob := mem_glob.mpr (.inl ((hmem _).mpr (by simp [hin])))
      exact hs.filled _ _ hglob (List.flatMap_eq_nil_iff.mp hnil _ hin)
    · rw [List.concat_eq_append] at hx
      rw [hx, ← List.append_assoc] at hreplay
      obtain rfl : x = r := by simpa using (List.append_inj' hreplay rfl).2
      have hxmem : x ∈ back.flatMap Prod.snd := by simp [hx]
      obtain ⟨⟨name', lines'⟩, hin, hxl⟩ := List.mem_flatMap.mp hxmem
      have hglob : (name', lines') ∈ j.glob := mem_glob.mpr (.inl ((hmem _).mpr (by simp [hin])))
      obtain rfl : name' = name := hs.apart _ _ _ _ hglob (mem_glob.mpr (.inl he)) x hxl hr
      rw [List.map_append, List.map_cons, List.nodup_middle] at hnodup
      exact absurd (List.mem_append_right _ (List.mem_map_of_mem hin)) (List.nodup_cons.mp hnodup).1
  intro e hin
  have hsorted := sortBy_pairwise Prod.fst j.archives.entries
  rw [hsplit, hback, List.pairwise_append] at hsorted
  rcases List.mem_append.mp ((hmem e).mp hin) with hfront | hlast
  · exact hsorted.2.2 e hfront _ List.mem_cons_self
  · rw [hback, List.mem_singleton] at hlast
    rw [hlast]

/-- A replay that ends with the record just appended was in order. -/
theorem Sound.orderly (hs : Sound j appended) (ha : a.record ∉ appended)
    (hreplay : (j.appendHistory bytes rotateBytes a).1.replayFromHistory = appended ++ [a.record]) :
    Orderly bytes rotateBytes j a := by
  intro hrot name hname
  obtain ⟨⟨name, old⟩, he, rfl⟩ := List.mem_map.mp hname
  rcases append_cases bytes rotateBytes j a with ⟨-, heq⟩ | ⟨hno, -⟩
  · rw [heq] at hreplay
    have hne : name ≠ archiveName (trunc a.time) := by
      -- an archive written over loses its records
      rintro rfl
      have hold : (archiveName (trunc a.time), old) ∈ j.glob := mem_glob.mpr (.inl he)
      obtain ⟨r, hr⟩ := List.exists_mem_of_ne_nil old (hs.filled _ _ hold)
      have hmem : r ∈ appended ++ [a.record] := List.mem_append_left _ (hs.appended _ _ hold r hr)
      rw [← hreplay] at hmem
      obtain ⟨name', lines, hin, hrl⟩ := mem_replay.mp hmem
      rw [mem_glob, rotate, Dict.mem_entries_set] at hin
      rcases hin with (⟨-, rfl⟩ | ⟨hne, hin⟩) | ⟨-, hnone⟩
      · exact hs.not_archived ha he hrl hr
      · exact hne (hs.apart _ _ _ _ (mem_glob.mpr (.inl hin)) hold r hrl hr)
      · cases hnone
    have hsound : Sound (j.rotate (j.written a.record) (trunc a.time)) (appended ++ [a.record]) :=
      heq ▸ hs.append ha
    have hnew : (archiveName (trunc a.time), j.written a.record) ∈
        (j.rotate (j.written a.record) (trunc a.time)).archives.entries :=
      Dict.mem_entries_set.mpr (.inl ⟨rfl, rfl⟩)
    have hle := hsound.last rfl hreplay hnew (mem_written.mpr (.inr rfl)) (name, old)
      (Dict.mem_entries_set.mpr (.inr ⟨hne, he⟩))
    exact lt_of_le_of_ne hle hne
  · exact absurd hrot hno

theorem Sound.replay_append (hs : Sound j appended) (ha : a.record ∉ appended) :
    (j.appendHistory bytes rotateBytes a).1.replayFromHistory = appended ++ [a.record] ↔
      j.replayFromHistory = appended ∧ Orderly bytes rotateBytes j a := by
  constructor
  · intro h
    have horderly := hs.orderly ha h
    rw [replay_orderly horderly] at h
    exact ⟨List.append_cancel_right h, horderly⟩
  · rintro ⟨h, horderly⟩
    rw [replay_orderly horderly, h]

end Journal

section

open Journal

variable {bytes : ρ → ℕ} {rotateBytes : ℤ} {appends : List (Append ρ)}

theorem sound_final (hd : (appends.map Append.record).Nodup) :
    Sound (final (appendHistory bytes rotateBytes) .empty appends) (appends.map Append.record) := by
  induction appends using List.reverseRecOn with
  | nil => exact sound_empty
  | append_singleton appends a ih =>
    rw [List.map_append, List.map_singleton, List.nodup_append] at hd
    rw [final_append, List.map_append]
    refine (ih hd.1).append ?_
    intro hmem
    exact hd.2.2 _ hmem _ (List.mem_singleton.mpr rfl) rfl

/-- The replay of a journal is what was appended, in order and once each, when every rotation made
the last archive by name; and for distinct records only then. -/
theorem replay_appended_iff_orderly :
    (Along (appendHistory bytes rotateBytes) (Orderly bytes rotateBytes) .empty appends →
      (final (appendHistory bytes rotateBytes) .empty appends).replayFromHistory =
        appends.map Append.record) ∧
    ((appends.map Append.record).Nodup →
      ((final (appendHistory bytes rotateBytes) .empty appends).replayFromHistory =
          appends.map Append.record ↔
        Along (appendHistory bytes rotateBytes) (Orderly bytes rotateBytes) .empty appends)) := by
  constructor
  · intro hord
    induction appends using List.reverseRecOn with
    | nil => rfl
    | append_singleton appends a ih =>
      rw [along_append] at hord
      rw [final_append, List.map_append]
      exact (replay_orderly hord.2.1).trans (by rw [ih hord.1]; rfl)
  · intro hd
    induction appends using List.reverseRecOn with
    | nil => simp [replayFromHistory, glob, Journal.empty, Dict.empty, sortBy]
    | append_singleton appends a ih =>
      have hsound : Sound (final (appendHistory bytes rotateBytes) .empty appends)
          (appends.map Append.record) := by
        rw [List.map_append] at hd
        exact sound_final hd.of_append_left
      rw [List.map_append, List.map_singleton, List.nodup_append] at hd
      have hnew : a.record ∉ appends.map Append.record := fun hmem =>
        hd.2.2 _ hmem _ (List.mem_singleton.mpr rfl) rfl
      rw [final_append, along_append, List.map_append, ← ih hd.1]
      simpa using hsound.replay_append hnew

/-- Two appends in different seconds, each of which rotates. -/
theorem replay_appended_iff_orderly_two :
    (final (appendHistory (fun _ : ℕ => 40) 1) .empty
      [⟨1, 1760000000⟩, ⟨2, 1760000001⟩]).replayFromHistory = [1, 2] :=
  replay_appended_iff_orderly.1 (by decide)

/-- Of two rotations in one second the second writes over the archive of the first; and the archive
of second 10 is replayed before that of second 9. -/
theorem rotation_loses_and_reorders :
    (final (appendHistory (fun _ : ℕ => 40) 1) .empty
      [⟨1, 1760000000⟩, ⟨2, 1760000000⟩]).replayFromHistory = [2] ∧
    (final (appendHistory (fun _ : ℕ => 40) 1) .empty
      [⟨1, 9⟩, ⟨2, 10⟩]).replayFromHistory = [2, 1] := by
  decide

end

end Pyharmonics.Loop
