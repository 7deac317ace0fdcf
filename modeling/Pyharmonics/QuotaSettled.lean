import Pyharmonics.QuotaLedger

/-! What becomes of a settled entry. -/
namespace Pyharmonics.Quota

open Machines

variable {db db' : Tables} {c : Call} {cs : List Call} {profiles : List Profile}
  {analyses : List Uuid}

/-- Every settled entry is found again with its status and its charge. -/
def KeepsSettled (db db' : Tables) : Prop :=
  ∀ e ∈ db.ledger, e.status ≠ .reserved →
    ∃ e' ∈ db'.ledger, e'.id = e.id ∧ e'.status = e.status ∧ e'.unitsConsumed = e.unitsConsumed

/-- The call does not settle an entry the other way. -/
def Unreversed (db : Tables) : Call → Prop
  | .consume id _ _ _ => ∀ e ∈ db.ledger, e.id = id → e.status ≠ .released
  | .release id => ∀ e ∈ db.ledger, e.id = id → e.status ≠ .consumed
  | _ => True

/-- A consumed entry charges what it reserved, any other nothing. -/
def Accounted (db : Tables) : Prop :=
  ∀ e ∈ db.ledger, e.unitsConsumed = if e.status = .consumed then e.unitsReserved else 0

theorem keepsSettled_refl (db : Tables) : KeepsSettled db db :=
  fun e he _ => ⟨e, he, rfl, rfl, rfl⟩

theorem keepsSettled_trans (a b d : Tables) (hab : KeepsSettled a b) (hbd : KeepsSettled b d) :
    KeepsSettled a d := by
  intro e he hs
  obtain ⟨e', he', hid, hstatus, hunits⟩ := hab e he hs
  obtain ⟨e'', he'', hid', hstatus', hunits'⟩ := hbd e' he' (by rwa [hstatus])
  exact ⟨e'', he'', hid'.trans hid, hstatus'.trans hstatus, hunits'.trans hunits⟩

theorem keepsSettled_of_subset (h : ∀ e ∈ db.ledger, e ∈ db'.ledger) : KeepsSettled db db' :=
  fun e he _ => ⟨e, h e he, rfl, rfl, rfl⟩

/-- An update keeps the settled entries exactly when it keeps the status of the one it meets. -/
theorem keepsSettled_update {id : Uuid} {f : LedgerEntry → LedgerEntry} {t : LedgerStatus}
    (hf : ∀ e, (f e).id = e.id) (ht : ∀ e, (f e).status = t)
    (hu : ∀ e ∈ db.ledger, e.status = t → (f e).unitsConsumed = e.unitsConsumed) :
    KeepsSettled db (db.updateEntry id f hf) ↔
      ∀ e ∈ db.ledger, e.id = id → e.status ≠ .reserved → e.status = t := by
  constructor
  · intro h e he hid hs
    obtain ⟨e', he', hid', hstatus, -⟩ := h e he hs
    have heq : e' = f e := by
      apply Rows.eq_of_key (db.updateEntry id f hf).ledger_ids he'
      · exact Rows.mem_update_of_eq he hid
      · rw [hid', hf]
    rw [← hstatus, heq, ht]
  · intro h e he hs
    by_cases hid : e.id = id
    · refine ⟨f e, Rows.mem_update_of_eq he hid, hf e, ?_, hu e he (h e he hid hs)⟩
      rw [ht, h e he hid hs]
    · exact ⟨e, Rows.mem_update_of_ne he hid, rfl, rfl, rfl⟩

theorem accounted_update {id : Uuid} {f : LedgerEntry → LedgerEntry} (hf : ∀ e, (f e).id = e.id)
    (hu : ∀ e, (f e).unitsConsumed = if (f e).status = .consumed then (f e).unitsReserved else 0)
    (h : Accounted db) : Accounted (db.updateEntry id f hf) := by
  intro e he
  rcases Rows.mem_update he with ⟨he, -⟩ | ⟨e', -, -, rfl⟩
  · exact h e he
  · exact hu e'

theorem accounted_call (h : Accounted db) : Accounted (db.call c).1 := by
  cases c with
  | reserve day entryId user analysisId units =>
    simp only [Tables.call]
    split
    · exact h
    · next db' reserved remaining hr =>
      rcases reserveQuota_cases hr with ⟨-, hg⟩ | ⟨-, rfl⟩
      · intro e he
        rw [hg.ledger] at he
        rcases List.mem_append.mp he with he | he
        · exact h e he
        · obtain rfl := List.mem_singleton.mp he
          rfl
      · exact h
  | consume id input output cost =>
    exact accounted_update (f := Tables.consumed input output cost) (fun _ => rfl) (fun _ => rfl) h
  | release id => exact accounted_update (f := Tables.released) (fun _ => rfl) (fun _ => rfl) h
  | addAnalysis id => exact h
  | dropAnalysis id =>
    intro e he
    obtain ⟨e', he', rfl⟩ := List.mem_map.mp he
    exact h e' he'

/-- One call keeps the settled entries exactly when it does not settle one the other way. -/
theorem keepsSettled_call (h : Accounted db) :
    KeepsSettled db (db.call c).1 ↔ Unreversed db c := by
  cases c with
  | reserve day entryId user analysisId units =>
    refine iff_of_true ?_ trivial
    simp only [Tables.call]
    split
    · exact keepsSettled_refl db
    · next db' reserved remaining hr =>
      rcases reserveQuota_cases hr with ⟨-, hg⟩ | ⟨-, rfl⟩
      · apply keepsSettled_of_subset
        intro e he
        rw [hg.ledger]
        exact List.mem_append_left _ he
      · exact keepsSettled_refl db'
  | consume id input output cost =>
    refine (keepsSettled_update (f := Tables.consumed input output cost) (t := .consumed)
      (fun _ => rfl) (fun _ => rfl) ?_).trans ?_
    · intro e he hs
      rw [h e he, if_pos hs]
      rfl
    · refine forall₃_congr ?_
      intro e _ _
      cases e.status <;> simp
  | release id =>
    refine (keepsSettled_update (f := Tables.released) (t := .released)
      (fun _ => rfl) (fun _ => rfl) ?_).trans ?_
    · intro e he hs
      rw [h e he, hs]
      rfl
    · refine forall₃_congr ?_
      intro e _ _
      cases e.status <;> simp
  | addAnalysis id => exact iff_of_true (keepsSettled_refl db) trivial
  | dropAnalysis id =>
    refine iff_of_true ?_ trivial
    intro e he _
    exact ⟨_, List.mem_map_of_mem he, rfl, rfl, rfl⟩

/-- On the ledger of any sequence of calls, settled entries stay as they are exactly when no call
releases a consumed entry and none consumes a released one. -/
theorem settled_final_iff :
    (∀ ys zs, ys ++ zs <+: cs →
      KeepsSettled (final Tables.call (.opening profiles analyses) ys)
        (final Tables.call (.opening profiles analyses) (ys ++ zs))) ↔
      Along Tables.call Unreversed (.opening profiles analyses) cs := by
  rw [← along_iff_related keepsSettled_refl keepsSettled_trans]
  apply along_congr (I := Accounted)
  · intro db c h
    exact ⟨keepsSettled_call h, accounted_call h⟩
  · intro e he
    simp [Tables.opening] at he

/-! An analysis fails after its charge, and its handler releases the entry. -/

def trader : Profile := { id := "trader", active := true, dailyQuota := 1 }

/-- Reserved, consumed and then released. -/
def refundCalls : List Call :=
  [.reserve 0 7 "trader" 1 1, .consume 7 none none none, .release 7]

theorem refundCalls_unsettle : ¬ ∀ ys zs, ys ++ zs <+: refundCalls →
    KeepsSettled (final Tables.call (.opening [trader] [1]) ys)
      (final Tables.call (.opening [trader] [1]) (ys ++ zs)) := by
  intro h
  have hkeep := h [.reserve 0 7 "trader" 1 1, .consume 7 none none none] [.release 7]
    (by simp [refundCalls])
  have hbefore : (final Tables.call (.opening [trader] [1])
      [.reserve 0 7 "trader" 1 1, .consume 7 none none none]).ledger.map
        (fun e => (e.status, e.unitsConsumed)) = [(.consumed, 1)] := by
    decide +kernel
  have hafter : (final Tables.call (.opening [trader] [1])
      ([.reserve 0 7 "trader" 1 1, .consume 7 none none none] ++ [.release 7])).ledger.map
        (fun e => (e.status, e.unitsConsumed)) = [(.released, 0)] := by
    decide +kernel
  obtain ⟨e, es, hl, he, -⟩ := List.map_eq_cons_iff.mp hbefore
  obtain ⟨hstatus, -⟩ := Prod.mk.inj he
  obtain ⟨e', he', -, hstatus', -⟩ := hkeep e (by rw [hl]; exact List.mem_cons_self) (by simp [hstatus])
  have hmem := List.mem_map_of_mem (f := fun e : LedgerEntry => (e.status, e.unitsConsumed)) he'
  rw [hafter] at hmem
  simp [hstatus', hstatus] at hmem

end Pyharmonics.Quota
