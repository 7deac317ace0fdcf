import Pyharmonics.Library.Machines
import Pyharmonics.Library.Rows

/-! The usage ledger of the database and the transactions on it. -/
namespace Pyharmonics.Quota

open Machines

abbrev Uuid := ℕ

/-- `usage_ledger.status` -/
inductive LedgerStatus
  | reserved | consumed | released
  deriving DecidableEq

structure LedgerEntry where
  id : Uuid
  userId : String
  analysisId : Option Uuid
  usageDate : ℤ
  unitsReserved : ℤ
  unitsConsumed : ℤ := 0
  status : LedgerStatus := .reserved
  inputTokens : Option ℤ := none
  outputTokens : Option ℤ := none
  estimatedCostMicros : Option ℤ := none
  deriving DecidableEq

structure Profile where
  id : String
  active : Bool
  dailyQuota : ℤ
  deriving DecidableEq

/-- An exception of a statement, which undoes its transaction. -/
inductive DbError
  | raised (message : String) | uniqueViolation | foreignKeyViolation
  deriving DecidableEq

/-- `profiles`, the ids of `analyses` and `usage_ledger`, whose primary key is `id`. -/
structure Tables where
  profiles : List Profile
  analyses : List Uuid
  ledger : List LedgerEntry
  ledger_ids : (ledger.map LedgerEntry.id).Nodup

variable {db : Tables} {e : LedgerEntry} {id : Uuid} {user : String} {day : ℤ}
  {f : LedgerEntry → LedgerEntry}

namespace Tables

/-- The entries of a user on a day. -/
def Mine (user : String) (day : ℤ) (e : LedgerEntry) : Prop :=
  e.userId = user ∧ e.usageDate = day

instance : Decidable (Mine user day e) := by
  unfold Mine
  infer_instance

/-- The quota of an active profile. -/
def dailyQuota? (db : Tables) (user : String) : Option ℤ :=
  (db.profiles.find? fun p => p.id = user ∧ p.active).map Profile.dailyQuota

/-- `SUM(units_consumed)` of the consumed entries of a user on a day. -/
def usedToday (db : Tables) (user : String) (day : ℤ) : ℤ :=
  (db.ledger.map fun e => if Mine user day e ∧ e.status = .consumed then e.unitsConsumed else 0).sum

/-- `INSERT INTO usage_ledger` -/
def insertEntry (db : Tables) (e : LedgerEntry) : Except DbError Tables :=
  if h : e.id ∈ db.ledger.map LedgerEntry.id then .error .uniqueViolation
  else if ∀ a ∈ e.analysisId, a ∈ db.analyses then
    .ok { db with
      ledger := db.ledger ++ [e]
      ledger_ids := by
        rw [List.map_append]
        exact List.Nodup.append db.ledger_ids (List.nodup_singleton _) (by simpa using h) }
  else .error .foreignKeyViolation

/-- `UPDATE usage_ledger … WHERE id = id` -/
def updateEntry (db : Tables) (id : Uuid) (f : LedgerEntry → LedgerEntry)
    (hf : ∀ e, (f e).id = e.id) : Tables :=
  { db with
    ledger := Rows.update LedgerEntry.id id f db.ledger
    ledger_ids := by
      rw [Rows.keys_update hf]
      exact db.ledger_ids }

/-- The entry `reserve_quota` inserts. -/
def reservation (day : ℤ) (entryId : Uuid) (user : String) (analysisId : Uuid) (units : ℤ) :
    LedgerEntry :=
  { id := entryId, userId := user, analysisId := some analysisId, usageDate := day
    unitsReserved := units }

/-- `reserve_quota` on a day, with the id the database makes up. -/
def reserveQuota (db : Tables) (day : ℤ) (entryId : Uuid) (user : String) (analysisId : Uuid)
    (units : ℤ) : Except DbError (Tables × Bool × ℤ) :=
  if units ≤ 0 then .error (.raised ("p_units must be positive, got " ++ toString units))
  else
    match db.dailyQuota? user with
    | none => .ok (db, false, 0)
    | some quota =>
      let used := db.usedToday user day
      if quota < used + units then .ok (db, false, quota - used)
      else
        match db.insertEntry (reservation day entryId user analysisId units) with
        | .error e => .error e
        | .ok db' => .ok (db', true, quota - used - units)

/-- The row `consume_quota` writes. -/
def consumed (input output cost : Option ℤ) (e : LedgerEntry) : LedgerEntry :=
  { e with
    status := .consumed
    unitsConsumed := e.unitsReserved
    inputTokens := input.or e.inputTokens
    outputTokens := output.or e.outputTokens
    estimatedCostMicros := cost.or e.estimatedCostMicros }

/-- `consume_quota` -/
def consumeQuota (db : Tables) (id : Uuid) (input output cost : Option ℤ) : Tables :=
  db.updateEntry id (consumed input output cost) fun _ => rfl

/-- The row `release_quota` writes. -/
def released (e : LedgerEntry) : LedgerEntry := { e with status := .released, unitsConsumed := 0 }

/-- `release_quota` -/
def releaseQuota (db : Tables) (id : Uuid) : Tables := db.updateEntry id released fun _ => rfl

/-- A row of `analyses` was deleted; `ON DELETE SET NULL`. -/
def dropAnalysis (db : Tables) (id : Uuid) : Tables :=
  { db with
    analyses := db.analyses.filter (· ≠ id)
    ledger := db.ledger.map fun e =>
      { e with analysisId := if e.analysisId = some id then none else e.analysisId }
    ledger_ids := by
      rw [List.map_map]
      exact db.ledger_ids }

end Tables

/-- The transactions that reach the ledger, in the order the database serializes them. -/
inductive Call
  | reserve (day : ℤ) (entryId : Uuid) (user : String) (analysisId : Uuid) (units : ℤ)
  | consume (id : Uuid) (input output cost : Option ℤ)
  | release (id : Uuid)
  | addAnalysis (id : Uuid)
  | dropAnalysis (id : Uuid)

/-- One transaction; an exception leaves the tables as they were. -/
def Tables.call (db : Tables) : Call → Tables × Except DbError (Option (Bool × ℤ))
  | .reserve day entryId user analysisId units =>
    match db.reserveQuota day entryId user analysisId units with
    | .error e => (db, .error e)
    | .ok (db', reserved, remaining) => (db', .ok (some (reserved, remaining)))
  | .consume id input output cost => (db.consumeQuota id input output cost, .ok none)
  | .release id => (db.releaseQuota id, .ok none)
  | .addAnalysis id => ({ db with analyses := id :: db.analyses }, .ok none)
  | .dropAnalysis id => (db.dropAnalysis id, .ok none)

/-- The tables before any entry. -/
def Tables.opening (profiles : List Profile) (analyses : List Uuid) : Tables :=
  ⟨profiles, analyses, [], List.nodup_nil⟩

/-- What a granted reservation inserts, and what the gate has checked. -/
structure Granted (db : Tables) (day : ℤ) (entryId : Uuid) (user : String) (analysisId : Uuid)
    (units : ℤ) (db' : Tables) : Prop where
  units_pos : 0 < units
  quota : ∃ quota, db.dailyQuota? user = some quota ∧ db.usedToday user day + units ≤ quota
  fresh : entryId ∉ db.ledger.map LedgerEntry.id
  profiles : db'.profiles = db.profiles
  ledger : db'.ledger = db.ledger ++ [Tables.reservation day entryId user analysisId units]

/-- A reservation inserts its entry, or leaves the tables as they are. -/
theorem reserveQuota_cases {entryId analysisId : Uuid} {units remaining : ℤ} {db' : Tables}
    {reserved : Bool}
    (h : db.reserveQuota day entryId user analysisId units = .ok (db', reserved, remaining)) :
    (reserved = true ∧ Granted db day entryId user analysisId units db') ∨
      (reserved = false ∧ db' = db) := by
  unfold Tables.reserveQuota at h
  split at h
  · simp at h
  · next hu =>
    split at h
    · right
      simp_all
    · next quota hq =>
      dsimp only at h
      split at h
      · right
        simp_all
      · next hgate =>
        unfold Tables.insertEntry at h
        by_cases hid : entryId ∈ db.ledger.map LedgerEntry.id
        · simp [Tables.reservation, hid] at h
        · by_cases ha : analysisId ∈ db.analyses
          · simp only [Tables.reservation, hid, ha, Option.mem_def, Option.some.injEq, forall_eq', dite_false, if_true,
              Except.ok.injEq, Prod.mk.injEq] at h
            obtain ⟨rfl, rfl, -⟩ := h
            left
            refine ⟨rfl, ?_⟩
            constructor
            · omega
            · exact ⟨quota, hq, by omega⟩
            · exact hid
            · rfl
            · rfl
          · simp [Tables.reservation, hid, ha] at h

end Pyharmonics.Quota
