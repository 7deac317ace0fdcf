import Pyharmonics.WatchlistBackends

/-! The reorder on Supabase: one update for each row, and the fallback when an update raises. -/
namespace Pyharmonics.Watchlist

open Sorting

variable {table : List Item} {market now : String} {ids : List String} {r : Item}
  {updates : List (String × Updates)} {p : String × Updates}

/-- How an update fails: it returns no row, or it raises, applied or not. -/
inductive Failure
  | noRow
  | raised (applied : Bool)

/-- What fails during a reorder: the listing, and one update at its place in the loop. -/
structure Faults where
  listing : Bool
  update : Option (ℕ × Failure)

/-- A fallback backend with the mirroring of a reorder. -/
structure Fallback (σ : Type*) where
  backend : Backend σ
  mirrorReorder : σ → String → List Item → σ

def mirrorRedis (data : RedisData) (market : String) (rows : List Item) : RedisData :=
  data.set market rows

/-- An update that raises ends the mirroring. -/
def mirrorMemory (data : MemoryData) (_market : String) (rows : List Item) : MemoryData :=
  (updateEach data (rows.map fun r =>
    (r.id, { sortIndex := some r.sortIndex, updatedAt := r.updatedAt }))).1

def redisFallback : Fallback RedisData := ⟨redis, mirrorRedis⟩

def memoryFallback : Fallback MemoryData := ⟨memory, mirrorMemory⟩

/-- The rows of a user in Supabase, and the state of the fallback. -/
structure Mirrored (σ : Type*) where
  table : List Item
  fallback : σ

/-- The select of a listing; rows with equal keys come in the order of the table. -/
def selectRows (table : List Item) (market : String) : List Item :=
  sortBy Item.key (ofMarket market table)

def failureAt (fault : Option (ℕ × Failure)) (place : ℕ) : Option Failure :=
  (fault.filter fun f => f.1 = place).map Prod.snd

/-- How the loop over the rows ends. -/
inductive LoopEnd
  | finished (rows : List Item)
  | missing (itemId : String)
  | failed

/-- The loop of the updates, from a place on and with the rows returned so far. -/
def updateLoop (fault : Option (ℕ × Failure)) :
    ℕ → List Item → List (String × Updates) → List Item → List Item × LoopEnd
  | _, newRows, [], table => (table, .finished newRows)
  | place, newRows, (itemId, u) :: updates, table =>
    match failureAt fault place with
    | some .noRow => (table, .missing itemId)
    | some (.raised applied) =>
      (if applied then Rows.update Item.id itemId u.apply table else table, .failed)
    | none =>
      match findRow itemId table with
      | none => (table, .missing itemId)
      | some r =>
        updateLoop fault (place + 1) (newRows ++ [u.apply r]) updates
          (Rows.update Item.id itemId u.apply table)

section

variable {σ : Type*} (F : Fallback σ)

def listItems (s : Mirrored σ) (market : String) (raises : Bool) : List Item :=
  if raises then F.backend.list s.fallback market else selectRows s.table market

def reorderSupabase (faults : Faults) (s : Mirrored σ) (market : String) (orderedIds : List String)
    (now : String) : Mirrored σ × Except StoreError (List Item) :=
  match checkOrder ((listItems F s market faults.listing).map Item.id) orderedIds with
  | .error e => (s, .error e)
  | .ok _ =>
    match updateLoop faults.update 0 [] (orderUpdates orderedIds now) s.table with
    | (table, .missing itemId) => ({ s with table := table }, .error (.notFound (.item itemId)))
    | (table, .failed) =>
      let (fallback, answer) := F.backend.reorder s.fallback market (orderUpdates orderedIds now)
      (⟨table, fallback⟩, answer)
    | (table, .finished rows) =>
      (⟨table, F.mirrorReorder s.fallback market (sortBy Item.sortIndex rows)⟩,
        .ok (sortBy Item.sortIndex rows))

end

/-! How far the loop comes. -/

/-- The number of updates that a loop over n rows applies. -/
def appliedCount (fault : Option (ℕ × Failure)) (n : ℕ) : ℕ :=
  match fault with
  | none => n
  | some (k, .noRow) => min k n
  | some (k, .raised applied) => if k < n then k + applied.toNat else n

/-- One of n updates raises. -/
def Raises (fault : Option (ℕ × Failure)) (n : ℕ) : Prop :=
  ∃ k applied, fault = some (k, .raised applied) ∧ k < n

theorem update_map_applied (table : List Item) (h : p.1 ∉ updates.map Prod.fst) :
    Rows.update Item.id p.1 p.2.apply (table.map (applied updates)) =
      table.map (applied (updates ++ [p])) := by
  rw [Rows.update, List.map_map]
  apply List.map_congr_left
  intro r _
  rw [Function.comp_apply, applied_id]
  by_cases hid : r.id = p.1
  · have hnone : updates.lookup r.id = none := by
      rw [List.lookup_eq_none_iff]
      intro q hq
      rw [bne_iff_ne, hid]
      rintro he
      exact h (he ▸ List.mem_map_of_mem hq)
    have hp : [p].lookup p.1 = some p.2 := List.lookup_cons_self
    rw [if_pos hid, applied_of_notMem (hid ▸ h), applied, List.lookup_append, hnone, hid,
      Option.none_or, hp]
    rfl
  · rw [if_neg hid, applied, applied, List.lookup_append]
    have hnone : [p].lookup r.id = none := by
      rw [List.lookup_eq_none_iff]
      simpa using hid
    rw [hnone, Option.or_none]

/-- Updates that do not fail are all applied, and the loop goes on behind them. -/
theorem updateLoop_append (fault : Option (ℕ × Failure)) (place : ℕ) (newRows : List Item)
    (rest : List (String × Updates)) (hids : IdsDistinct table)
    (hnodup : (updates.map Prod.fst).Nodup)
    (hmem : ∀ i ∈ updates.map Prod.fst, i ∈ table.map Item.id)
    (hfault : ∀ j, place ≤ j → j < place + updates.length → failureAt fault j = none) :
    updateLoop fault place newRows (updates ++ rest) table =
      updateLoop fault (place + updates.length) (newRows ++ picked updates table) rest
        (table.map (applied updates)) := by
  induction updates generalizing table place newRows with
  | nil =>
    have hsame : table.map (applied []) = table := List.map_id table
    simp [picked, hsame]
  | cons p updates ih =>
    obtain ⟨hp, hrest⟩ := List.nodup_cons.mp hnodup
    obtain ⟨r, hr, hid⟩ := List.mem_map.mp (hmem p.1 List.mem_cons_self)
    have hfind : findRow p.1 table = some r := hid ▸ findRow_of_mem hids hr
    have hnone : failureAt fault place = none := hfault place (Nat.le_refl _) (by simp)
    have hpicked : picked (p :: updates) table = p.2.apply r :: picked updates table := by
      simp [picked, hfind]
    rw [List.cons_append, updateLoop, hnone]
    simp only [hfind]
    rw [ih _ _ (idsDistinct_update hids) hrest, map_applied_update hp, picked_update hp, hpicked,
      List.length_cons, List.append_assoc, List.singleton_append, Nat.add_assoc, Nat.add_comm 1]
    · intro i hi
      rw [Rows.keys_update (fun _ => apply_id)]
      exact hmem i (List.mem_cons_of_mem _ hi)
    · intro j hj hj'
      exact hfault j (by omega) (by rw [List.length_cons]; omega)

theorem failureAt_of_ne {k place : ℕ} {f : Failure} (h : k ≠ place) :
    failureAt (some (k, f)) place = none := by
  simp [failureAt, h]

theorem failureAt_self {k : ℕ} {f : Failure} : failureAt (some (k, f)) k = some f := by
  simp [failureAt]

theorem updateLoop_finished {fault : Option (ℕ × Failure)} (hids : IdsDistinct table)
    (hnodup : (updates.map Prod.fst).Nodup)
    (hmem : ∀ i ∈ updates.map Prod.fst, i ∈ table.map Item.id)
    (hfault : ∀ j, j < updates.length → failureAt fault j = none) :
    updateLoop fault 0 [] updates table =
      (table.map (applied updates), .finished (picked updates table)) := by
  have h := updateLoop_append fault 0 [] [] hids hnodup hmem fun j _ hj => hfault j (by omega)
  rwa [List.append_nil, List.nil_append] at h

/-- The updates before the failing place are applied. -/
theorem updateLoop_reaches {k : ℕ} (f : Failure) (hids : IdsDistinct table)
    (hnodup : (updates.map Prod.fst).Nodup)
    (hmem : ∀ i ∈ updates.map Prod.fst, i ∈ table.map Item.id) (hk : k < updates.length) :
    updateLoop (some (k, f)) 0 [] updates table =
      updateLoop (some (k, f)) k (picked (updates.take k) table)
        (updates[k] :: updates.drop (k + 1)) (table.map (applied (updates.take k))) := by
  have hsplit : updates = updates.take k ++ updates[k] :: updates.drop (k + 1) := by
    rw [← List.drop_eq_getElem_cons hk, List.take_append_drop]
  have hlen : (updates.take k).length = k := by
    rw [List.length_take]
    omega
  have h := updateLoop_append (some (k, f)) 0 [] (updates[k] :: updates.drop (k + 1)) hids
    (hnodup.sublist ((List.take_sublist k updates).map _))
    (fun i hi => hmem i (List.map_subset _ (List.take_subset _ _) hi))
    (fun j _ hj => failureAt_of_ne (by omega))
  rwa [← hsplit, hlen, Nat.zero_add, List.nil_append] at h

theorem updateLoop_noRow {k : ℕ} (hids : IdsDistinct table) (hnodup : (updates.map Prod.fst).Nodup)
    (hmem : ∀ i ∈ updates.map Prod.fst, i ∈ table.map Item.id) (hk : k < updates.length) :
    updateLoop (some (k, .noRow)) 0 [] updates table =
      (table.map (applied (updates.take k)), .missing updates[k].1) := by
  rw [updateLoop_reaches .noRow hids hnodup hmem hk, updateLoop, failureAt_self]

theorem updateLoop_raised {k : ℕ} {done : Bool} (hids : IdsDistinct table)
    (hnodup : (updates.map Prod.fst).Nodup)
    (hmem : ∀ i ∈ updates.map Prod.fst, i ∈ table.map Item.id) (hk : k < updates.length) :
    updateLoop (some (k, .raised done)) 0 [] updates table =
      (table.map (applied (updates.take (k + done.toNat))), .failed) := by
  rw [updateLoop_reaches (.raised done) hids hnodup hmem hk, updateLoop, failureAt_self]
  cases done with
  | false => rfl
  | true =>
    have hnew : updates[k].1 ∉ (updates.take k).map Prod.fst := by
      intro hmem
      have hsplit : updates.take (k + 1) = updates.take k ++ [updates[k]] :=
        (List.take_append_getElem hk).symm
      have hprefix := hnodup.sublist ((List.take_sublist (k + 1) updates).map _)
      rw [hsplit, Rows.nodup_keys_concat] at hprefix
      exact hprefix.1 hmem
    have happlied := update_map_applied table hnew
    rw [List.take_append_getElem hk] at happlied
    simp [happlied]

/-! The listing behind a loop that stopped. -/

/-- The sort index of a row once the first m rows of an order have been updated. -/
def placeAfter (ids : List String) (m : ℕ) (r : Item) : ℤ :=
  if r.id ∈ ids.take m then (ids.idxOf r.id : ℤ) else r.sortIndex

/-- What a listing goes by then. -/
def keyAfter (ids : List String) (m : ℕ) (r : Item) : ℤ ×ₗ String :=
  toLex (placeAfter ids m r, r.createdAt)

/-- An order of the market's rows in which each one goes before the later ones by the sort indexes
after m updates. -/
def InTurn (table : List Item) (market : String) (ids : List String) (m : ℕ) (order : List String) :
    Prop :=
  ∃ rows : List Item, rows.map Item.id = order ∧ rows.Perm (ofMarket market table) ∧
    rows.Pairwise (Precedes (keyAfter ids m) (ofMarket market table))

theorem take_orderUpdates {m : ℕ} : (orderUpdates ids now).take m = orderUpdates (ids.take m) now := by
  have htake : ids.zipIdx.take m = (ids.take m).zipIdx := by
    apply List.ext_getElem?
    intro i
    rcases Nat.lt_or_ge i m with h | h
    · simp [List.getElem?_take_of_lt h]
    · simp [List.getElem?_take_eq_none h]
  rw [orderUpdates, orderUpdates, ← List.map_take, htake]

theorem lookup_orderUpdates {i : String} {k : ℕ} :
    ((ids.zipIdx k).map fun q =>
      (q.1, ({ sortIndex := some (q.2 : ℤ), updatedAt := now } : Updates))).lookup i =
      if i ∈ ids then some { sortIndex := some ((k + ids.idxOf i : ℕ) : ℤ), updatedAt := now }
      else none := by
  induction ids generalizing k with
  | nil => rfl
  | cons a ids ih =>
    rw [List.zipIdx_cons, List.map_cons, List.lookup_cons]
    by_cases h : i = a
    · subst h
      simp
    · have hne : (i == a) = false := by simpa using h
      rw [hne, ih, List.idxOf_cons_ne _ (Ne.symm h)]
      simp [h, Nat.add_assoc, Nat.add_comm 1]

theorem key_applied {m : ℕ} :
    (applied ((orderUpdates ids now).take m) r).key = keyAfter ids m r := by
  rw [take_orderUpdates, applied, orderUpdates, lookup_orderUpdates, keyAfter, placeAfter]
  by_cases h : r.id ∈ ids.take m
  · have hidx : (ids.take m).idxOf r.id = ids.idxOf r.id := by
      have happend : (ids.take m ++ ids.drop m).idxOf r.id = (ids.take m).idxOf r.id :=
        List.idxOf_append_of_mem h
      rw [← happend, List.take_append_drop]
    rw [if_pos h, if_pos h, hidx, Nat.zero_add]
    rfl
  · rw [if_neg h, if_neg h]
    rfl

theorem selectRows_eq_iff {m : ℕ} {order : List String} (hids : IdsDistinct table) :
    (selectRows (table.map (applied ((orderUpdates ids now).take m))) market).map Item.id = order ↔
      InTurn table market ids m order := by
  have hlist : (selectRows (table.map (applied ((orderUpdates ids now).take m))) market).map Item.id =
      (sortBy (keyAfter ids m) (ofMarket market table)).map Item.id := by
    rw [selectRows, ofMarket_map (fun _ => applied_market), sortBy_map, List.map_map]
    simp only [key_applied]
    apply List.map_congr_left
    intro r _
    exact applied_id
  have hnodup : (ofMarket market table).Nodup := (idsDistinct_ofMarket hids).of_map
  rw [hlist]
  constructor
  · rintro rfl
    exact ⟨_, rfl, (sortBy_eq_iff hnodup).mp rfl⟩
  · rintro ⟨rows, rfl, hrows⟩
    rw [(sortBy_eq_iff hnodup).mpr hrows]

/-! What a reorder leaves. -/

/-- The market is listed in its old order or in the requested one, and an answer gives the rows in
the order they are listed in. -/
structure Consistent (market : String) (ids : List String) (before after : List Item)
    (answer : Except StoreError (List Item)) : Prop where
  order : (selectRows after market).map Item.id = (selectRows before market).map Item.id ∨
    (selectRows after market).map Item.id = ids
  answer : ∀ rows, answer = .ok rows → rows.map Item.id = (selectRows after market).map Item.id

/-- The checks turn the order away: the listing raised, and the fallback has other rows. -/
def Refused {σ : Type*} (F : Fallback σ) (faults : Faults) (s : Mirrored σ) (market : String)
    (ids : List String) : Prop :=
  faults.listing = true ∧ ¬ ids.Perm ((F.backend.list s.fallback market).map Item.id).dedup

section

variable {σ : Type*} {F : Fallback σ} {faults : Faults} {s : Mirrored σ}

theorem checkOrder_listItems (hids : IdsDistinct s.table) (hnodup : ids.Nodup)
    (hperm : ids.Perm ((ofMarket market s.table).map Item.id)) :
    checkOrder ((listItems F s market faults.listing).map Item.id) ids = .ok () ↔
      ¬ Refused F faults s market ids := by
  rw [checkOrder_ok_iff, Refused, listItems]
  cases faults.listing with
  | true => simp [hnodup]
  | false =>
    have hlisted : ((selectRows s.table market).map Item.id).Perm
        ((ofMarket market s.table).map Item.id) := (sortBy_perm _ _).map _
    have hdedup : ((selectRows s.table market).map Item.id).dedup =
        (selectRows s.table market).map Item.id :=
      List.dedup_eq_self.mpr (hlisted.nodup_iff.mpr (idsDistinct_ofMarket hids))
    simp [hnodup, hdedup, hperm.trans hlisted.symm]

/-- How the loop of a valid order ends, and what it leaves of the rows. -/
theorem updateLoop_cases (fault : Option (ℕ × Failure)) (now : String)
    (hids : IdsDistinct table) (hnodup : ids.Nodup)
    (hperm : ids.Perm ((ofMarket market table).map Item.id)) :
    ∃ stop, updateLoop fault 0 [] (orderUpdates ids now) table =
        (table.map (applied ((orderUpdates ids now).take (appliedCount fault ids.length))), stop) ∧
      (Raises fault ids.length ∧ stop = .failed ∨
        ¬ Raises fault ids.length ∧ ((∃ i, stop = .missing i) ∨
          appliedCount fault ids.length = ids.length ∧
            stop = .finished (picked (orderUpdates ids now) table))) := by
  have hkeys : ((orderUpdates ids now).map Prod.fst).Nodup := by rwa [orderUpdates_ids]
  have hlen : (orderUpdates ids now).length = ids.length := by simp [orderUpdates]
  have hmem : ∀ i ∈ (orderUpdates ids now).map Prod.fst, i ∈ table.map Item.id :=
    orderUpdates_mem hperm
  have hall : (orderUpdates ids now).take ids.length = orderUpdates ids now :=
    List.take_of_length_le hlen.le
  have hfinished : (∀ j, j < ids.length → failureAt fault j = none) →
      updateLoop fault 0 [] (orderUpdates ids now) table =
        (table.map (applied ((orderUpdates ids now).take ids.length)),
          .finished (picked (orderUpdates ids now) table)) := by
    intro hfault
    rw [hall]
    exact updateLoop_finished hids hkeys hmem (hlen ▸ hfault)
  rcases fault with _ | ⟨k, _ | done⟩
  · refine ⟨_, hfinished fun _ _ => rfl, .inr ⟨?_, .inr ⟨rfl, rfl⟩⟩⟩
    rintro ⟨k, done, h, -⟩
    cases h
  · have hnot : ¬ Raises (some (k, .noRow)) ids.length := by
      rintro ⟨k, done, h, -⟩
      cases h
    by_cases hk : k < ids.length
    · have hcount : appliedCount (some (k, .noRow)) ids.length = k := Nat.min_eq_left hk.le
      rw [hcount]
      exact ⟨_, updateLoop_noRow hids hkeys hmem (hlen.symm ▸ hk), .inr ⟨hnot, .inl ⟨_, rfl⟩⟩⟩
    · have hcount : appliedCount (some (k, .noRow)) ids.length = ids.length :=
        Nat.min_eq_right (Nat.not_lt.mp hk)
      rw [hcount]
      exact ⟨_, hfinished fun j hj => failureAt_of_ne (by omega), .inr ⟨hnot, .inr ⟨rfl, rfl⟩⟩⟩
  · by_cases hk : k < ids.length
    · have hcount : appliedCount (some (k, .raised done)) ids.length = k + done.toNat := if_pos hk
      rw [hcount]
      exact ⟨_, updateLoop_raised hids hkeys hmem (hlen.symm ▸ hk), .inl ⟨⟨k, done, rfl, hk⟩, rfl⟩⟩
    · have hcount : appliedCount (some (k, .raised done)) ids.length = ids.length := if_neg hk
      have hnot : ¬ Raises (some (k, .raised done)) ids.length := by
        rintro ⟨k', done', h, hk'⟩
        cases h
        exact hk hk'
      rw [hcount]
      exact ⟨_, hfinished fun j hj => failureAt_of_ne (by omega), .inr ⟨hnot, .inr ⟨rfl, rfl⟩⟩⟩

end

/-! Three rows to be turned round. -/

def storedRow (id : String) (sortIndex : ℤ) (createdAt : String) : Item where
  id := id
  userId := "user"
  market := "futures"
  symbolMeta := futuresMeta id
  note := ""
  sortIndex := sortIndex
  createdAt := createdAt
  updatedAt := createdAt

def threeRows : List Item :=
  [storedRow "a" 0 "2026-01-01T00:00:00+00:00", storedRow "b" 1 "2026-01-02T00:00:00+00:00",
    storedRow "c" 2 "2026-01-03T00:00:00+00:00"]

/-- The rows in Supabase and their mirror in memory. -/
def mirroredRows : Mirrored MemoryData :=
  ⟨threeRows, threeRows.foldl (fun data r => data.set r.id r) .empty⟩

end Pyharmonics.Watchlist
