import Pyharmonics.Library.Machines
import Pyharmonics.WatchlistReorder

/-! The store on Supabase while it answers: its rows, and the mirror that an outage falls back on. -/
namespace Pyharmonics.Watchlist

open Machines Sorting

/-- A fallback backend with all that is mirrored to it. -/
structure Mirror (σ : Type*) extends Fallback σ where
  mirrorUpdate : σ → Item → σ

/-- Every field but `id`, `user_id` and `market` is written to the mirrored row. -/
def mirrorUpdateRedis (data : RedisData) (updated : Item) : RedisData :=
  match locate updated.id data with
  | none => data
  | some (market, rows, r) =>
    data.set market
      (replaceFirst { updated with id := r.id, userId := r.userId, market := r.market } rows)

/-- Every field but `id` and `user_id` is written to the mirrored row. -/
def mirrorUpdateMemory (data : MemoryData) (updated : Item) : MemoryData :=
  match data.get? updated.id with
  | none => data
  | some r => data.set updated.id { updated with id := r.id, userId := r.userId }

def redisMirror : Mirror RedisData := { redisFallback with mirrorUpdate := mirrorUpdateRedis }

def memoryMirror : Mirror MemoryData := { memoryFallback with mirrorUpdate := mirrorUpdateMemory }

section

variable {σ : Type*} (F : Mirror σ) (resolver : Option (String → Option SymbolMeta))
  (userId : String)

/-- `create_item`: the table refuses a second row of a symbol, and the mirror may refuse the row. -/
def createSupabase (s : Mirrored σ) (c : NewItem) : Mirrored σ × Except StoreError Item :=
  match c.admitted resolver with
  | .error e => (s, .error e)
  | .ok _ =>
    let payload := c.payload userId (selectRows s.table c.market)
    if (ofMarket payload.market s.table).any fun r => r.symbol = payload.symbol then
      (s, .error (.duplicate payload.symbol payload.market))
    else (⟨s.table ++ [payload], (F.backend.create s.fallback payload).1⟩, .ok payload)

def updateSupabase (s : Mirrored σ) (itemId : String) (note : Option String)
    (sortIndex : Option ℤ) (now : String) : Mirrored σ × Except StoreError Item :=
  if note.isNone ∧ sortIndex.isNone then
    (s, .error (.value "update_item requires note or sort_index"))
  else
    match note.elim (.ok ()) validateNote with
    | .error e => (s, .error e)
    | .ok _ =>
      let u : Updates := { note := note, sortIndex := sortIndex, updatedAt := now }
      match findRow itemId s.table with
      | none => (s, .error (.notFound (.item itemId)))
      | some r =>
        (⟨Rows.update Item.id itemId u.apply s.table, F.mirrorUpdate s.fallback (u.apply r)⟩,
          .ok (u.apply r))

def deleteSupabase (s : Mirrored σ) (itemId : String) : Mirrored σ × Except StoreError Bool :=
  if itemId ∈ s.table.map Item.id then
    (⟨Rows.delete Item.id itemId s.table, (F.backend.delete s.fallback itemId).1⟩, .ok true)
  else (s, .error (.notFound (.item itemId)))

/-- No listing and no update of a reorder fails. -/
def noFaults : Faults := ⟨false, none⟩

/-- One call of the interface that Supabase answers. -/
def callSupabase (s : Mirrored σ) : Call → Mirrored σ × Except StoreError Answer
  | .create c => answered .item (createSupabase F resolver userId s c)
  | .update itemId note sortIndex now =>
    answered .item (updateSupabase F s itemId note sortIndex now)
  | .delete itemId => answered .deleted (deleteSupabase F s itemId)
  | .reorder market orderedIds now =>
    answered .items (reorderSupabase F.toFallback noFaults s market orderedIds now)
  | .list market => (s, .ok (.items (listItems F.toFallback s market false)))

end

/-- What is mirrored to a backend does to its rows what the call does to the table. -/
structure Copies {σ : Type*} (F : Mirror σ) (full : List Item → String → Bool)
    (R : List Item → σ → Prop) : Prop where
  refines : Refines F.backend full R
  update : ∀ {rows s r} {u : Updates}, R rows s → r ∈ rows →
    R (Rows.update Item.id r.id u.apply rows) (F.mirrorUpdate s (u.apply r))
  reorder : ∀ {rows s market ids now}, R rows s → ids.Nodup →
    ids.Perm ((ofMarket market rows).map Item.id) →
    ∃ rows', R rows' (F.mirrorReorder s market (picked (orderUpdates ids now) rows)) ∧
      rows'.Perm (rows.map (applied (orderUpdates ids now)))
  full_perm : ∀ {rows rows' market}, rows.Perm rows' → full rows market = full rows' market

variable {σ : Type*} {F : Mirror σ} {full : List Item → String → Bool} {R : List Item → σ → Prop}
  {resolver : Option (String → Option SymbolMeta)} {userId : String} {rows rows' : List Item}
  {market itemId now : String} {ids : List String} {u : Updates} {r : Item} {c : Call}

/-- The mirror has the rows of the table, in an order of its own. -/
def Agrees (R : List Item → σ → Prop) (s : Mirrored σ) : Prop :=
  ∃ rows, R rows s.fallback ∧ rows.Perm s.table

/-- A created row gets an id of its own, and there is room for it in the mirror. -/
def Fits (full : List Item → String → Bool) (s : Mirrored σ) : Call → Prop
  | .create c => c.id ∉ s.table.map Item.id ∧ full s.table c.market = false
  | _ => True

theorem mirrorUpdateRedis_apply {data : RedisData} (h : Files rows data) (hr : r ∈ rows) :
    Files (Rows.update Item.id r.id u.apply rows) (mirrorUpdateRedis data (u.apply r)) := by
  have hupdate : mirrorUpdateRedis data (u.apply r) = (updateRedis data r.id u).1 := by
    rw [mirrorUpdateRedis, updateRedis, apply_id, h.locate_some hr]
    rfl
  have hsheet : ((sheet fullMarket).update rows r.id u).1 = Rows.update Item.id r.id u.apply rows := by
    simp only [sheet, findRow_of_mem h.distinct hr]
  rw [hupdate, ← hsheet]
  exact h.update.2

theorem mirrorUpdateMemory_apply {data : MemoryData} (h : Holds rows data) (hr : r ∈ rows) :
    Holds (Rows.update Item.id r.id u.apply rows) (mirrorUpdateMemory data (u.apply r)) := by
  rw [mirrorUpdateMemory, apply_id, h.get?, findRow_of_mem h.distinct hr]
  exact h.set hr

theorem filter_others (hids : IdsDistinct rows)
    (hperm : ids.Perm ((ofMarket market rows).map Item.id)) :
    (rows.map (applied (orderUpdates ids now))).filter (fun r => ¬ r.market = market) =
      rows.filter fun r => ¬ r.market = market := by
  rw [List.filter_map]
  have hfilter : (fun r : Item => decide (¬ r.market = market)) ∘ applied (orderUpdates ids now) =
      fun r : Item => decide (¬ r.market = market) := by
    funext r
    simp
  rw [hfilter]
  refine (List.map_congr_left fun r hr => ?_).trans (List.map_id _)
  obtain ⟨hr, hmarket⟩ := List.mem_filter.mp hr
  exact applied_orderUpdates_of_ne hids hperm hr (by simpa using hmarket)

/-- The rows of a reordered market are filed in their new order, behind those of the others. -/
theorem mirrorRedis_reorder {data : RedisData} (h : Files rows data) (hnodup : ids.Nodup)
    (hperm : ids.Perm ((ofMarket market rows).map Item.id)) :
    ∃ rows', Files rows' (mirrorRedis data market (picked (orderUpdates ids now) rows)) ∧
      rows'.Perm (rows.map (applied (orderUpdates ids now))) := by
  have hpicked : (picked (orderUpdates ids now) rows).Perm
      (ofMarket market (rows.map (applied (orderUpdates ids now)))) :=
    picked_perm h.distinct (by rwa [orderUpdates_ids]) (by rwa [orderUpdates_ids])
  have hmarket : ∀ r ∈ picked (orderUpdates ids now) rows, r.market = market := fun r hr =>
    (mem_ofMarket.mp (hpicked.subset hr)).2
  have hrows : (rows.filter (fun r => ¬ r.market = market) ++
      picked (orderUpdates ids now) rows).Perm (rows.map (applied (orderUpdates ids now))) := by
    have hothers : (rows.map (applied (orderUpdates ids now))).filter
        (fun r => ¬ r.market = market) = rows.filter fun r => ¬ r.market = market :=
      filter_others h.distinct hperm
    rw [← hothers]
    refine (List.perm_append_comm.trans (hpicked.append_right _)).trans ?_
    simpa [ofMarket] using List.filter_append_perm (fun r : Item => r.market = market)
      (rows.map (applied (orderUpdates ids now)))
  refine ⟨_, ?_, hrows⟩
  have hown : ofMarket market (rows.filter (fun r => ¬ r.market = market) ++
      picked (orderUpdates ids now) rows) = picked (orderUpdates ids now) rows := by
    have hothers : ofMarket market (rows.filter fun r => ¬ r.market = market) = [] := by
      simp [ofMarket]
    have hall : ofMarket market (picked (orderUpdates ids now) rows) =
        picked (orderUpdates ids now) rows := List.filter_eq_self.mpr (by simpa using hmarket)
    rw [ofMarket, List.filter_append, ← ofMarket, ← ofMarket, hothers, hall, List.nil_append]
  have hset : Files (rows.filter (fun r => ¬ r.market = market) ++ picked (orderUpdates ids now) rows)
      (data.set market (ofMarket market (rows.filter (fun r => ¬ r.market = market) ++
        picked (orderUpdates ids now) rows))) := by
    refine h.set ?_ fun m hm => ?_
    · exact (hrows.map _).nodup_iff.mpr (idsDistinct_map_applied h.distinct)
    · have hnone : ofMarket m (picked (orderUpdates ids now) rows) = [] :=
        List.filter_eq_nil_iff.mpr fun r hr => by simp [hmarket r hr, hm.symm]
      have hsame : ofMarket m (rows.filter fun r => ¬ r.market = market) = ofMarket m rows := by
        rw [ofMarket, ofMarket, List.filter_filter]
        refine List.filter_congr fun r _ => ?_
        by_cases hr : r.market = m <;> simp [hr, hm]
      rw [ofMarket, List.filter_append, ← ofMarket, ← ofMarket, hsame, hnone, List.append_nil]
  rwa [hown] at hset

theorem mirrorMemory_reorder {data : MemoryData} (h : Holds rows data) (hnodup : ids.Nodup)
    (hperm : ids.Perm ((ofMarket market rows).map Item.id)) :
    Holds (rows.map (applied (orderUpdates ids now)))
      (mirrorMemory data market (picked (orderUpdates ids now) rows)) := by
  have hupdates : (picked (orderUpdates ids now) rows).map (fun r =>
      (r.id, ({ sortIndex := some r.sortIndex, updatedAt := r.updatedAt } : Updates))) =
      (orderUpdates ids now).map id := by
    refine picked_map (orderUpdates_mem hperm) fun p hp r hr => ?_
    obtain ⟨q, -, rfl⟩ := List.mem_map.mp hp
    simp [Updates.apply, hr]
  rw [mirrorMemory, hupdates, List.map_id]
  exact (h.updateEach _ (by rwa [orderUpdates_ids]) (orderUpdates_mem hperm)).2

theorem redis_copies : Copies redisMirror fullMarket Files where
  refines := redis_refines
  update h hr := mirrorUpdateRedis_apply h hr
  reorder h hnodup hperm := mirrorRedis_reorder h hnodup hperm
  full_perm h := by rw [fullMarket, fullMarket, ofMarket, ofMarket, (h.filter _).length_eq]

theorem memory_copies : Copies memoryMirror fullUser Holds where
  refines := memory_refines
  update h hr := mirrorUpdateMemory_apply h hr
  reorder h hnodup hperm := ⟨_, mirrorMemory_reorder h hnodup hperm, .refl _⟩
  full_perm h := by simp only [fullUser, h.length_eq]

theorem findRow_perm (hids : IdsDistinct rows) (h : rows.Perm rows') :
    findRow itemId rows = findRow itemId rows' := by
  have hids' : IdsDistinct rows' := (h.map _).nodup_iff.mp hids
  cases hfind : findRow itemId rows with
  | none =>
    symm
    rw [findRow_eq_none] at hfind ⊢
    exact fun hmem => hfind ((h.map _).mem_iff.mpr hmem)
  | some r =>
    obtain ⟨hr, rfl⟩ := findRow_eq_some hfind
    exact (findRow_of_mem hids' (h.subset hr)).symm

section

variable {s : Mirrored σ}

theorem Agrees.distinct (hF : Copies F full R) (h : Agrees R s) : IdsDistinct s.table := by
  obtain ⟨rows, hrows, hperm⟩ := h
  exact (hperm.map _).nodup_iff.mp (hF.refines.ids hrows)

theorem Agrees.create (hF : Copies F full R) (h : Agrees R s) {c : NewItem}
    (hfits : Fits full s (.create c)) : Agrees R (createSupabase F resolver userId s c).1 := by
  obtain ⟨rows, hrows, hperm⟩ := h
  obtain ⟨hid, hroom⟩ := hfits
  unfold createSupabase
  split
  · exact ⟨rows, hrows, hperm⟩
  · simp only
    split
    · exact ⟨rows, hrows, hperm⟩
    · rename_i htable
      generalize hp : c.payload userId (selectRows s.table c.market) = payload at htable ⊢
      have hpid : payload.id = c.id := hp ▸ rfl
      have hpmarket : payload.market = c.market := hp ▸ rfl
      have hnew : payload.id ∉ rows.map Item.id := by
        rw [hpid, (hperm.map _).mem_iff]
        exact hid
      have hfree : ¬ Taken rows payload.market payload.symbol := by
        rintro ⟨r, hr, hsame⟩
        exact htable (any_ofMarket_iff.mpr ⟨r, hperm.subset hr, hsame⟩)
      have hspace : full rows payload.market = false := by
        rw [hpmarket, hF.full_perm hperm]
        exact hroom
      have hcreate := (hF.refines.create hrows hnew).2
      rw [sheet_create_room hfree hspace] at hcreate
      exact ⟨_, hcreate, hperm.append_right _⟩

theorem Agrees.update (hF : Copies F full R) (h : Agrees R s) {note : Option String}
    {sortIndex : Option ℤ} : Agrees R (updateSupabase F s itemId note sortIndex now).1 := by
  obtain ⟨rows, hrows, hperm⟩ := h
  unfold updateSupabase
  split
  · exact ⟨rows, hrows, hperm⟩
  · split
    · exact ⟨rows, hrows, hperm⟩
    · simp only
      split
      · exact ⟨rows, hrows, hperm⟩
      · rename_i r hfind
        rw [← findRow_perm (hF.refines.ids hrows) hperm] at hfind
        obtain ⟨hr, rfl⟩ := findRow_eq_some hfind
        exact ⟨_, hF.update hrows hr, hperm.map _⟩

theorem Agrees.delete (hF : Copies F full R) (h : Agrees R s) :
    Agrees R (deleteSupabase F s itemId).1 := by
  obtain ⟨rows, hrows, hperm⟩ := h
  unfold deleteSupabase
  split
  · rename_i hmem
    have hdelete : R ((sheet full).delete rows itemId).1 (F.backend.delete s.fallback itemId).1 :=
      (hF.refines.delete hrows).2
    have hown : itemId ∈ rows.map Item.id := (hperm.map _).mem_iff.mpr hmem
    have hsheet : (sheet full).delete rows itemId = (Rows.delete Item.id itemId rows, .ok true) :=
      if_pos hown
    rw [hsheet] at hdelete
    exact ⟨_, hdelete, hperm.filter _⟩
  · exact ⟨rows, hrows, hperm⟩

/-- A reorder that passes the checks names the rows of its market. -/
theorem order_of_checkOrder (hids : IdsDistinct s.table)
    (h : checkOrder ((listItems F.toFallback s market false).map Item.id) ids = .ok ()) :
    ids.Nodup ∧ ids.Perm ((ofMarket market s.table).map Item.id) := by
  obtain ⟨hnodup, hperm⟩ := checkOrder_ok_iff.mp h
  have hlisted : ((selectRows s.table market).map Item.id).Perm
      ((ofMarket market s.table).map Item.id) := (sortBy_perm _ _).map _
  have hdedup : ((listItems F.toFallback s market false).map Item.id).dedup =
      (selectRows s.table market).map Item.id :=
    List.dedup_eq_self.mpr (hlisted.nodup_iff.mpr (idsDistinct_ofMarket hids))
  rw [hdedup] at hperm
  exact ⟨hnodup, hperm.trans hlisted⟩

theorem Agrees.reorder (hF : Copies F full R) (h : Agrees R s) :
    Agrees R (reorderSupabase F.toFallback noFaults s market ids now).1 := by
  have hdistinct := h.distinct hF
  obtain ⟨rows, hrows, hperm⟩ := h
  cases horder : checkOrder ((listItems F.toFallback s market false).map Item.id) ids with
  | error e =>
    simp only [reorderSupabase, noFaults, horder]
    exact ⟨rows, hrows, hperm⟩
  | ok _ =>
    obtain ⟨hnodup, htable⟩ := order_of_checkOrder hdistinct horder
    have hown : ids.Perm ((ofMarket market rows).map Item.id) :=
      htable.trans ((hperm.symm.filter _).map _)
    have hkeys : ((orderUpdates ids now).map Prod.fst).Nodup := by rwa [orderUpdates_ids]
    have hloop : updateLoop none 0 [] (orderUpdates ids now) s.table =
        (s.table.map (applied (orderUpdates ids now)),
          .finished (picked (orderUpdates ids now) s.table)) :=
      updateLoop_finished hdistinct hkeys (orderUpdates_mem htable) fun _ _ => rfl
    have hsorted : sortBy Item.sortIndex (picked (orderUpdates ids now) s.table) =
        picked (orderUpdates ids now) rows := by
      rw [sortBy_of_pairwise ((pairwise_picked ranked_orderUpdates).imp fun h => h.le)]
      simp only [picked, findRow_perm hdistinct hperm.symm]
    obtain ⟨rows', hrows', hperm'⟩ : ∃ rows', R rows' (F.mirrorReorder s.fallback market
        (picked (orderUpdates ids now) rows)) ∧
        rows'.Perm (rows.map (applied (orderUpdates ids now))) := hF.reorder hrows hnodup hown
    simp only [reorderSupabase, noFaults, horder, hloop, hsorted]
    exact ⟨rows', hrows', hperm'.trans (hperm.map _)⟩

/-- A call that Supabase answers is mirrored. -/
theorem Agrees.call (hF : Copies F full R) (h : Agrees R s) (hfits : Fits full s c) :
    Agrees R (callSupabase F resolver userId s c).1 := by
  cases c with
  | create c => exact h.create hF hfits
  | update itemId note sortIndex now => exact h.update hF
  | delete itemId => exact h.delete hF
  | reorder market ids now => exact h.reorder hF
  | list market => exact h

/-- Calls that Supabase answers leave the mirror with the rows of the table. -/
theorem Agrees.calls (hF : Copies F full R) (h : Agrees R s) {calls : List Call}
    (hfits : Along (callSupabase F resolver userId) (Fits full) s calls) :
    Agrees R (final (callSupabase F resolver userId) s calls) :=
  final_of_along (fun _ _ hs hg => hs.call hF hg) h hfits

end

/-- The rows of a market have keys of their own. -/
def KeysDistinct (market : String) (table : List Item) : Prop :=
  ((ofMarket market table).map Item.key).Nodup

/-- An outage lists a market with the rows that Supabase has, and in its order when no two of them
have one sort index and one time. -/
structure SameListing {σ : Type*} (F : Fallback σ) (market : String) (s : Mirrored σ) : Prop where
  rows : (listItems F s market true).Perm (listItems F s market false)
  order : KeysDistinct market s.table → listItems F s market true = listItems F s market false

theorem Agrees.listed {s : Mirrored σ} (hF : Copies F full R) (h : Agrees R s) (market : String) :
    SameListing F.toFallback market s := by
  obtain ⟨rows, hrows, hperm⟩ := h
  have hlist : listItems F.toFallback s market true = sortBy Item.key (ofMarket market rows) :=
    hF.refines.list hrows
  have hmarket : (ofMarket market rows).Perm (ofMarket market s.table) := hperm.filter _
  constructor
  · rw [hlist]
    exact (sortBy_perm _ _).trans (hmarket.trans (sortBy_perm _ _).symm)
  · intro hkeys
    have hnodup : ((selectRows s.table market).map Item.key).Nodup :=
      ((sortBy_perm _ _).map _).nodup_iff.mpr hkeys
    have hincreasing : (selectRows s.table market).Pairwise fun a b => a.key < b.key := by
      refine (sortBy_pairwise Item.key (ofMarket market s.table)).imp₂ ?_
        (List.pairwise_map.mp hnodup)
      exact fun _ _ => lt_of_le_of_ne
    rw [hlist]
    exact sortBy_eq_of_pairwise_lt hincreasing (hmarket.trans (sortBy_perm _ _).symm)

instance {s : Mirrored σ} : DecidablePred (Fits full s) := fun c =>
  match c with
  | .create _ => inferInstanceAs (Decidable (_ ∧ _))
  | .update .. | .delete _ | .reorder .. | .list _ => isTrue trivial

/-- After any calls that Supabase answered, with a created row's id its own and room for the row in
the mirror, an outage lists every market as Supabase does. -/
theorem outage_listing (resolver : Option (String → Option SymbolMeta)) (userId market : String)
    (calls : List Call) :
    (Along (callSupabase memoryMirror resolver userId) (Fits fullUser) ⟨[], .empty⟩ calls →
      SameListing memoryFallback market
        (final (callSupabase memoryMirror resolver userId) ⟨[], .empty⟩ calls)) ∧
    (Along (callSupabase redisMirror resolver userId) (Fits fullMarket) ⟨[], .empty⟩ calls →
      SameListing redisFallback market
        (final (callSupabase redisMirror resolver userId) ⟨[], .empty⟩ calls)) := by
  constructor
  · intro hfits
    have hempty : Agrees Holds (⟨[], .empty⟩ : Mirrored MemoryData) := ⟨[], rfl, .refl _⟩
    exact (hempty.calls memory_copies hfits).listed memory_copies market
  · intro hfits
    have hempty : Agrees Files (⟨[], .empty⟩ : Mirrored RedisData) :=
      ⟨[], ⟨List.nodup_nil, fun _ => rfl⟩, .refl _⟩
    exact (hempty.calls redis_copies hfits).listed redis_copies market

/-- Two rows of a market are swapped, one is renumbered, and a row of another market is removed. -/
def mirroredCalls : List Call :=
  [.create (nthItem "futures" 0), .create (nthItem "spot" 0), .create (nthItem "futures" 1),
    .reorder "futures" ["futuresaa", "futuresa"] "2026-01-02T00:00:00+00:00",
    .update "futuresaa" none (some 7) "2026-01-03T00:00:00+00:00", .delete "spota"]

theorem outage_listing_mirroredCalls :
    SameListing memoryFallback "futures"
        (final (callSupabase memoryMirror none "user") ⟨[], .empty⟩ mirroredCalls) ∧
      SameListing redisFallback "futures"
        (final (callSupabase redisMirror none "user") ⟨[], .empty⟩ mirroredCalls) :=
  ⟨(outage_listing none "user" "futures" mirroredCalls).1 (by decide),
    (outage_listing none "user" "futures" mirroredCalls).2 (by decide)⟩

end Pyharmonics.Watchlist
