import Pyharmonics.WatchlistSheet

/-! The two fallback backends keep one list of rows, each with a limit check of its own. -/
namespace Pyharmonics.Watchlist

open Sorting

variable {rows : List Item} {market itemId : String} {payload r : Item} {u : Updates}
  {updates : List (String × Updates)} {ids : List String} {now : String}

/-- The limit over all markets. -/
def fullUser (rows : List Item) (_market : String) : Bool := maxItemsPerUser ≤ rows.length

/-- The limit for each market. -/
def fullMarket (rows : List Item) (market : String) : Bool :=
  maxItemsPerUser ≤ (ofMarket market rows).length

/-! The memory backend. -/

/-- The dictionary holds the rows, each under its id. -/
def Holds (rows : List Item) (data : MemoryData) : Prop :=
  data.entries = rows.map fun r => (r.id, r)

section

variable {data : MemoryData}

theorem Holds.keys (h : Holds rows data) : data.keys = rows.map Item.id := by
  rw [Dict.keys, h, List.map_map]
  rfl

theorem Holds.values (h : Holds rows data) : data.values = rows := by
  rw [Dict.values, h, List.map_map]
  exact List.map_id rows

theorem Holds.distinct (h : Holds rows data) : IdsDistinct rows := by
  rw [IdsDistinct, ← h.keys]
  exact data.nodup

theorem Holds.get? (h : Holds rows data) : data.get? itemId = findRow itemId rows := by
  rw [Dict.get?, h, List.find?_map, Option.map_map]
  exact Option.map_id'

theorem Holds.set (h : Holds rows data) (hr : r ∈ rows) :
    Holds (Rows.update Item.id r.id u.apply rows) (data.set r.id (u.apply r)) := by
  have hmem : r.id ∈ data.keys := h.keys ▸ List.mem_map_of_mem hr
  rw [Holds, Dict.entries_set_of_mem hmem, h, Rows.update, List.map_map, List.map_map]
  apply List.map_congr_left
  intro r' hr'
  by_cases hid : r'.id = r.id
  · obtain rfl := Rows.eq_of_key h.distinct hr' hr hid
    simp
  · simp [hid]

theorem Holds.append (h : Holds rows data) (hnew : payload.id ∉ rows.map Item.id) :
    Holds (rows ++ [payload]) (data.set payload.id payload) := by
  rw [Holds, Dict.entries_set_of_notMem (h.keys ▸ hnew), h, List.map_append]
  rfl

theorem Holds.erase (h : Holds rows data) :
    Holds (Rows.delete Item.id itemId rows) (data.erase itemId) := by
  have hentries : (data.erase itemId).entries = data.entries.filter fun e => e.1 ≠ itemId := rfl
  rw [Holds, hentries, h, List.filter_map, Rows.delete]
  rfl

theorem Holds.update (h : Holds rows data) :
    (updateMemory data itemId u).2 = ((sheet fullUser).update rows itemId u).2 ∧
      Holds ((sheet fullUser).update rows itemId u).1 (updateMemory data itemId u).1 := by
  rw [updateMemory, h.get?]
  simp only [sheet]
  cases hf : findRow itemId rows with
  | none => exact ⟨rfl, h⟩
  | some r =>
    obtain ⟨hr, rfl⟩ := findRow_eq_some hf
    exact ⟨rfl, h.set hr⟩

/-- A batch that names rows updates them all. -/
theorem Holds.updateEach (h : Holds rows data) (updates : List (String × Updates))
    (hnodup : (updates.map Prod.fst).Nodup)
    (hmem : ∀ i ∈ updates.map Prod.fst, i ∈ rows.map Item.id) :
    (Watchlist.updateEach data updates).2 = .ok (picked updates rows) ∧
      Holds (rows.map (applied updates)) (Watchlist.updateEach data updates).1 := by
  induction updates generalizing rows data with
  | nil =>
    refine ⟨rfl, ?_⟩
    have hsame : rows.map (applied []) = rows := List.map_id rows
    rwa [hsame]
  | cons p updates ih =>
    obtain ⟨hp, hrest⟩ := List.nodup_cons.mp hnodup
    obtain ⟨r, hr, hid⟩ := List.mem_map.mp (hmem p.1 List.mem_cons_self)
    have hfind : findRow p.1 rows = some r := hid ▸ findRow_of_mem h.distinct hr
    have hnext : Holds (Rows.update Item.id p.1 p.2.apply rows) (data.set p.1 (p.2.apply r)) :=
      hid ▸ h.set hr
    obtain ⟨hrows, hdata⟩ := ih hnext hrest (by
      intro i hi
      rw [Rows.keys_update (fun _ => apply_id)]
      exact hmem i (List.mem_cons_of_mem _ hi))
    rw [map_applied_update hp] at hdata
    rw [Watchlist.updateEach, updateMemory, h.get?, hfind]
    refine ⟨?_, hdata⟩
    simp only [hrows]
    rw [picked_update hp]
    simp [picked, hfind, Except.map]

theorem memory_refines : Refines memory fullUser Holds where
  ids h := h.distinct
  list h := by
    simp only [memory, listMemory, h.values]
    rfl
  create {rows s payload} h hnew := by
    have hdup : (rows.any fun r => r.market = payload.market ∧ r.symbol = payload.symbol) =
        (ofMarket payload.market rows).any fun r => r.symbol = payload.symbol := by
      rw [ofMarket, List.any_filter]
      simp
    simp only [memory, createMemory, sheet, h.values, hdup, fullUser, decide_eq_true_eq]
    split
    · exact ⟨rfl, h⟩
    · split
      · exact ⟨rfl, h⟩
      · exact ⟨rfl, h.append hnew⟩
  update h := h.update
  delete {rows s itemId} h := by
    simp only [memory, deleteMemory, sheet, h.keys]
    split
    · exact ⟨rfl, h.erase⟩
    · exact ⟨rfl, h⟩
  reorder {rows s market ids now} h hnodup hperm := by
    obtain ⟨hrows, hdata⟩ := h.updateEach (orderUpdates ids now)
      (by rwa [orderUpdates_ids]) (orderUpdates_mem hperm)
    refine ⟨?_, hdata⟩
    simp only [memory, reorderMemory, hrows, sheet, sortBy_reordered h.distinct hnodup hperm]
    rw [Except.map, sortBy_of_pairwise]
    exact (pairwise_picked ranked_orderUpdates).imp fun h => h.le
  create_atomic {s payload} := by
    simp only [memory, createMemory]
    grind [Atomic]
  update_atomic {s itemId u} := by
    simp only [memory, updateMemory]
    grind [Atomic]
  delete_atomic {s itemId} := by
    simp only [memory, deleteMemory]
    grind [Atomic]

end

/-! The Redis backend. -/

/-- The lists of the markets are those of the rows. -/
structure Files (rows : List Item) (data : RedisData) : Prop where
  distinct : IdsDistinct rows
  markets : ∀ market, data.getD market [] = ofMarket market rows

section

variable {data : RedisData} {rows' : List Item}

theorem Files.entry (h : Files rows data) {e : String × List Item} (he : e ∈ data.entries) :
    e.2 = ofMarket e.1 rows := by
  have hget : data.get? e.1 = some e.2 := Dict.get?_eq_some_iff.mpr he
  rw [← h.markets, Dict.getD, hget]
  rfl

theorem Files.exists_entry (h : Files rows data) (hr : r ∈ rows) :
    ∃ e ∈ data.entries, e.1 = r.market ∧ r ∈ e.2 := by
  have hmem : r ∈ data.getD r.market [] := by
    rw [h.markets, mem_ofMarket]
    exact ⟨hr, rfl⟩
  cases hget : data.get? r.market with
  | none => simp [Dict.getD, hget] at hmem
  | some found =>
    refine ⟨(r.market, found), Dict.get?_eq_some_iff.mp hget, rfl, ?_⟩
    simpa [Dict.getD, hget] using hmem

/-- Writing the new list of the one market that changed. -/
theorem Files.set (h : Files rows data) (hdistinct : IdsDistinct rows')
    (hothers : ∀ m, m ≠ market → ofMarket m rows' = ofMarket m rows) :
    Files rows' (data.set market (ofMarket market rows')) := by
  refine ⟨hdistinct, ?_⟩
  intro m
  rw [Dict.getD_set]
  by_cases hm : m = market
  · rw [if_pos hm, hm]
  · rw [if_neg hm, h.markets, hothers m hm]

theorem Files.locate_none (h : Files rows data) (hf : findRow itemId rows = none) :
    locate itemId data = none := by
  rw [locate, List.findSome?_eq_none_iff]
  intro e he
  rw [Option.map_eq_none_iff, h.entry he, findRow_eq_none]
  intro hmem
  obtain ⟨r, hr, hid⟩ := List.mem_map.mp hmem
  exact findRow_eq_none.mp hf (List.mem_map.mpr ⟨r, (mem_ofMarket.mp hr).1, hid⟩)

theorem Files.locate_some (h : Files rows data) (hr : r ∈ rows) :
    locate r.id data = some (r.market, ofMarket r.market rows, r) := by
  cases hl : locate r.id data with
  | none =>
    obtain ⟨e, he, -, hmem⟩ := h.exists_entry hr
    rw [locate, List.findSome?_eq_none_iff] at hl
    have hnone := hl e he
    rw [Option.map_eq_none_iff, findRow_eq_none] at hnone
    exact absurd (List.mem_map_of_mem hmem) hnone
  | some found =>
    obtain ⟨e, he, hfound⟩ := List.exists_of_findSome?_eq_some hl
    obtain ⟨r', hr', rfl⟩ := Option.map_eq_some_iff.mp hfound
    obtain ⟨hmem, hid⟩ := findRow_eq_some hr'
    rw [h.entry he] at hmem
    obtain ⟨hmem, hmarket⟩ := mem_ofMarket.mp hmem
    obtain rfl := Rows.eq_of_key h.distinct hmem hr hid
    rw [h.entry he, hmarket]

theorem Files.update (h : Files rows data) :
    (updateRedis data itemId u).2 = ((sheet fullMarket).update rows itemId u).2 ∧
      Files ((sheet fullMarket).update rows itemId u).1 (updateRedis data itemId u).1 := by
  rw [updateRedis]
  simp only [sheet]
  cases hf : findRow itemId rows with
  | none =>
    rw [h.locate_none hf]
    exact ⟨rfl, h⟩
  | some r =>
    obtain ⟨hr, rfl⟩ := findRow_eq_some hf
    have hlist : replaceFirst (u.apply r) (ofMarket r.market rows) =
        ofMarket r.market (Rows.update Item.id r.id u.apply rows) := by
      rw [ofMarket_update]
      exact replaceFirst_eq_update (idsDistinct_ofMarket h.distinct) (mem_ofMarket.mpr ⟨hr, rfl⟩)
    rw [h.locate_some hr]
    refine ⟨rfl, ?_⟩
    simp only [hlist]
    apply h.set (idsDistinct_update h.distinct)
    intro m hm
    rw [ofMarket_update, Rows.update_of_notMem (notMem_ofMarket h.distinct hr hm)]

theorem ofMarket_delete : ofMarket market (Rows.delete Item.id itemId rows) =
    (ofMarket market rows).filter fun r => r.id ≠ itemId := List.filter_comm _ _ rows

/-- A list that has the id loses a row with it. -/
theorem length_filter_ne_iff {l : List Item} :
    (l.filter fun r => r.id ≠ itemId).length ≠ l.length ↔ itemId ∈ l.map Item.id := by
  rw [ne_eq, List.length_filter_eq_length_iff, List.mem_map]
  simp

theorem Files.delete (h : Files rows data) :
    (deleteRedis data itemId).2 = ((sheet fullMarket).delete rows itemId).2 ∧
      Files ((sheet fullMarket).delete rows itemId).1 (deleteRedis data itemId).1 := by
  rw [deleteRedis]
  simp only [sheet]
  cases hf : data.entries.find? fun e =>
      (e.2.filter fun r => r.id ≠ itemId).length ≠ e.2.length with
  | none =>
    have hnot : itemId ∉ rows.map Item.id := by
      intro hmem
      obtain ⟨r, hr, hid⟩ := List.mem_map.mp hmem
      obtain ⟨e, he, -, hre⟩ := h.exists_entry hr
      refine List.find?_eq_none.mp hf e he ?_
      rw [decide_eq_true_iff, length_filter_ne_iff, ← hid]
      exact List.mem_map_of_mem hre
    rw [if_neg hnot]
    exact ⟨rfl, h⟩
  | some e =>
    have hlost := List.find?_some hf
    rw [decide_eq_true_iff, length_filter_ne_iff, h.entry (List.mem_of_find?_eq_some hf)] at hlost
    obtain ⟨r, hr, rfl⟩ := List.mem_map.mp hlost
    obtain ⟨hr, hmarket⟩ := mem_ofMarket.mp hr
    rw [if_pos (List.mem_map_of_mem hr)]
    refine ⟨rfl, ?_⟩
    simp only [h.entry (List.mem_of_find?_eq_some hf), ← ofMarket_delete]
    apply h.set (idsDistinct_delete h.distinct)
    intro m hm
    rw [ofMarket_delete, List.filter_eq_self]
    intro r' hr'
    rw [decide_eq_true_iff]
    intro hid
    exact notMem_ofMarket h.distinct hr (hmarket.symm ▸ hm) (hid ▸ List.mem_map_of_mem hr')

/-- With distinct ids, a batch that names rows of a list patches them all. -/
theorem patchRows_eq (hdistinct : IdsDistinct rows) (hnodup : (updates.map Prod.fst).Nodup)
    (hmem : ∀ i ∈ updates.map Prod.fst, i ∈ rows.map Item.id) :
    patchRows rows updates = .ok (rows.map (applied updates)) := by
  induction updates generalizing rows with
  | nil =>
    have hsame : rows.map (applied []) = rows := List.map_id rows
    rw [patchRows, hsame]
  | cons p updates ih =>
    obtain ⟨hp, hrest⟩ := List.nodup_cons.mp hnodup
    obtain ⟨r, hr, hid⟩ := List.mem_map.mp (hmem p.1 List.mem_cons_self)
    have hreverse : IdsDistinct rows.reverse := by
      rw [IdsDistinct, List.map_reverse, List.nodup_reverse]
      exact hdistinct
    have hfind : findRow p.1 rows.reverse = some r :=
      hid ▸ findRow_of_mem hreverse (List.mem_reverse.mpr hr)
    have hpatched : (replaceFirst (p.2.apply r) rows.reverse).reverse =
        Rows.update Item.id p.1 p.2.apply rows := by
      rw [replaceFirst_eq_update hreverse (List.mem_reverse.mpr hr), Rows.update, List.map_reverse,
        List.reverse_reverse, hid]
      rfl
    rw [patchRows, hfind]
    simp only [hpatched]
    rw [ih (idsDistinct_update hdistinct) hrest, map_applied_update hp]
    intro i hi
    rw [Rows.keys_update (fun _ => apply_id)]
    exact hmem i (List.mem_cons_of_mem _ hi)

theorem Files.reorder (h : Files rows data) (hnodup : ids.Nodup)
    (hperm : ids.Perm ((ofMarket market rows).map Item.id)) :
    (reorderRedis data market (orderUpdates ids now)).2 =
        ((sheet fullMarket).reorder rows market (orderUpdates ids now)).2 ∧
      Files ((sheet fullMarket).reorder rows market (orderUpdates ids now)).1
        (reorderRedis data market (orderUpdates ids now)).1 := by
  have hpatched : patchRows (ofMarket market rows) (orderUpdates ids now) =
      .ok (ofMarket market (rows.map (applied (orderUpdates ids now)))) := by
    rw [ofMarket_map (fun _ => applied_market)]
    apply patchRows_eq (idsDistinct_ofMarket h.distinct)
    · rwa [orderUpdates_ids]
    · rw [orderUpdates_ids]
      exact fun i hi => hperm.mem_iff.mp hi
  rw [reorderRedis, h.markets, hpatched]
  simp only [sheet]
  constructor
  · rw [sortBy_reordered h.distinct hnodup hperm]
    refine congrArg Except.ok (sortBy_eq_of_pairwise_lt (pairwise_picked ranked_orderUpdates) ?_)
    refine (picked_perm h.distinct ?_ ?_).symm
    · rwa [orderUpdates_ids]
    · rwa [orderUpdates_ids]
  · cases hget : data.get? market with
    | none =>
      -- A market without a list has no rows, and there was nothing to reorder.
      have hempty : ofMarket market rows = [] := by
        rw [← h.markets, Dict.getD, hget]
        rfl
      rw [hempty] at hperm
      have hnil : orderUpdates ids now = [] := by
        rw [List.perm_nil.mp hperm]
        rfl
      have hsame : rows.map (applied []) = rows := List.map_id rows
      rw [hnil, hsame]
      exact h
    | some found =>
      apply h.set (idsDistinct_map_applied h.distinct)
      intro m hm
      exact ofMarket_reordered h.distinct hperm hm

theorem redis_refines : Refines redis fullMarket Files where
  ids h := h.distinct
  list {rows s market} h := by
    simp only [redis, listRedis, h.markets]
    rfl
  create {rows s payload} h hnew := by
    simp only [redis, createRedis, sheet, h.markets, fullMarket, decide_eq_true_eq]
    split
    · exact ⟨rfl, h⟩
    · split
      · exact ⟨rfl, h⟩
      · refine ⟨rfl, ?_⟩
        have hlist : ofMarket payload.market rows ++ [payload] =
            ofMarket payload.market (rows ++ [payload]) := by
          simp [ofMarket]
        rw [hlist]
        apply h.set
        · exact idsDistinct_append h.distinct hnew
        · intro m hm
          simp [ofMarket, Ne.symm hm]
  update h := h.update
  delete h := h.delete
  reorder h := h.reorder
  create_atomic {s payload} := by
    simp only [redis, createRedis]
    grind [Atomic]
  update_atomic {s itemId u} := by
    simp only [redis, updateRedis]
    grind [Atomic]
  delete_atomic {s itemId} := by
    simp only [redis, deleteRedis]
    grind [Atomic]

end

/-! Rows to run the backends on. -/

def futuresMeta (symbol : String) : SymbolMeta where
  symbol := symbol
  baseAsset := "BTC"
  quoteAsset := "USDT"
  contractType := "PERPETUAL"
  underlyingType := none
  underlyingSubTypes := []
  pricePrecision := 2
  quantityPrecision := 3
  isTradfi := false

/-- The n-th row of a user, with a name of its own. -/
def nthItem (market : String) (n : ℕ) : NewItem where
  market := market
  symbolMeta := futuresMeta (String.ofList (List.replicate (n + 1) 'a'))
  note := ""
  id := market ++ String.ofList (List.replicate (n + 1) 'a')
  now := "2026-01-01T00:00:00+00:00"

end Pyharmonics.Watchlist
