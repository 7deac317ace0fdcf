import Pyharmonics.Library.Machines
import Pyharmonics.WatchlistBackends

/-! What the store keeps over any sequence of calls, on either fallback backend. -/
namespace Pyharmonics.Watchlist

open Machines Sorting

variable {rows rows' : List Item} {market itemId : String} {payload r : Item} {u : Updates}
  {updates : List (String × Updates)} {ids : List String} {now : String}
  {full : List Item → String → Bool} {resolver : Option (String → Option SymbolMeta)}
  {userId : String} {c : Call}

/-- Distinct ids, distinct symbols in each market, and no market above the limit. -/
structure Tidy (rows : List Item) : Prop where
  ids : IdsDistinct rows
  symbols : (rows.map fun r => (r.market, r.symbol)).Nodup
  limit : ∀ market, (ofMarket market rows).length ≤ maxItemsPerUser

/-- A limit check that lets a row in has room for it in its market. -/
def Limits (full : List Item → String → Bool) : Prop :=
  ∀ rows market, full rows market = false → (ofMarket market rows).length < maxItemsPerUser

theorem limits_fullUser : Limits fullUser := by
  intro rows market h
  have hlt : ¬ maxItemsPerUser ≤ rows.length := of_decide_eq_false h
  have hle : (ofMarket market rows).length ≤ rows.length := List.length_filter_le _ _
  omega

theorem limits_fullMarket : Limits fullMarket := by
  intro rows market h
  have hlt : ¬ maxItemsPerUser ≤ (ofMarket market rows).length := of_decide_eq_false h
  omega

theorem Tidy.perm (h : Tidy rows) (hp : rows'.Perm rows) : Tidy rows' where
  ids := (hp.map _).nodup_iff.mpr h.ids
  symbols := (hp.map _).nodup_iff.mpr h.symbols
  limit market := (hp.filter _).length_eq.trans_le (h.limit market)

theorem Tidy.sublist (h : Tidy rows) (hs : rows'.Sublist rows) : Tidy rows' where
  ids := h.ids.sublist (hs.map _)
  symbols := h.symbols.sublist (hs.map _)
  limit market := (hs.filter _).length_le.trans (h.limit market)

theorem Tidy.map (h : Tidy rows) {f : Item → Item} (hid : ∀ r, (f r).id = r.id)
    (hmarket : ∀ r, (f r).market = r.market) (hsymbol : ∀ r, (f r).symbol = r.symbol) :
    Tidy (rows.map f) where
  ids := by
    have hids : (rows.map f).map Item.id = rows.map Item.id := by
      simp [List.map_map, Function.comp_def, hid]
    rw [IdsDistinct, hids]
    exact h.ids
  symbols := by
    have hsymbols : (rows.map f).map (fun r => (r.market, r.symbol)) =
        rows.map fun r => (r.market, r.symbol) := by
      simp [List.map_map, Function.comp_def, hmarket, hsymbol]
    rw [hsymbols]
    exact h.symbols
  limit market := by
    rw [ofMarket_map hmarket, List.length_map]
    exact h.limit market

theorem Tidy.append (h : Tidy rows) (hid : payload.id ∉ rows.map Item.id)
    (hsymbol : ¬ Taken rows payload.market payload.symbol)
    (hroom : (ofMarket payload.market rows).length < maxItemsPerUser) :
    Tidy (rows ++ [payload]) where
  ids := idsDistinct_append h.ids hid
  symbols := by
    refine Rows.nodup_keys_concat.mpr ⟨?_, h.symbols⟩
    intro hmem
    obtain ⟨r, hr, heq⟩ := List.mem_map.mp hmem
    exact hsymbol ⟨r, hr, (Prod.mk.inj heq).1, (Prod.mk.inj heq).2⟩
  limit market := by
    have hle := h.limit market
    by_cases hm : payload.market = market
    · subst hm
      simpa [ofMarket] using hroom
    · simpa [ofMarket, hm] using hle

theorem Tidy.call (hfull : Limits full) (h : Tidy rows) (hc : FreshCall rows c) :
    Tidy (call (sheet full) resolver userId rows c).1 := by
  cases c with
  | create c =>
    simp only [Watchlist.call, answered, createItem]
    split
    · exact h
    · generalize hp : c.payload userId ((sheet full).list rows c.market) = payload
      have hid : payload.id ∉ rows.map Item.id := by
        rw [← hp]
        exact hc
      by_cases htaken : Taken rows payload.market payload.symbol
      · rwa [sheet_create_duplicate htaken]
      · cases hf : full rows payload.market with
        | true => rwa [sheet_create_full htaken hf]
        | false =>
          rw [sheet_create_room htaken hf]
          exact h.append hid htaken (hfull _ _ hf)
  | update itemId note sortIndex now =>
    simp only [Watchlist.call, answered, updateItem]
    split
    · exact h
    · split
      · exact h
      · simp only [sheet]
        split
        · exact h
        · apply h.map
          · intro r
            split <;> rfl
          · intro r
            split <;> rfl
          · intro r
            split <;> rfl
  | delete itemId =>
    simp only [Watchlist.call, answered, deleteItem, sheet]
    split
    · exact h.sublist List.filter_sublist
    · exact h
  | reorder market ids now =>
    simp only [Watchlist.call, answered, Watchlist.reorder]
    split
    · exact h
    · exact h.map (fun _ => applied_id) (fun _ => applied_market) (fun _ => applied_symbol)
  | list market => exact h

/-! The place of a new row. -/

theorem lt_nextSortIndex {existing : List Item} (hr : r ∈ existing) :
    r.sortIndex < nextSortIndex existing := by
  cases hmax : (existing.map Item.sortIndex).max? with
  | none =>
    rw [List.max?_eq_none_iff, List.map_eq_nil_iff] at hmax
    simp [hmax] at hr
  | some greatest =>
    have hle : r.sortIndex ≤ greatest :=
      (List.max?_eq_some_iff.mp hmax).2 _ (List.mem_map_of_mem hr)
    simp only [nextSortIndex, hmax]
    omega

/-- A row with the next sort index is listed last. -/
theorem list_append (c : NewItem) (hp : payload = c.payload userId ((sheet full).list rows c.market)) :
    (sheet full).list (rows ++ [payload]) c.market = (sheet full).list rows c.market ++ [payload] := by
  have hmarket : payload.market = c.market := by rw [hp, NewItem.payload]
  have hnew : ofMarket c.market (rows ++ [payload]) = ofMarket c.market rows ++ [payload] := by
    simp [ofMarket, hmarket]
  simp only [sheet, hnew]
  apply sortBy_concat
  intro r hr
  have hlt : r.sortIndex < payload.sortIndex := by
    rw [hp]
    exact lt_nextSortIndex (mem_sortBy.mpr hr)
  exact (Prod.Lex.toLex_lt_toLex.mpr (.inl hlt)).le

theorem sheet_created {c : NewItem}
    (h : (call (sheet full) resolver userId rows (.create c)).2 = .ok (.item r)) :
    ((sheet full).list (call (sheet full) resolver userId rows (.create c)).1 c.market).getLast? =
      some r := by
  simp only [call, answered, createItem] at h ⊢
  split at h
  · cases h
  · generalize hp : c.payload userId ((sheet full).list rows c.market) = payload at h ⊢
    by_cases htaken : Taken rows payload.market payload.symbol
    · rw [sheet_create_duplicate htaken] at h
      cases h
    · cases hf : full rows payload.market with
      | true =>
        rw [sheet_create_full htaken hf] at h
        cases h
      | false =>
        rw [sheet_create_room htaken hf] at h ⊢
        cases h
        rw [list_append c hp.symm, List.getLast?_concat]

/-! The order after a reorder. -/

theorem places_orderUpdates : (orderUpdates ids now).map (fun p => p.2.sortIndex.getD 0) =
    (List.range ids.length).map Int.ofNat := by
  have hplaces : ids.zipIdx.map Prod.snd = List.range ids.length := by
    rw [List.zipIdx_map_snd, List.range_eq_range']
  rw [← hplaces, orderUpdates, List.map_map, List.map_map]
  rfl

/-- A reorder writes the sort index and the time of a row and nothing else. -/
theorem applied_orderUpdates : applied (orderUpdates ids now) r =
    { r with
      sortIndex := (applied (orderUpdates ids now) r).sortIndex
      updatedAt := (applied (orderUpdates ids now) r).updatedAt } := by
  cases hu : (orderUpdates ids now).lookup r.id with
  | none => simp [applied, hu]
  | some u =>
    have hnote : u.note = none := by
      obtain ⟨l₁, l₂, hl, -⟩ := List.lookup_eq_some_iff.mp hu
      have hmem : (r.id, u) ∈ orderUpdates ids now := by
        rw [hl]
        exact List.mem_append_right _ List.mem_cons_self
      obtain ⟨q, -, hq⟩ := List.mem_map.mp hmem
      rw [← (Prod.mk.inj hq).2]
    simp [applied, hu, Updates.apply, hnote]

/-- The rows after a reorder of a market, and how the market is listed then. -/
structure Reordered (market : String) (ids : List String) (listed before after : List Item) :
    Prop where
  order : listed.map Item.id = ids
  places : listed.map Item.sortIndex = (List.range ids.length).map Int.ofNat
  rows : ∃ f : Item → Item, after.Perm (before.map f) ∧
    ∀ r ∈ before,
      f r = { r with sortIndex := (f r).sortIndex, updatedAt := (f r).updatedAt } ∧
      (r.market ≠ market → f r = r)

theorem sheet_reordered {answer : List Item} (hids : IdsDistinct rows)
    (h : (call (sheet full) resolver userId rows (.reorder market ids now)).2 = .ok (.items answer)) :
    answer = (sheet full).list
        (call (sheet full) resolver userId rows (.reorder market ids now)).1 market ∧
    Reordered market ids answer rows
      (call (sheet full) resolver userId rows (.reorder market ids now)).1 ∧
    ∀ m, m ≠ market →
      ofMarket m (call (sheet full) resolver userId rows (.reorder market ids now)).1 =
        ofMarket m rows := by
  simp only [call, answered, reorder] at h ⊢
  split at h
  · cases h
  · next hcheck =>
    obtain ⟨hnodup, hperm⟩ := perm_of_checkOrder hids hcheck
    have hmem : ∀ i ∈ (orderUpdates ids now).map Prod.fst, i ∈ rows.map Item.id :=
      orderUpdates_mem hperm
    cases h
    simp only [sheet, sortBy_reordered hids hnodup hperm]
    refine ⟨trivial, ⟨?_, ?_, _, List.Perm.refl _, ?_⟩, ?_⟩
    · exact picked_orderUpdates_ids hmem
    · rw [picked_map hmem (f := fun p => p.2.sortIndex.getD 0), places_orderUpdates]
      intro p hp r _
      obtain ⟨q, -, rfl⟩ := List.mem_map.mp hp
      rfl
    · exact fun r hr => ⟨applied_orderUpdates, applied_orderUpdates_of_ne hids hperm hr⟩
    · intro m hm
      exact ofMarket_reordered hids hperm hm

/-! Both backends. -/

section

variable {σ : Type*} {B : Backend σ} {R : List Item → σ → Prop} {stored : σ → List Item} {s start : σ}
  {calls : List Call}

/-- What holds of the rows of a state, and of the next call from it. -/
structure Kept (B : Backend σ) (stored : σ → List Item)
    (resolver : Option (String → Option SymbolMeta)) (userId : String) (s : σ) : Prop where
  tidy : Tidy (stored s)
  created : ∀ c r, c.id ∉ (stored s).map Item.id →
    (call B resolver userId s (.create c)).2 = .ok (.item r) →
    (B.list (call B resolver userId s (.create c)).1 c.market).getLast? = some r
  reordered : ∀ market ids now answer,
    (call B resolver userId s (.reorder market ids now)).2 = .ok (.items answer) →
    answer = B.list (call B resolver userId s (.reorder market ids now)).1 market ∧
    Reordered market ids answer (stored s)
      (stored (call B resolver userId s (.reorder market ids now)).1) ∧
    ∀ m, m ≠ market →
      B.list (call B resolver userId s (.reorder market ids now)).1 m = B.list s m
  raised : ∀ c, Atomic s (call B resolver userId s c)

theorem Refines.kept_of (hB : Refines B full R)
    (hstored : ∀ rows s, R rows s → (stored s).Perm rows) (h : R rows s) (ht : Tidy rows) :
    Kept B stored resolver userId s where
  tidy := ht.perm (hstored _ _ h)
  created c r hnew hcreated := by
    rw [((hstored _ _ h).map Item.id).mem_iff] at hnew
    obtain ⟨hanswer, hnext⟩ := hB.call resolver userId h (c := .create c) hnew
    rw [hB.list hnext]
    exact sheet_created (hanswer ▸ hcreated)
  reordered market ids now answer hreordered := by
    obtain ⟨hanswer, hnext⟩ := hB.call resolver userId h (c := .reorder market ids now) trivial
    obtain ⟨hlist, ⟨horder, hplaces, f, hf, hrows⟩, hothers⟩ :=
      sheet_reordered ht.ids (hanswer ▸ hreordered)
    refine ⟨?_, ⟨horder, hplaces, f, ?_, ?_⟩, ?_⟩
    · rw [hB.list hnext]
      exact hlist
    · exact (hstored _ _ hnext).trans (hf.trans ((hstored _ _ h).map f).symm)
    · intro r hr
      exact hrows r ((hstored _ _ h).mem_iff.mp hr)
    · intro m hm
      rw [hB.list hnext, hB.list h]
      exact congrArg (sortBy Item.key) (hothers m hm)
  raised _ := hB.atomic resolver userId h

theorem Refines.kept (hB : Refines B full R) (hfull : Limits full)
    (hstored : ∀ rows s, R rows s → (stored s).Perm rows) (hstart : R [] start)
    (hfresh : Along (Watchlist.call B resolver userId) (fun s => FreshCall (stored s)) start calls) :
    Kept B stored resolver userId (final (Watchlist.call B resolver userId) start calls) := by
  have hrun : ∃ rows, R rows (final (Watchlist.call B resolver userId) start calls) ∧ Tidy rows := by
    refine final_of_along (I := fun s => ∃ rows, R rows s ∧ Tidy rows) ?_ ?_ hfresh
    · rintro s c ⟨rows, h, ht⟩ hc
      have hnew : FreshCall rows c := by
        cases c with
        | create c => exact fun hmem => hc (((hstored _ _ h).map Item.id).mem_iff.mpr hmem)
        | _ => trivial
      exact ⟨_, (hB.call resolver userId h hnew).2, ht.call hfull hnew⟩
    · exact ⟨[], hstart, List.nodup_nil, List.nodup_nil, fun _ => Nat.zero_le _⟩
  obtain ⟨rows, h, ht⟩ := hrun
  exact hB.kept_of hstored h ht

end

/-- The rows of all markets. -/
def redisRows (data : RedisData) : List Item := data.values.flatten

theorem redisRows_perm {data : RedisData} (h : Files rows data) : (redisRows data).Perm rows := by
  have hnodup : (redisRows data).Nodup := by
    rw [redisRows, List.nodup_flatten]
    constructor
    · intro l hl
      obtain ⟨e, he, rfl⟩ := List.mem_map.mp hl
      rw [h.entry he]
      exact (idsDistinct_ofMarket h.distinct).of_map
    · rw [Dict.values, List.pairwise_map]
      have hkeys : data.entries.Pairwise fun e e' => e.1 ≠ e'.1 := List.pairwise_map.mp data.nodup
      refine hkeys.imp_of_mem ?_
      intro e e' he he' hne r hr hr'
      rw [h.entry he, mem_ofMarket] at hr
      rw [h.entry he', mem_ofMarket] at hr'
      exact hne (hr.2.symm.trans hr'.2)
  rw [List.perm_ext_iff_of_nodup hnodup h.distinct.of_map]
  intro r
  constructor
  · intro hr
    obtain ⟨l, hl, hr⟩ := List.mem_flatten.mp hr
    obtain ⟨e, he, rfl⟩ := List.mem_map.mp hl
    rw [h.entry he] at hr
    exact (mem_ofMarket.mp hr).1
  · intro hr
    obtain ⟨e, he, -, hmem⟩ := h.exists_entry hr
    exact List.mem_flatten.mpr ⟨e.2, List.mem_map_of_mem he, hmem⟩

theorem memoryRows_perm {data : MemoryData} (h : Holds rows data) : data.values.Perm rows :=
  h.values ▸ List.Perm.refl _

/-- After any calls whose created rows get ids of their own, on either backend: ids and symbols are
distinct and no market is above the limit; a created row is listed last; a reorder gives exactly the
requested order and leaves everything else; and a call that raises changes nothing. -/
theorem kept_by_both :
    (∀ calls, Along (call redis resolver userId) (fun s => FreshCall (redisRows s)) .empty calls →
      Kept redis redisRows resolver userId (final (call redis resolver userId) .empty calls)) ∧
    ∀ calls, Along (call memory resolver userId) (fun s => FreshCall s.values) .empty calls →
      Kept memory Dict.values resolver userId (final (call memory resolver userId) .empty calls) := by
  constructor
  · intro calls hfresh
    exact redis_refines.kept limits_fullMarket (fun _ _ => redisRows_perm)
      ⟨List.nodup_nil, fun _ => rfl⟩ hfresh
  · intro calls hfresh
    exact memory_refines.kept limits_fullUser (fun _ _ => memoryRows_perm) rfl hfresh

/-- Two rows, swapped, and one of them moved back. -/
def swappedRows : List Call :=
  [.create (nthItem "futures" 0), .create (nthItem "futures" 1),
    .reorder "futures" ["futuresaa", "futuresa"] "2026-01-02T00:00:00+00:00",
    .update "futuresaa" none (some 7) "2026-01-03T00:00:00+00:00"]

theorem kept_swappedRows :
    Kept redis redisRows none "user" (final (call redis none "user") .empty swappedRows) ∧
    Kept memory Dict.values none "user" (final (call memory none "user") .empty swappedRows) :=
  ⟨kept_by_both.1 swappedRows (by decide), kept_by_both.2 swappedRows (by decide)⟩

end Pyharmonics.Watchlist
