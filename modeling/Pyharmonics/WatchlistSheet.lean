import Pyharmonics.Library.Rows
import Pyharmonics.Watchlist

/-! A user's rows as one list, and how the fallback backends keep it. -/
namespace Pyharmonics.Watchlist

open Sorting

variable {rows : List Item} {market itemId : String} {payload r : Item} {u : Updates}
  {updates : List (String × Updates)} {ids : List String} {now : String}

/-- The rows of one market, in the order they were created. -/
def ofMarket (market : String) (rows : List Item) : List Item :=
  rows.filter fun r => r.market = market

/-- What a batch of updates makes of a row. -/
def applied (updates : List (String × Updates)) (r : Item) : Item :=
  (updates.lookup r.id).elim r fun u => u.apply r

/-- The backend that keeps the rows of all markets in one list; `full` is its limit check. -/
def sheet (full : List Item → String → Bool) : Backend (List Item) where
  list rows market := sortBy Item.key (ofMarket market rows)
  create rows payload :=
    if (ofMarket payload.market rows).any fun r => r.symbol = payload.symbol then
      (rows, .error (.duplicate payload.symbol payload.market))
    else if full rows payload.market then (rows, .error (.limitReached maxItemsPerUser))
    else (rows ++ [payload], .ok payload)
  update rows itemId u :=
    match findRow itemId rows with
    | none => (rows, .error (.notFound (.item itemId)))
    | some r => (Rows.update Item.id itemId u.apply rows, .ok (u.apply r))
  delete rows itemId :=
    if itemId ∈ rows.map Item.id then (Rows.delete Item.id itemId rows, .ok true)
    else (rows, .error (.notFound (.item itemId)))
  reorder rows market updates :=
    (rows.map (applied updates), .ok (sortBy Item.key (ofMarket market (rows.map (applied updates)))))

/-- No two rows have one id. -/
def IdsDistinct (rows : List Item) : Prop := (rows.map Item.id).Nodup

/-- A failed operation leaves the state as it was. -/
def Atomic {σ α : Type*} (s : σ) (r : σ × Except StoreError α) : Prop :=
  ∀ e, r.2 = .error e → r.1 = s

/-- The backend does what the sheet does, on states that stand for its rows. -/
structure Refines {σ : Type*} (B : Backend σ) (full : List Item → String → Bool)
    (R : List Item → σ → Prop) : Prop where
  ids : ∀ {rows s}, R rows s → IdsDistinct rows
  list : ∀ {rows s market}, R rows s → B.list s market = (sheet full).list rows market
  create : ∀ {rows s payload}, R rows s → payload.id ∉ rows.map Item.id →
    (B.create s payload).2 = ((sheet full).create rows payload).2 ∧
      R ((sheet full).create rows payload).1 (B.create s payload).1
  update : ∀ {rows s itemId u}, R rows s →
    (B.update s itemId u).2 = ((sheet full).update rows itemId u).2 ∧
      R ((sheet full).update rows itemId u).1 (B.update s itemId u).1
  delete : ∀ {rows s itemId}, R rows s →
    (B.delete s itemId).2 = ((sheet full).delete rows itemId).2 ∧
      R ((sheet full).delete rows itemId).1 (B.delete s itemId).1
  reorder : ∀ {rows s market ids now}, R rows s → ids.Nodup →
    ids.Perm ((ofMarket market rows).map Item.id) →
    (B.reorder s market (orderUpdates ids now)).2 =
        ((sheet full).reorder rows market (orderUpdates ids now)).2 ∧
      R ((sheet full).reorder rows market (orderUpdates ids now)).1
        (B.reorder s market (orderUpdates ids now)).1
  create_atomic : ∀ {s payload}, Atomic s (B.create s payload)
  update_atomic : ∀ {s itemId u}, Atomic s (B.update s itemId u)
  delete_atomic : ∀ {s itemId}, Atomic s (B.delete s itemId)

@[simp] theorem apply_id : (u.apply r).id = r.id := rfl

@[simp] theorem applied_id : (applied updates r).id = r.id := by
  rw [applied]
  cases updates.lookup r.id <;> rfl

@[simp] theorem applied_market : (applied updates r).market = r.market := by
  rw [applied]
  cases updates.lookup r.id <;> rfl

@[simp] theorem applied_symbol : (applied updates r).symbol = r.symbol := by
  rw [applied]
  cases updates.lookup r.id <;> rfl

theorem applied_cons_of_eq (h : r.id = itemId) : applied ((itemId, u) :: updates) r = u.apply r := by
  subst h
  simp [applied]

theorem applied_cons_of_ne (h : r.id ≠ itemId) :
    applied ((itemId, u) :: updates) r = applied updates r := by
  have hne : (r.id == itemId) = false := by simpa using h
  rw [applied, List.lookup_cons, hne]
  rfl

theorem applied_of_notMem (h : r.id ∉ updates.map Prod.fst) : applied updates r = r := by
  induction updates with
  | nil => rfl
  | cons p updates ih =>
    rw [List.map_cons, List.mem_cons, not_or] at h
    exact (applied_cons_of_ne h.1).trans (ih h.2)

/-- The first update done, the others follow. -/
theorem map_applied_update (h : itemId ∉ updates.map Prod.fst) :
    (Rows.update Item.id itemId u.apply rows).map (applied updates) =
      rows.map (applied ((itemId, u) :: updates)) := by
  rw [Rows.update, List.map_map]
  apply List.map_congr_left
  intro r _
  by_cases hid : r.id = itemId
  · rw [Function.comp_apply, if_pos hid, applied_cons_of_eq hid]
    exact applied_of_notMem (by simpa [hid] using h)
  · rw [Function.comp_apply, if_neg hid, applied_cons_of_ne hid]

theorem findRow_eq_some (h : findRow itemId rows = some r) : r ∈ rows ∧ r.id = itemId :=
  ⟨List.mem_of_find?_eq_some h, by simpa using List.find?_some h⟩

theorem findRow_of_mem (hids : IdsDistinct rows) (hr : r ∈ rows) : findRow r.id rows = some r := by
  cases h : findRow r.id rows with
  | none =>
    rw [findRow, List.find?_eq_none] at h
    exact absurd (h r hr) (by simp)
  | some r' =>
    obtain ⟨hr', hid⟩ := findRow_eq_some h
    rw [Rows.eq_of_key hids hr' hr hid]

theorem findRow_eq_none : findRow itemId rows = none ↔ itemId ∉ rows.map Item.id := by
  simp [findRow, List.find?_eq_none]

/-- With distinct ids, putting a row in its first place updates it. -/
theorem replaceFirst_eq_update (hids : IdsDistinct rows) (hr : r ∈ rows) :
    replaceFirst (u.apply r) rows = Rows.update Item.id r.id u.apply rows := by
  induction rows with
  | nil => rfl
  | cons r' rows ih =>
    obtain ⟨hnew, hids'⟩ := List.nodup_cons.mp hids
    rcases List.mem_cons.mp hr with rfl | hmem
    · have hrest : Rows.update Item.id r.id u.apply rows = rows := Rows.update_of_notMem hnew
      rw [replaceFirst, apply_id, if_pos rfl, Rows.update, List.map_cons, if_pos rfl]
      exact congrArg _ hrest.symm
    · have hne : r'.id ≠ r.id := fun he => hnew (he ▸ List.mem_map_of_mem hmem)
      rw [replaceFirst, apply_id, if_neg hne, ih hids' hmem, Rows.update, Rows.update, List.map_cons,
        if_neg hne]

theorem idsDistinct_update (h : IdsDistinct rows) :
    IdsDistinct (Rows.update Item.id itemId u.apply rows) := by
  rw [IdsDistinct, Rows.keys_update (fun _ => apply_id)]
  exact h

theorem idsDistinct_append (h : IdsDistinct rows) (hnew : payload.id ∉ rows.map Item.id) :
    IdsDistinct (rows ++ [payload]) := Rows.nodup_keys_concat.mpr ⟨hnew, h⟩

theorem idsDistinct_delete (h : IdsDistinct rows) : IdsDistinct (Rows.delete Item.id itemId rows) :=
  h.sublist (List.filter_sublist.map _)

theorem idsDistinct_map_applied (h : IdsDistinct rows) : IdsDistinct (rows.map (applied updates)) := by
  have hids : (rows.map (applied updates)).map Item.id = rows.map Item.id := by
    simp [List.map_map, Function.comp_def]
  rw [IdsDistinct, hids]
  exact h

theorem idsDistinct_ofMarket (h : IdsDistinct rows) : IdsDistinct (ofMarket market rows) :=
  h.sublist (List.filter_sublist.map _)

theorem ofMarket_map {f : Item → Item} (hf : ∀ r, (f r).market = r.market) :
    ofMarket market (rows.map f) = (ofMarket market rows).map f := by
  simp [ofMarket, List.filter_map, Function.comp_def, hf]

theorem ofMarket_update : ofMarket market (Rows.update Item.id itemId u.apply rows) =
    Rows.update Item.id itemId u.apply (ofMarket market rows) := by
  apply ofMarket_map
  intro r
  split <;> rfl

theorem mem_ofMarket : r ∈ ofMarket market rows ↔ r ∈ rows ∧ r.market = market := by
  simp [ofMarket]

/-- A row is not in the list of another market. -/
theorem notMem_ofMarket (hdistinct : IdsDistinct rows) (hr : r ∈ rows) (hm : market ≠ r.market) :
    r.id ∉ (ofMarket market rows).map Item.id := by
  intro hmem
  obtain ⟨r', hr', hid⟩ := List.mem_map.mp hmem
  obtain ⟨hr', hmarket⟩ := mem_ofMarket.mp hr'
  rw [Rows.eq_of_key hdistinct hr' hr hid] at hmarket
  exact hm hmarket.symm

/-- The market has a row for the symbol. -/
def Taken (rows : List Item) (market symbol : String) : Prop :=
  ∃ r ∈ rows, r.market = market ∧ r.symbol = symbol

section

variable {full : List Item → String → Bool}

theorem any_ofMarket_iff {symbol : String} :
    ((ofMarket market rows).any fun r => r.symbol = symbol) = true ↔ Taken rows market symbol := by
  simp [mem_ofMarket, Taken, and_assoc]

theorem sheet_create_duplicate (h : Taken rows payload.market payload.symbol) :
    (sheet full).create rows payload =
      (rows, .error (.duplicate payload.symbol payload.market)) :=
  if_pos (any_ofMarket_iff.mpr h)

theorem sheet_create_full (h : ¬ Taken rows payload.market payload.symbol)
    (hfull : full rows payload.market = true) :
    (sheet full).create rows payload = (rows, .error (.limitReached maxItemsPerUser)) := by
  simp only [sheet]
  rw [if_neg (fun ht => h (any_ofMarket_iff.mp ht)), if_pos hfull]

theorem sheet_create_room (h : ¬ Taken rows payload.market payload.symbol)
    (hroom : full rows payload.market = false) :
    (sheet full).create rows payload = (rows ++ [payload], .ok payload) := by
  simp only [sheet]
  rw [if_neg (fun ht => h (any_ofMarket_iff.mp ht)), if_neg (by simp [hroom])]

end

/-! A reorder numbers the rows of a market. -/

/-- The rows named by a batch of updates, updated, in the order of the batch. -/
def picked (updates : List (String × Updates)) (rows : List Item) : List Item :=
  updates.filterMap fun p => (findRow p.1 rows).map p.2.apply

theorem findRow_update_of_ne {i : String} (h : i ≠ itemId) :
    findRow i (Rows.update Item.id itemId u.apply rows) = findRow i rows := by
  induction rows with
  | nil => rfl
  | cons r rows ih =>
    simp only [findRow, Rows.update, List.map_cons, List.find?_cons] at ih ⊢
    by_cases hid : r.id = itemId
    · have hne : r.id ≠ i := fun he => h (he ▸ hid)
      simp [hid, ih, hid ▸ hne]
    · simp [hid, ih]

theorem picked_update (h : itemId ∉ updates.map Prod.fst) :
    picked updates (Rows.update Item.id itemId u.apply rows) = picked updates rows := by
  apply List.filterMap_congr
  intro p hp
  rw [findRow_update_of_ne]
  rintro rfl
  exact h (List.mem_map_of_mem hp)

/-- Each update gives a later place than the one before. -/
def Ranked (updates : List (String × Updates)) : Prop :=
  updates.Pairwise fun p q => ∃ i ∈ p.2.sortIndex, ∃ j ∈ q.2.sortIndex, i < j

theorem orderUpdates_ids : (orderUpdates ids now).map Prod.fst = ids := by
  simp [orderUpdates, Function.comp_def, List.zipIdx_map_fst]

theorem ranked_orderUpdates : Ranked (orderUpdates ids now) := by
  have hplaces : ids.zipIdx.Pairwise fun p q => p.2 < q.2 := by
    rw [← List.pairwise_map (f := Prod.snd) (R := (· < ·)), List.zipIdx_map_snd]
    exact List.pairwise_lt_range'
  rw [Ranked, orderUpdates, List.pairwise_map]
  refine hplaces.imp ?_
  intro p q h
  exact ⟨_, rfl, _, rfl, Int.ofNat_lt.mpr h⟩

theorem pairwise_picked (h : Ranked updates) :
    (picked updates rows).Pairwise fun a b => a.sortIndex < b.sortIndex := by
  rw [picked, List.pairwise_filterMap]
  refine h.imp ?_
  rintro p q ⟨i, hi, j, hj, hij⟩ a ha b hb
  obtain ⟨r, -, rfl⟩ := Option.map_eq_some_iff.mp ha
  obtain ⟨r', -, rfl⟩ := Option.map_eq_some_iff.mp hb
  rw [Option.mem_def] at hi hj
  simpa [Updates.apply, hi, hj] using hij

theorem applied_of_mem {p : String × Updates} (hnodup : (updates.map Prod.fst).Nodup)
    (hp : p ∈ updates) (hid : r.id = p.1) : applied updates r = p.2.apply r := by
  induction updates with
  | nil => simp at hp
  | cons q updates ih =>
    obtain ⟨hq, hrest⟩ := List.nodup_cons.mp hnodup
    rcases List.mem_cons.mp hp with rfl | hp
    · exact applied_cons_of_eq hid
    · have hne : r.id ≠ q.1 := by
        rw [hid]
        intro he
        exact hq (he ▸ List.mem_map_of_mem hp)
      exact (applied_cons_of_ne hne).trans (ih hrest hp)

/-- A batch that names the rows of a market gives its rows, in another order. -/
theorem picked_perm (hids : IdsDistinct rows) (hnodup : (updates.map Prod.fst).Nodup)
    (hperm : (updates.map Prod.fst).Perm ((ofMarket market rows).map Item.id)) :
    (picked updates rows).Perm (ofMarket market (rows.map (applied updates))) := by
  have hpicked : picked updates rows =
      (updates.map Prod.fst).filterMap fun i => (findRow i rows).map (applied updates) := by
    rw [picked, List.filterMap_map]
    apply List.filterMap_congr
    intro p hp
    cases hf : findRow p.1 rows with
    | none => simp [hf]
    | some r => simp [hf, applied_of_mem hnodup hp (findRow_eq_some hf).2]
  have hrows : ((ofMarket market rows).map Item.id).filterMap
      (fun i => (findRow i rows).map (applied updates)) =
        (ofMarket market rows).map (applied updates) := by
    rw [List.filterMap_map, ← List.filterMap_eq_map]
    apply List.filterMap_congr
    intro r hr
    simp [findRow_of_mem hids (mem_ofMarket.mp hr).1]
  rw [hpicked, ofMarket_map (fun _ => applied_market), ← hrows]
  exact hperm.filterMap _

theorem picked_map {α : Type*} {g : Item → α} {f : String × Updates → α}
    (hmem : ∀ i ∈ updates.map Prod.fst, i ∈ rows.map Item.id)
    (hg : ∀ p ∈ updates, ∀ r : Item, r.id = p.1 → g (p.2.apply r) = f p) :
    (picked updates rows).map g = updates.map f := by
  induction updates with
  | nil => rfl
  | cons p updates ih =>
    cases hf : findRow p.1 rows with
    | none => exact absurd (hmem p.1 List.mem_cons_self) (findRow_eq_none.mp hf)
    | some r =>
      have hrest := ih (fun i hi => hmem i (List.mem_cons_of_mem _ hi))
        fun q hq => hg q (List.mem_cons_of_mem _ hq)
      rw [picked] at hrest
      simp [picked, hf, hrest, hg p List.mem_cons_self r (findRow_eq_some hf).2]

theorem orderUpdates_mem (hperm : ids.Perm ((ofMarket market rows).map Item.id)) :
    ∀ i ∈ (orderUpdates ids now).map Prod.fst, i ∈ rows.map Item.id := by
  intro i hi
  rw [orderUpdates_ids, hperm.mem_iff] at hi
  obtain ⟨r, hr, hid⟩ := List.mem_map.mp hi
  exact List.mem_map.mpr ⟨r, (mem_ofMarket.mp hr).1, hid⟩

/-- A reorder leaves the rows of the other markets. -/
theorem applied_orderUpdates_of_ne (hids : IdsDistinct rows)
    (hperm : ids.Perm ((ofMarket market rows).map Item.id)) (hr : r ∈ rows) (hm : r.market ≠ market) :
    applied (orderUpdates ids now) r = r := by
  apply applied_of_notMem
  rw [orderUpdates_ids, hperm.mem_iff]
  exact notMem_ofMarket hids hr (Ne.symm hm)

theorem ofMarket_reordered (hids : IdsDistinct rows)
    (hperm : ids.Perm ((ofMarket market rows).map Item.id)) {m : String} (hm : m ≠ market) :
    ofMarket m (rows.map (applied (orderUpdates ids now))) = ofMarket m rows := by
  rw [ofMarket_map (fun _ => applied_market)]
  refine (List.map_congr_left ?_).trans (List.map_id _)
  intro r hr
  obtain ⟨hr, hmarket⟩ := mem_ofMarket.mp hr
  exact applied_orderUpdates_of_ne hids hperm hr (hmarket ▸ hm)

theorem picked_orderUpdates_ids
    (hmem : ∀ i ∈ (orderUpdates ids now).map Prod.fst, i ∈ rows.map Item.id) :
    (picked (orderUpdates ids now) rows).map Item.id = ids := by
  rw [picked_map hmem (f := Prod.fst) fun p _ r hr => hr, orderUpdates_ids]

/-- The listing of a reordered market. -/
theorem sortBy_reordered (hids : IdsDistinct rows) (hnodup : ids.Nodup)
    (hperm : ids.Perm ((ofMarket market rows).map Item.id)) :
    sortBy Item.key (ofMarket market (rows.map (applied (orderUpdates ids now)))) =
      picked (orderUpdates ids now) rows := by
  apply sortBy_eq_of_pairwise_lt
  · refine (pairwise_picked ranked_orderUpdates).imp ?_
    intro a b h
    exact Prod.Lex.toLex_lt_toLex.mpr (.inl h)
  · refine (picked_perm hids ?_ ?_).symm
    · rwa [orderUpdates_ids]
    · rwa [orderUpdates_ids]

/-! The interface on a backend that refines the sheet. -/

/-- A created row gets an id that no stored row has. -/
def FreshCall (rows : List Item) : Call → Prop
  | .create c => c.id ∉ rows.map Item.id
  | _ => True

instance : DecidablePred (FreshCall rows) := fun c =>
  match c with
  | .create _ => inferInstanceAs (Decidable (_ ∉ _))
  | .update .. | .delete _ | .reorder .. | .list _ => isTrue trivial

theorem checkOrder_ok_iff {existing : List String} :
    checkOrder existing ids = .ok () ↔ ids.Nodup ∧ ids.Perm existing.dedup := by
  rw [checkOrder]
  split
  · next h => simp [h]
  · next hnodup =>
    split
    · next h => simp [h]
    · next hperm => simp [not_not.mp hnodup, not_not.mp hperm]

/-- A checked order is an order of the market's rows. -/
theorem perm_of_checkOrder (hids : IdsDistinct rows)
    (h : checkOrder ((sortBy Item.key (ofMarket market rows)).map Item.id) ids = .ok ()) :
    ids.Nodup ∧ ids.Perm ((ofMarket market rows).map Item.id) := by
  obtain ⟨hnodup, hperm⟩ := checkOrder_ok_iff.mp h
  refine ⟨hnodup, ?_⟩
  have hlisted : ((sortBy Item.key (ofMarket market rows)).map Item.id).Perm
      ((ofMarket market rows).map Item.id) := (sortBy_perm _ _).map _
  rw [List.dedup_eq_self.mpr (hlisted.nodup_iff.mpr (idsDistinct_ofMarket hids))] at hperm
  exact hperm.trans hlisted

variable {σ : Type*} {B : Backend σ} {full : List Item → String → Bool} {R : List Item → σ → Prop}
  {s : σ} {c : Call}

theorem Refines.call (hB : Refines B full R) (resolver : Option (String → Option SymbolMeta))
    (userId : String) (h : R rows s) (hc : FreshCall rows c) :
    (Watchlist.call B resolver userId s c).2 =
        (Watchlist.call (sheet full) resolver userId rows c).2 ∧
      R (Watchlist.call (sheet full) resolver userId rows c).1
        (Watchlist.call B resolver userId s c).1 := by
  cases c with
  | create c =>
    simp only [Watchlist.call, answered, createItem, hB.list h]
    split
    · exact ⟨rfl, h⟩
    · have hnew : (c.payload userId ((sheet full).list rows c.market)).id ∉ rows.map Item.id := hc
      exact ⟨congrArg _ (hB.create h hnew).1, (hB.create h hnew).2⟩
  | update itemId note sortIndex now =>
    simp only [Watchlist.call, answered, updateItem]
    split
    · exact ⟨rfl, h⟩
    · split
      · exact ⟨rfl, h⟩
      · exact ⟨congrArg _ (hB.update h).1, (hB.update h).2⟩
  | delete itemId =>
    simp only [Watchlist.call, answered, deleteItem]
    exact ⟨congrArg _ (hB.delete h).1, (hB.delete h).2⟩
  | reorder market ids now =>
    simp only [Watchlist.call, answered, Watchlist.reorder, hB.list h]
    split
    · exact ⟨rfl, h⟩
    · next hcheck =>
      obtain ⟨hnodup, hperm⟩ := perm_of_checkOrder (hB.ids h) hcheck
      exact ⟨congrArg _ (hB.reorder h hnodup hperm).1, (hB.reorder h hnodup hperm).2⟩
  | list market => exact ⟨by simp only [Watchlist.call, hB.list h], h⟩

theorem Atomic.answered {α : Type*} {f : α → Answer} {r : σ × Except StoreError α} (h : Atomic s r) :
    Atomic s (answered f r) := by
  intro e he
  cases hr : r.2 with
  | error e' => exact h e' hr
  | ok a => simp [Watchlist.answered, hr, Except.map] at he

theorem atomic_error {α : Type*} {e : StoreError} : Atomic s (s, (.error e : Except StoreError α)) :=
  fun _ _ => rfl

/-- A call that raises leaves the state as it was; a checked reorder does not raise. -/
theorem Refines.atomic (hB : Refines B full R) (resolver : Option (String → Option SymbolMeta))
    (userId : String) (h : R rows s) : Atomic s (Watchlist.call B resolver userId s c) := by
  cases c with
  | create c =>
    apply Atomic.answered
    rw [createItem]
    split
    · exact atomic_error
    · exact hB.create_atomic
  | update itemId note sortIndex now =>
    apply Atomic.answered
    rw [updateItem]
    split
    · exact atomic_error
    · split
      · exact atomic_error
      · exact hB.update_atomic
  | delete itemId => exact hB.delete_atomic.answered
  | reorder market ids now =>
    apply Atomic.answered
    rw [Watchlist.reorder]
    split
    · exact atomic_error
    · next hcheck =>
      rw [hB.list h] at hcheck
      obtain ⟨hnodup, hperm⟩ := perm_of_checkOrder (hB.ids h) hcheck
      intro e he
      rw [(hB.reorder h hnodup hperm).1] at he
      cases he
  | list market =>
    intro e he
    cases he

end Pyharmonics.Watchlist
