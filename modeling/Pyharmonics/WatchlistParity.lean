import Pyharmonics.Library.Machines
import Pyharmonics.WatchlistBackends

/-! The same calls on the Redis backend and on the memory backend. -/
namespace Pyharmonics.Watchlist

open Machines

variable {resolver : Option (String → Option SymbolMeta)} {userId : String} {rows : List Item}
  {data : MemoryData} {c : Call} {calls : List Call}

/-- A create that comes as far as the limit check finds the user's rows and the market's both below
the limit, or both at it. -/
def LimitsAgree (resolver : Option (String → Option SymbolMeta)) (data : MemoryData) : Call → Prop
  | .create c =>
    c.admitted resolver = .ok () → ¬ Taken data.values c.market c.symbolMeta.symbol →
      maxItemsPerUser ≤ data.values.length →
      maxItemsPerUser ≤ (ofMarket c.market data.values).length
  | _ => True

instance {market symbol : String} : Decidable (Taken rows market symbol) :=
  inferInstanceAs (Decidable (∃ r ∈ rows, _))

instance : DecidablePred (LimitsAgree resolver data) := fun c =>
  match c with
  | .create _ => inferInstanceAs (Decidable (_ → _ → _ → _))
  | .update .. | .delete _ | .reorder .. | .list _ => isTrue trivial

/-- The two limit checks tell a new row apart exactly when the user has as many rows as the limit
and the market has fewer. -/
theorem sheet_create_eq_iff (rows : List Item) (payload : Item) :
    ((sheet fullUser).create rows payload = (sheet fullMarket).create rows payload ↔
      ((sheet fullUser).create rows payload).2 = ((sheet fullMarket).create rows payload).2) ∧
    (((sheet fullUser).create rows payload).2 = ((sheet fullMarket).create rows payload).2 ↔
      (¬ Taken rows payload.market payload.symbol → maxItemsPerUser ≤ rows.length →
        maxItemsPerUser ≤ (ofMarket payload.market rows).length)) := by
  by_cases htaken : Taken rows payload.market payload.symbol
  · rw [sheet_create_duplicate htaken, sheet_create_duplicate htaken]
    simp [htaken]
  · have hle : (ofMarket payload.market rows).length ≤ rows.length := List.length_filter_le _ _
    by_cases huser : maxItemsPerUser ≤ rows.length
    · rw [sheet_create_full htaken (decide_eq_true huser)]
      by_cases hmarket : maxItemsPerUser ≤ (ofMarket payload.market rows).length
      · rw [sheet_create_full htaken (decide_eq_true hmarket)]
        simp [hmarket]
      · rw [sheet_create_room htaken (decide_eq_false hmarket)]
        simp [htaken, huser, hmarket]
    · have hmarket : ¬ maxItemsPerUser ≤ (ofMarket payload.market rows).length := by omega
      rw [sheet_create_room htaken (decide_eq_false huser),
        sheet_create_room htaken (decide_eq_false hmarket)]
      simp [huser]

theorem map_item_inj {x y : Except StoreError Item} : x.map Answer.item = y.map Answer.item ↔ x = y := by
  cases x <;> cases y <;> simp [Except.map]

theorem sheet_call_eq_iff (resolver : Option (String → Option SymbolMeta)) (userId : String)
    (c : Call) (h : Holds rows data) :
    ((call (sheet fullUser) resolver userId rows c).2 =
        (call (sheet fullMarket) resolver userId rows c).2 ↔ LimitsAgree resolver data c) ∧
      (LimitsAgree resolver data c → (call (sheet fullUser) resolver userId rows c).1 =
        (call (sheet fullMarket) resolver userId rows c).1) := by
  cases c with
  | create c =>
    simp only [call, answered, createItem, LimitsAgree, h.values]
    cases hadmitted : c.admitted resolver with
    | error e => simp
    | ok _ =>
      obtain ⟨hstate, hagree⟩ :=
        sheet_create_eq_iff rows (c.payload userId ((sheet fullUser).list rows c.market))
      have hlimits : (Except.ok () = (.ok () : Except StoreError Unit) →
          ¬ Taken rows c.market c.symbolMeta.symbol → maxItemsPerUser ≤ rows.length →
            maxItemsPerUser ≤ (ofMarket c.market rows).length) ↔
          ((sheet fullUser).create rows (c.payload userId ((sheet fullUser).list rows c.market))).2 =
            ((sheet fullMarket).create rows
              (c.payload userId ((sheet fullUser).list rows c.market))).2 := by
        rw [hagree]
        simp [NewItem.payload, Item.symbol]
      rw [hlimits]
      refine ⟨map_item_inj, ?_⟩
      intro h
      exact congrArg Prod.fst (hstate.mpr h)
  | update itemId note sortIndex now => exact ⟨iff_of_true rfl trivial, fun _ => rfl⟩
  | delete itemId => exact ⟨iff_of_true rfl trivial, fun _ => rfl⟩
  | reorder market ids now => exact ⟨iff_of_true rfl trivial, fun _ => rfl⟩
  | list market => exact ⟨iff_of_true rfl trivial, fun _ => rfl⟩

/-- On any calls whose created rows get ids of their own, the two backends return the same results
and raise the same errors exactly when the two limit checks agree at every create. -/
theorem outputs_eq_iff_limitsAgree
    (hfresh : Along (call memory resolver userId) (fun data => FreshCall data.values) .empty calls) :
    outputs (call memory resolver userId) .empty calls =
        outputs (call redis resolver userId) .empty calls ↔
      Along (call memory resolver userId) (LimitsAgree resolver) .empty calls := by
  refine outputs_eq_iff (R := fun m r => ∃ rows, Holds rows m ∧ Files rows r) ?_ ?_ hfresh
  · rintro data data' c ⟨rows, hm, hr⟩ hfresh
    have hnew : FreshCall rows c := hm.values ▸ hfresh
    obtain ⟨hmo, hms⟩ := memory_refines.call resolver userId hm hnew
    obtain ⟨hro, hrs⟩ := redis_refines.call resolver userId hr hnew
    obtain ⟨hout, hstate⟩ := sheet_call_eq_iff resolver userId c hm
    rw [hmo, hro]
    refine ⟨hout, ?_⟩
    intro hagree
    rw [← hstate hagree] at hrs
    exact ⟨_, hms, hrs⟩
  · exact ⟨[], rfl, List.nodup_nil, fun _ => rfl⟩

/-! Rows in two markets. -/

/-- One row in each of two markets, a swap that names a row too few, and a listing. -/
def oneInEach : List Call :=
  [.create (nthItem "futures" 0), .create (nthItem "futures" 1), .create (nthItem "spot" 0),
    .create (nthItem "spot" 2), .reorder "futures" ["futuresaa"] "2026-01-02T00:00:00+00:00",
    .list "futures"]

theorem oneInEach_outputs_eq :
    outputs (call memory none "user") .empty oneInEach =
      outputs (call redis none "user") .empty oneInEach :=
  (outputs_eq_iff_limitsAgree (by decide)).mpr (by decide)

/-- As many rows as the limit in one market, then one row in another. -/
def fiftyAndOne : List Call :=
  (List.range maxItemsPerUser).map (fun n => .create (nthItem "futures" n)) ++
    [.create (nthItem "spot" maxItemsPerUser)]

/-- The answer refuses a row for the limit. -/
def refusedForLimit : Option (Except StoreError Answer) → Bool
  | some (.error (.limitReached _)) => true
  | _ => false

/-- The memory backend refuses the last row and the Redis backend takes it. -/
theorem fiftyAndOne_outputs_ne :
    outputs (call memory none "user") .empty fiftyAndOne ≠
      outputs (call redis none "user") .empty fiftyAndOne := by
  intro h
  have hmemory : refusedForLimit (outputs (call memory none "user") .empty fiftyAndOne).getLast? =
      true := by
    decide +kernel
  have hredis : refusedForLimit (outputs (call redis none "user") .empty fiftyAndOne).getLast? =
      false := by
    decide +kernel
  rw [h, hredis] at hmemory
  exact Bool.false_ne_true hmemory

end Pyharmonics.Watchlist
