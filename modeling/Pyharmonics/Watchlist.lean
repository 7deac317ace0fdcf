import Pyharmonics.Library.Dict
import Pyharmonics.Library.Sorting
import Mathlib.Data.Prod.Lex
import Mathlib.Data.String.Basic

/-! The watchlist store of one user: its fallback backends and the calls of its interface. -/
namespace Pyharmonics.Watchlist

open Sorting

def maxItemsPerUser : ℕ := 50

def maxNoteLength : ℕ := 280

structure SymbolMeta where
  symbol : String
  baseAsset : String
  quoteAsset : String
  contractType : String
  underlyingType : Option String
  underlyingSubTypes : List String
  pricePrecision : ℤ
  quantityPrecision : ℤ
  isTradfi : Bool
  deriving DecidableEq

/-- A stored row; what it copies from the symbol is kept together. -/
structure Item where
  id : String
  userId : String
  market : String
  symbolMeta : SymbolMeta
  note : String
  sortIndex : ℤ
  createdAt : String
  updatedAt : String
  deriving DecidableEq

def Item.symbol (r : Item) : String := r.symbolMeta.symbol

/-- The order of a listing: `sort_index`, then `created_at`. -/
def Item.key (r : Item) : ℤ ×ₗ String := toLex (r.sortIndex, r.createdAt)

/-- What a `NotFoundError` names: an id, or the two differences a reorder found. -/
inductive Missing
  | item (itemId : String)
  | reorderMismatch (missing extra : List String)
  deriving DecidableEq

inductive StoreError
  | value (text : String)
  | unknownSymbol (symbol : String)
  | limitReached (limit : ℕ)
  | duplicate (symbol market : String)
  | notFound (missing : Missing)
  deriving DecidableEq

/-- The fields an update writes. -/
structure Updates where
  note : Option String := none
  sortIndex : Option ℤ := none
  updatedAt : String
  deriving DecidableEq

/-- `row.update(updates)` -/
def Updates.apply (u : Updates) (r : Item) : Item :=
  { r with
    note := u.note.getD r.note
    sortIndex := u.sortIndex.getD r.sortIndex
    updatedAt := u.updatedAt }

/-- The operations of a fallback backend on one user's rows. -/
structure Backend (σ : Type*) where
  list : σ → String → List Item
  create : σ → Item → σ × Except StoreError Item
  update : σ → String → Updates → σ × Except StoreError Item
  delete : σ → String → σ × Except StoreError Bool
  reorder : σ → String → List (String × Updates) → σ × Except StoreError (List Item)

/-- Puts a row in the place of the first row with its id. -/
def replaceFirst (row : Item) : List Item → List Item
  | [] => []
  | r :: rows => if r.id = row.id then row :: rows else r :: replaceFirst row rows

def findRow (itemId : String) (rows : List Item) : Option Item := rows.find? fun r => r.id = itemId

/-! The Redis backend: one value for each user, the rows of every market under its name. -/

abbrev RedisData := Dict String (List Item)

def listRedis (data : RedisData) (market : String) : List Item :=
  sortBy Item.key (data.getD market [])

def createRedis (data : RedisData) (payload : Item) : RedisData × Except StoreError Item :=
  let rows := data.getD payload.market []
  if rows.any fun r => r.symbol = payload.symbol then
    (data, .error (.duplicate payload.symbol payload.market))
  else if maxItemsPerUser ≤ rows.length then (data, .error (.limitReached maxItemsPerUser))
  else (data.set payload.market (rows ++ [payload]), .ok payload)

/-- The first row with the id, in the order of the markets. -/
def locate (itemId : String) (data : RedisData) : Option (String × List Item × Item) :=
  data.entries.findSome? fun e => (findRow itemId e.2).map fun r => (e.1, e.2, r)

def updateRedis (data : RedisData) (itemId : String) (u : Updates) :
    RedisData × Except StoreError Item :=
  match locate itemId data with
  | none => (data, .error (.notFound (.item itemId)))
  | some (market, rows, r) => (data.set market (replaceFirst (u.apply r) rows), .ok (u.apply r))

def deleteRedis (data : RedisData) (itemId : String) : RedisData × Except StoreError Bool :=
  match data.entries.find? fun e => (e.2.filter fun r => r.id ≠ itemId).length ≠ e.2.length with
  | none => (data, .error (.notFound (.item itemId)))
  | some (market, rows) => (data.set market (rows.filter fun r => r.id ≠ itemId), .ok true)

/-- The patches applied in turn; `rows_by_id` holds the last row of each id. -/
def patchRows : List Item → List (String × Updates) → Except StoreError (List Item)
  | rows, [] => .ok rows
  | rows, (itemId, u) :: updates =>
    match findRow itemId rows.reverse with
    | none => .error (.notFound (.item itemId))
    | some r => patchRows (replaceFirst (u.apply r) rows.reverse).reverse updates

/-- Nothing is saved unless every id was found; a market without a list stays without one. -/
def reorderRedis (data : RedisData) (market : String) (updates : List (String × Updates)) :
    RedisData × Except StoreError (List Item) :=
  match patchRows (data.getD market []) updates with
  | .error e => (data, .error e)
  | .ok rows =>
    (if (data.get? market).isSome then data.set market rows else data,
      .ok (sortBy Item.sortIndex rows))

def redis : Backend RedisData := ⟨listRedis, createRedis, updateRedis, deleteRedis, reorderRedis⟩

/-! The memory backend: the rows of all markets in one dictionary. -/

abbrev MemoryData := Dict String Item

def listMemory (data : MemoryData) (market : String) : List Item :=
  sortBy Item.key (data.values.filter fun r => r.market = market)

def createMemory (data : MemoryData) (payload : Item) : MemoryData × Except StoreError Item :=
  if data.values.any fun r => r.market = payload.market ∧ r.symbol = payload.symbol then
    (data, .error (.duplicate payload.symbol payload.market))
  else if maxItemsPerUser ≤ data.values.length then (data, .error (.limitReached maxItemsPerUser))
  else (data.set payload.id payload, .ok payload)

def updateMemory (data : MemoryData) (itemId : String) (u : Updates) :
    MemoryData × Except StoreError Item :=
  match data.get? itemId with
  | none => (data, .error (.notFound (.item itemId)))
  | some r => (data.set itemId (u.apply r), .ok (u.apply r))

def deleteMemory (data : MemoryData) (itemId : String) : MemoryData × Except StoreError Bool :=
  if itemId ∈ data.keys then (data.erase itemId, .ok true)
  else (data, .error (.notFound (.item itemId)))

/-- The rows are updated one by one; what was updated before an error stays. -/
def updateEach : MemoryData → List (String × Updates) → MemoryData × Except StoreError (List Item)
  | data, [] => (data, .ok [])
  | data, (itemId, u) :: updates =>
    match updateMemory data itemId u with
    | (data, .error e) => (data, .error e)
    | (data, .ok row) =>
      let (data, rows) := updateEach data updates
      (data, rows.map (row :: ·))

def reorderMemory (data : MemoryData) (_market : String) (updates : List (String × Updates)) :
    MemoryData × Except StoreError (List Item) :=
  let (data, rows) := updateEach data updates
  (data, rows.map (sortBy Item.sortIndex))

def memory : Backend MemoryData :=
  ⟨listMemory, createMemory, updateMemory, deleteMemory, reorderMemory⟩

/-! The interface of the store. -/

def validateNote (note : String) : Except StoreError Unit :=
  if maxNoteLength < note.length then .error (.value "note exceeds 280 chars") else .ok ()

/-- Without a resolver the caller is trusted. -/
def ensureWhitelisted (resolver : Option (String → Option SymbolMeta)) (m : SymbolMeta) :
    Except StoreError Unit :=
  match resolver with
  | none => .ok ()
  | some resolve =>
    match resolve m.symbol with
    | none => .error (.unknownSymbol m.symbol)
    | some resolved =>
      if resolved.quoteAsset ≠ m.quoteAsset then .error (.unknownSymbol m.symbol) else .ok ()

def nextSortIndex (existing : List Item) : ℤ :=
  match (existing.map Item.sortIndex).max? with
  | none => 0
  | some greatest => greatest + 1

/-- A `create_item` call with the id generated for it and the clock's reading. -/
structure NewItem where
  market : String
  symbolMeta : SymbolMeta
  note : String
  id : String
  now : String

/-- The checks that come before the row is built. -/
def NewItem.admitted (resolver : Option (String → Option SymbolMeta)) (c : NewItem) :
    Except StoreError Unit := do
  validateNote c.note
  ensureWhitelisted resolver c.symbolMeta

def NewItem.payload (userId : String) (c : NewItem) (existing : List Item) : Item where
  id := c.id
  userId := userId
  market := c.market
  symbolMeta := c.symbolMeta
  note := c.note
  sortIndex := nextSortIndex existing
  createdAt := c.now
  updatedAt := c.now

section

variable {σ : Type*} (B : Backend σ) (resolver : Option (String → Option SymbolMeta))
  (userId : String)

def createItem (s : σ) (c : NewItem) : σ × Except StoreError Item :=
  match c.admitted resolver with
  | .error e => (s, .error e)
  | .ok _ => B.create s (c.payload userId (B.list s c.market))

def updateItem (s : σ) (itemId : String) (note : Option String) (sortIndex : Option ℤ)
    (now : String) : σ × Except StoreError Item :=
  if note.isNone ∧ sortIndex.isNone then
    (s, .error (.value "update_item requires note or sort_index"))
  else
    match note.elim (.ok ()) validateNote with
    | .error e => (s, .error e)
    | .ok _ => B.update s itemId { note := note, sortIndex := sortIndex, updatedAt := now }

def deleteItem (s : σ) (itemId : String) : σ × Except StoreError Bool := B.delete s itemId

/-- The checks of a reorder against the ids of the market's rows. -/
def checkOrder (existing : List String) (orderedIds : List String) : Except StoreError Unit :=
  if ¬ orderedIds.Nodup then .error (.value "reorder received duplicate ids")
  else if ¬ orderedIds.Perm existing.dedup then
    .error (.notFound (.reorderMismatch
      (sortBy id (existing.dedup.filter fun i => i ∉ orderedIds))
      (sortBy id (orderedIds.filter fun i => i ∉ existing))))
  else .ok ()

def orderUpdates (orderedIds : List String) (now : String) : List (String × Updates) :=
  orderedIds.zipIdx.map fun p => (p.1, { sortIndex := some (p.2 : ℤ), updatedAt := now })

def reorder (s : σ) (market : String) (orderedIds : List String) (now : String) :
    σ × Except StoreError (List Item) :=
  match checkOrder ((B.list s market).map Item.id) orderedIds with
  | .error e => (s, .error e)
  | .ok _ => B.reorder s market (orderUpdates orderedIds now)

inductive Call
  | create (c : NewItem)
  | update (itemId : String) (note : Option String) (sortIndex : Option ℤ) (now : String)
  | delete (itemId : String)
  | reorder (market : String) (orderedIds : List String) (now : String)
  | list (market : String)

inductive Answer
  | item (r : Item)
  | deleted (done : Bool)
  | items (rows : List Item)
  deriving DecidableEq

def answered {α : Type*} (f : α → Answer) (r : σ × Except StoreError α) :
    σ × Except StoreError Answer := (r.1, r.2.map f)

/-- One call of the interface: the state behind it, and its answer or error. -/
def call (s : σ) : Call → σ × Except StoreError Answer
  | .create c => answered .item (createItem B resolver userId s c)
  | .update itemId note sortIndex now => answered .item (updateItem B s itemId note sortIndex now)
  | .delete itemId => answered .deleted (deleteItem B s itemId)
  | .reorder market orderedIds now => answered .items (reorder B s market orderedIds now)
  | .list market => (s, .ok (.items (B.list s market)))

end

end Pyharmonics.Watchlist
