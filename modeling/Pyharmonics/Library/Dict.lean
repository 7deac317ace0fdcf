import Mathlib.Data.List.Nodup

/-! Dictionaries that keep the order of insertion. -/

/-- Keys and values in order; no key occurs twice. -/
structure Dict (κ α : Type*) where
  entries : List (κ × α)
  nodup : (entries.map Prod.fst).Nodup

namespace Dict

variable {κ α : Type*} {d e : Dict κ α}

theorem ext_entries (h : d.entries = e.entries) : d = e := by
  cases d
  cases e
  cases h
  rfl

instance [DecidableEq κ] [DecidableEq α] : DecidableEq (Dict κ α) := fun d e =>
  decidable_of_iff (d.entries = e.entries) ⟨ext_entries, fun h => h ▸ rfl⟩

def empty : Dict κ α := ⟨[], List.nodup_nil⟩

/-- `{k: v}` -/
def single (k : κ) (v : α) : Dict κ α := ⟨[(k, v)], List.nodup_singleton k⟩

def keys (d : Dict κ α) : List κ := d.entries.map Prod.fst

def values (d : Dict κ α) : List α := d.entries.map Prod.snd

/-- `{k: f(v) for k, v in d.items()}` -/
def mapValues {β : Type*} (f : α → β) (d : Dict κ α) : Dict κ β :=
  ⟨d.entries.map fun e => (e.1, f e.2), by simpa [List.map_map, Function.comp_def] using d.nodup⟩

/-- The entries that pass a test. -/
def filter (p : κ × α → Bool) (d : Dict κ α) : Dict κ α :=
  ⟨d.entries.filter p, d.nodup.sublist (List.filter_sublist.map _)⟩

/-- `while len(d) > n: d.popitem(last=False)`, on the entries -/
def popOldest {β : Type*} (n : ℕ) : List β → List β
  | [] => []
  | e :: rest => if n < rest.length + 1 then popOldest n rest else e :: rest

theorem popOldest_eq_drop {β : Type*} {n : ℕ} (l : List β) :
    popOldest n l = l.drop (l.length - n) := by
  induction l with
  | nil => rw [popOldest, List.drop_nil]
  | cons e rest ih =>
    rw [popOldest, List.length_cons]
    by_cases h : n < rest.length + 1
    · rw [if_pos h, ih, Nat.succ_sub (Nat.lt_succ_iff.mp h), List.drop_succ_cons]
    · rw [if_neg h, Nat.sub_eq_zero_of_le (Nat.not_lt.mp h), List.drop_zero]

theorem popOldest_sublist {β : Type*} {n : ℕ} (l : List β) : (popOldest n l).Sublist l :=
  popOldest_eq_drop l ▸ List.drop_sublist _ l

/-- The newest entries, at most `n`. -/
def evict (d : Dict κ α) (n : ℕ) : Dict κ α :=
  ⟨popOldest n d.entries, d.nodup.sublist ((popOldest_sublist d.entries).map _)⟩

theorem keys_evict {n : ℕ} : (d.evict n).keys = d.keys.drop (d.keys.length - n) := by
  change (popOldest n d.entries).map Prod.fst = _
  rw [popOldest_eq_drop, List.map_drop, keys, List.length_map]

variable [DecidableEq κ]

/-- `d.get(k)`. -/
def get? (d : Dict κ α) (k : κ) : Option α := (d.entries.find? (fun e => e.1 = k)).map Prod.snd

/-- `d.get(k, default)`. -/
def getD (d : Dict κ α) (k : κ) (default : α) : α := (d.get? k).getD default

/-- `d[k] = v`: in the place of the old value, or behind the other entries. -/
def set (d : Dict κ α) (k : κ) (v : α) : Dict κ α :=
  if hk : k ∈ d.keys then
    ⟨d.entries.map fun e => if e.1 = k then (e.1, v) else e, by
      have hkeys : (d.entries.map fun e => if e.1 = k then (e.1, v) else e).map Prod.fst = d.keys := by
        rw [List.map_map]
        apply List.map_congr_left
        intro e _
        by_cases h : e.1 = k <;> simp [h]
      rw [hkeys]
      exact d.nodup⟩
  else
    ⟨d.entries ++ [(k, v)], by
      rw [List.map_append, List.nodup_append]
      refine ⟨d.nodup, List.nodup_singleton k, ?_⟩
      intro a ha b hb hab
      have hbk : b = k := List.mem_singleton.mp hb
      rw [hab, hbk] at ha
      exact hk ha⟩

/-- `del d[k]` -/
def erase (d : Dict κ α) (k : κ) : Dict κ α :=
  ⟨d.entries.filter fun e => e.1 ≠ k, d.nodup.sublist (List.filter_sublist.map _)⟩

theorem moved_perm (entries : List (κ × α)) (k : κ) :
    (entries.filter (fun e => e.1 ≠ k) ++ entries.filter fun e => e.1 = k).Perm entries := by
  have hnot : entries.filter (fun e => decide (e.1 ≠ k)) =
      entries.filter fun e => !decide (e.1 = k) := by
    simp
  rw [hnot]
  exact List.perm_append_comm.trans (List.filter_append_perm _ entries)

/-- `d.move_to_end(k)` -/
def moveToEnd (d : Dict κ α) (k : κ) : Dict κ α :=
  ⟨d.entries.filter (fun e => e.1 ≠ k) ++ d.entries.filter fun e => e.1 = k,
    ((moved_perm d.entries k).map Prod.fst).nodup_iff.mpr d.nodup⟩

theorem entries_set_of_notMem {k : κ} {v : α} (h : k ∉ d.keys) :
    (d.set k v).entries = d.entries ++ [(k, v)] := by
  rw [set, dif_neg h]

theorem entries_set_of_mem {k : κ} {v : α} (h : k ∈ d.keys) :
    (d.set k v).entries = d.entries.map fun e => if e.1 = k then (e.1, v) else e := by
  rw [set, dif_pos h]

theorem get?_eq_some_iff {k : κ} {v : α} : d.get? k = some v ↔ (k, v) ∈ d.entries := by
  rw [get?, Option.map_eq_some_iff]
  constructor
  · rintro ⟨⟨k', v'⟩, hf, rfl⟩
    obtain rfl : k' = k := by simpa using List.find?_some hf
    exact List.mem_of_find?_eq_some hf
  · intro hmem
    have hsome : (d.entries.find? fun e => e.1 = k).isSome := by
      rw [List.find?_isSome]
      exact ⟨(k, v), hmem, by simp⟩
    obtain ⟨e, he⟩ := Option.isSome_iff_exists.mp hsome
    refine ⟨e, he, ?_⟩
    have hek : e.1 = k := by simpa using List.find?_some he
    rw [List.inj_on_of_nodup_map d.nodup (List.mem_of_find?_eq_some he) hmem hek]

theorem mem_keys_iff {k : κ} : k ∈ d.keys ↔ ∃ v, d.get? k = some v := by
  simp only [get?_eq_some_iff, keys, List.mem_map]
  constructor
  · rintro ⟨⟨k', v⟩, hmem, rfl⟩
    exact ⟨v, hmem⟩
  · rintro ⟨v, hmem⟩
    exact ⟨(k, v), hmem, rfl⟩

theorem get?_mapValues {β : Type*} {f : α → β} {k : κ} : (d.mapValues f).get? k = (d.get? k).map f := by
  rw [get?, get?, mapValues, List.find?_map, Option.map_map, Option.map_map]
  rfl

theorem mem_entries_set {k k' : κ} {v w : α} :
    (k', w) ∈ (d.set k v).entries ↔ k' = k ∧ w = v ∨ k' ≠ k ∧ (k', w) ∈ d.entries := by
  by_cases hk : k ∈ d.keys
  · rw [entries_set_of_mem hk, List.mem_map]
    constructor
    · rintro ⟨e, he, heq⟩
      by_cases h : e.1 = k
      · rw [if_pos h, Prod.mk.injEq] at heq
        exact .inl ⟨heq.1.symm.trans h, heq.2.symm⟩
      · rw [if_neg h] at heq
        rw [heq] at he h
        exact .inr ⟨h, he⟩
    · rintro (⟨rfl, rfl⟩ | ⟨hne, hmem⟩)
      · obtain ⟨e, he, hek⟩ := List.mem_map.mp hk
        exact ⟨e, he, by rw [if_pos hek, hek]⟩
      · exact ⟨(k', w), hmem, if_neg hne⟩
  · rw [entries_set_of_notMem hk, List.mem_append, List.mem_singleton, Prod.mk.injEq]
    constructor
    · rintro (hmem | h)
      · refine .inr ⟨?_, hmem⟩
        rintro rfl
        exact hk (List.mem_map_of_mem hmem)
      · exact .inl h
    · rintro (h | ⟨-, hmem⟩)
      · exact .inr h
      · exact .inl hmem

theorem get?_set {k k' : κ} {v : α} : (d.set k v).get? k' = if k' = k then some v else d.get? k' := by
  ext w
  rw [get?_eq_some_iff, mem_entries_set]
  by_cases h : k' = k
  · simp [h, eq_comm]
  · simp [h, get?_eq_some_iff]

theorem getD_of_get? {k : κ} {v v' : α} (h : d.get? k = some v) : d.getD k v' = v := by
  rw [getD, h, Option.getD_some]

theorem getD_set {k k' : κ} {v v' : α} :
    (d.set k v).getD k' v' = if k' = k then v else d.getD k' v' := by
  rw [getD, get?_set, getD]
  split <;> rfl

theorem get?_erase {k k' : κ} (h : k' ≠ k) : (d.erase k).get? k' = d.get? k' := by
  ext w
  rw [get?_eq_some_iff, get?_eq_some_iff, erase, List.mem_filter]
  simp [h]

theorem get?_erase_eq {k k' : κ} : (d.erase k).get? k' = if k' = k then none else d.get? k' := by
  by_cases h : k' = k
  · rw [if_pos h, h]
    refine Option.eq_none_iff_forall_ne_some.mpr fun v hv => ?_
    have hmem := List.mem_filter.mp (get?_eq_some_iff.mp hv)
    simp at hmem
  · rw [if_neg h, get?_erase h]

theorem getD_erase {k k' : κ} {v : α} (h : k' ≠ k) : (d.erase k).getD k' v = d.getD k' v := by
  rw [getD, get?_erase h, getD]

theorem keys_set_of_mem {k : κ} {v : α} (h : k ∈ d.keys) : (d.set k v).keys = d.keys := by
  rw [keys, entries_set_of_mem h, List.map_map]
  refine List.map_congr_left fun e _ => ?_
  by_cases he : e.1 = k <;> simp [he]

theorem keys_set_of_notMem {k : κ} {v : α} (h : k ∉ d.keys) : (d.set k v).keys = d.keys ++ [k] := by
  rw [keys, entries_set_of_notMem h, List.map_append]
  rfl

theorem keys_erase {k : κ} : (d.erase k).keys = d.keys.filter (· ≠ k) := by
  rw [keys, keys, erase, List.filter_map]
  rfl

theorem get?_moveToEnd {k k' : κ} : (d.moveToEnd k).get? k' = d.get? k' := by
  ext w
  rw [get?_eq_some_iff, get?_eq_some_iff]
  exact (moved_perm d.entries k).mem_iff

theorem keys_moveToEnd {k : κ} (h : k ∈ d.keys) :
    (d.moveToEnd k).keys = d.keys.filter (· ≠ k) ++ [k] := by
  have hone : d.keys.filter (fun a => decide (a = k)) = [k] := by
    have hcount : d.keys.count k = 1 := List.count_eq_one_of_mem d.nodup h
    rw [List.filter_eq, hcount, List.replicate_one]
  rw [← hone, keys, keys, List.filter_map, List.filter_map, moveToEnd, List.map_append]
  rfl

theorem get?_of_get?_evict {n : ℕ} {k : κ} {v : α} (h : (d.evict n).get? k = some v) :
    d.get? k = some v :=
  get?_eq_some_iff.mpr ((popOldest_sublist d.entries).mem (get?_eq_some_iff.mp h))

end Dict
