import Mathlib.Data.Rat.Defs
import Pyharmonics.Errors
import Pyharmonics.Library.Dict
import Pyharmonics.Library.Machines
import Pyharmonics.Library.Recency

/-! The bounded in-memory cache, as a map that forgets what is old or long unused. -/
namespace Pyharmonics

open Recency

structure MemoryCache (α : Type) where
  maxSize : ℕ
  ttlSeconds : ℚ
  /-- When each entry expires, and its value. -/
  data : Dict String (ℚ × α)

namespace MemoryCache

variable {α : Type}

def init (maxSize : ℤ) (ttlSeconds : ℚ) : Except PyError (MemoryCache α) :=
  if maxSize ≤ 0 then .error (.valueError "max_size must be positive" [])
  else .ok ⟨maxSize.toNat, ttlSeconds, Dict.empty⟩

def get (c : MemoryCache α) (now : ℚ) (key : String) : MemoryCache α × Option α :=
  match c.data.get? key with
  | none => (c, none)
  | some (expiresAt, value) =>
    if expiresAt < now then ({ c with data := c.data.erase key }, none)
    else ({ c with data := c.data.moveToEnd key }, some value)

def set (c : MemoryCache α) (now : ℚ) (key : String) (value : α) : MemoryCache α :=
  let data := if key ∈ c.data.keys then c.data.moveToEnd key else c.data
  { c with data := (data.set key (now + c.ttlSeconds, value)).evict c.maxSize }

def delete (c : MemoryCache α) (key : String) : MemoryCache α × Bool :=
  if key ∈ c.data.keys then ({ c with data := c.data.erase key }, true) else (c, false)

def clear (c : MemoryCache α) : MemoryCache α := { c with data := Dict.empty }

def values (c : MemoryCache α) (now : ℚ) : List α :=
  (c.data.entries.filter fun e => now ≤ e.2.1).map fun e => e.2.2

/-- The calls of the methods. -/
inductive Call (α : Type) where
  | get (key : String)
  | set (key : String) (value : α)
  | delete (key : String)
  | clear
  deriving DecidableEq

/-- What the methods return. -/
inductive Reply (α : Type) where
  | value (v : Option α)
  | deleted (b : Bool)
  | none
  deriving DecidableEq

/-- A call at its time; the lock makes it one step. -/
def step (c : MemoryCache α) : ℚ × Call α → MemoryCache α × Reply α
  | (now, .get key) => ((c.get now key).1, .value (c.get now key).2)
  | (now, .set key value) => (c.set now key value, .none)
  | (_, .delete key) => ((c.delete key).1, .deleted (c.delete key).2)
  | (_, .clear) => (c.clear, .none)

/-- The key that a call sets, or reads with a hit. -/
def used : Call α → Reply α → Option String
  | .set key _, _ => some key
  | .get key, .value (some _) => some key
  | _, _ => .none

/-- The keys that a run sets or hits, in order. -/
def uses (c : MemoryCache α) : List (ℚ × Call α) → List String
  | [] => []
  | x :: xs => (used x.2 (c.step x).2).toList ++ uses (c.step x).1 xs

/-- What a call leaves of the last set of a key: when it was, and its value. -/
def remember (key : String) (last : Option (ℚ × α)) : ℚ × Call α → Option (ℚ × α)
  | (now, .set k value) => if k = key then some (now, value) else last
  | (_, .delete k) => if k = key then .none else last
  | (_, .clear) => .none
  | (_, .get _) => last

/-- The last set of a key that no delete and no clear followed. -/
def lastSet (key : String) (xs : List (ℚ × Call α)) : Option (ℚ × α) :=
  xs.foldl (remember key) .none

variable {c c₀ : MemoryCache α} {key k : String} {now t ttl : ℚ} {v value : α} {maxSize : ℤ}
  {xs : List (ℚ × Call α)} {x : ℚ × Call α}

theorem lastSet_concat : lastSet key (xs ++ [x]) = remember key (lastSet key xs) x := by
  rw [lastSet, List.foldl_append]
  rfl

theorem uses_concat : uses c (xs ++ [x]) =
    uses c xs ++ (used x.2 ((Machines.final step c xs).step x).2).toList := by
  induction xs generalizing c with
  | nil => simp [uses]
  | cons y ys ih =>
    rw [List.cons_append, uses, ih, uses, List.append_assoc]
    rfl

theorem keys_set : (c.set now key value).data.keys =
    (touch key c.data.keys).drop ((touch key c.data.keys).length - c.maxSize) := by
  have hkeys : ((if key ∈ c.data.keys then c.data.moveToEnd key else c.data).set key
      (now + c.ttlSeconds, value)).keys = touch key c.data.keys := by
    by_cases h : key ∈ c.data.keys
    · have hmoved := Dict.keys_moveToEnd h
      rw [if_pos h, Dict.keys_set_of_mem (by simp [hmoved]), hmoved, touch]
    · rw [if_neg h, Dict.keys_set_of_notMem h, touch_of_notMem h]
  rw [← hkeys]
  exact Dict.keys_evict

/-- What a set leaves in the cache is its own entry and old ones. -/
theorem get?_set {e : ℚ × α} (h : (c.set now key value).data.get? k = some e) :
    if k = key then e = (now + c.ttlSeconds, value) else c.data.get? k = some e := by
  have hset := Dict.get?_of_get?_evict h
  rw [Dict.get?_set] at hset
  by_cases hk : k = key
  · rw [if_pos hk] at hset ⊢
    exact (Option.some.inj hset).symm
  · rw [if_neg hk] at hset ⊢
    by_cases hmem : key ∈ c.data.keys
    · rwa [if_pos hmem, Dict.get?_moveToEnd] at hset
    · rwa [if_neg hmem] at hset

/-- What a cache knows of the calls so far and of the keys they used. -/
structure Tracks (c : MemoryCache α) (xs : List (ℚ × Call α)) (us : List String) : Prop where
  sound : ∀ {key e v}, c.data.get? key = some (e, v) →
    ∃ t, lastSet key xs = some (t, v) ∧ e = t + c.ttlSeconds
  recent : ∀ {key}, key ∈ c.data.keys → Recent key c.data.keys us
  complete : ∀ {key t v now}, lastSet key xs = some (t, v) → (∀ x ∈ xs, x.1 ≤ now) →
    now ≤ t + c.ttlSeconds → key ∉ c.data.keys → c.maxSize ≤ (since key us).toFinset.card
  size : c.data.keys.length ≤ c.maxSize

theorem tracks_init (h : init maxSize ttl = .ok c) : c.Tracks [] [] ∧ (c.maxSize : ℤ) = maxSize ∧
    c.ttlSeconds = ttl := by
  unfold init at h
  split_ifs at h with hpos
  obtain rfl := Except.ok.inj h
  refine ⟨⟨?_, ?_, ?_, ?_⟩, Int.toNat_of_nonneg (by omega), rfl⟩
  · rintro key e v ⟨⟩
  · rintro key ⟨⟩
  · rintro key t v now ⟨⟩
  · exact Nat.zero_le _

variable {us : List String}

/-- The key of an entry that expired is set before the present time, or not at all. -/
theorem Tracks.unexpired (h : c.Tracks xs us) {e : ℚ} (hget : c.data.get? key = some (e, value))
    (hlast : lastSet key xs = some (t, v)) (hnow : now ≤ t + c.ttlSeconds) : now ≤ e := by
  obtain ⟨t', hlast', rfl⟩ := h.sound hget
  rw [hlast] at hlast'
  obtain rfl : t = t' := congrArg Prod.fst (Option.some.inj hlast')
  exact hnow

/-- An entry is taken out whose key has no last set, or one that ran out. -/
theorem Tracks.erase (h : c.Tracks xs us)
    (hother : ∀ k, k ≠ key → lastSet k (xs ++ [x]) = lastSet k xs)
    (hgone : ∀ t v, lastSet key (xs ++ [x]) = some (t, v) → t + c.ttlSeconds < x.1) :
    ({ c with data := c.data.erase key } : MemoryCache α).Tracks (xs ++ [x]) us where
  sound := by
    intro k e v hget
    have hk : k ≠ key := by
      rintro rfl
      have hmem := Dict.mem_keys_iff.mpr ⟨_, hget⟩
      simp [Dict.keys_erase] at hmem
    rw [hother k hk]
    exact h.sound (Dict.get?_erase hk ▸ hget)
  recent := by
    intro k hk
    simp only [Dict.keys_erase, List.mem_filter, decide_eq_true_eq] at hk ⊢
    exact (h.recent hk.1).filter hk.2.symm
  complete := by
    intro k t v now hlast hclock hnow hk
    by_cases hkey : k = key
    · rw [hkey] at hlast
      exact absurd (hclock x (by simp)) (not_le.mpr (hnow.trans_lt (hgone t v hlast)))
    · rw [hother k hkey] at hlast
      refine h.complete hlast (fun y hy => hclock y (List.mem_append_left _ hy)) hnow fun hmem => hk ?_
      simpa [Dict.keys_erase] using ⟨hmem, hkey⟩
  size := by
    simp only [Dict.keys_erase]
    exact (List.length_filter_le _ _).trans h.size

/-- Nothing happens. -/
theorem Tracks.skip (h : c.Tracks xs us) (hlast : ∀ k t v, lastSet k (xs ++ [x]) = some (t, v) →
    k ∉ c.data.keys → lastSet k xs = some (t, v))
    (hkeep : ∀ k ∈ c.data.keys, lastSet k (xs ++ [x]) = lastSet k xs) : c.Tracks (xs ++ [x]) us where
  sound := by
    intro k e v hget
    rw [hkeep k (Dict.mem_keys_iff.mpr ⟨_, hget⟩)]
    exact h.sound hget
  recent := h.recent
  complete := fun hset hclock hnow hk => h.complete (hlast _ _ _ hset hk)
    (fun y hy => hclock y (List.mem_append_left _ hy)) hnow hk
  size := h.size

theorem Tracks.get (h : c.Tracks xs us) :
    (c.get now key).1.Tracks (xs ++ [(now, .get key)])
      (us ++ (used (.get key) (.value (c.get now key).2)).toList) := by
  have hlast : ∀ k, lastSet k (xs ++ [(now, .get key)]) = lastSet k xs := fun k => lastSet_concat
  unfold MemoryCache.get
  cases hget : c.data.get? key with
  | none =>
    simp only [used, Option.toList_none, List.append_nil]
    exact h.skip (fun k t v hset _ => hlast k ▸ hset) fun k _ => hlast k
  | some e =>
    obtain ⟨expiresAt, value⟩ := e
    simp only
    by_cases hexp : expiresAt < now
    · rw [if_pos hexp]
      simp only [used, Option.toList_none, List.append_nil]
      refine h.erase (fun k _ => hlast k) fun t v hset => ?_
      rw [hlast] at hset
      exact lt_of_not_ge fun hnow => absurd (h.unexpired hget hset hnow) (not_le.mpr hexp)
    · rw [if_neg hexp]
      have hmem : key ∈ c.data.keys := Dict.mem_keys_iff.mpr ⟨_, hget⟩
      have hkeys : (c.data.moveToEnd key).keys = touch key c.data.keys := Dict.keys_moveToEnd hmem
      simp only [used, Option.toList_some]
      refine ⟨?_, ?_, ?_, ?_⟩
      · intro k e v hk
        rw [hlast]
        simp only [Dict.get?_moveToEnd] at hk
        exact h.sound hk
      · intro k hk
        simp only [hkeys, mem_touch] at hk ⊢
        by_cases hkey : k = key
        · rw [hkey]
          exact recent_touch_self
        · exact (h.recent (hk.resolve_left hkey)).touch (Ne.symm hkey)
      · intro k t v at' hset hclock hnow hk
        simp only [hkeys, mem_touch, not_or] at hk
        rw [hlast] at hset
        exact (h.complete hset (fun y hy => hclock y (List.mem_append_left _ hy)) hnow hk.2).trans
          (card_since_le (Ne.symm hk.1))
      · simp only [hkeys]
        exact (length_touch c.data.nodup hmem).trans_le h.size

theorem Tracks.set (h : c.Tracks xs us) :
    (c.set now key value).Tracks (xs ++ [(now, .set key value)]) (us ++ [key]) where
  sound := by
    intro k e v hget
    have hold := get?_set hget
    rw [lastSet_concat, remember]
    by_cases hk : k = key
    · rw [if_pos hk] at hold
      obtain ⟨rfl, rfl⟩ := Prod.mk.inj hold
      exact ⟨now, if_pos hk.symm, rfl⟩
    · rw [if_neg hk] at hold
      rw [if_neg (Ne.symm hk)]
      exact h.sound hold
  recent := by
    intro k hk
    rw [keys_set] at hk ⊢
    refine Recent.drop ?_ (nodup_touch c.data.nodup) hk
    by_cases hkey : k = key
    · rw [hkey]
      exact recent_touch_self
    · have hmem := (mem_touch.mp (List.mem_of_mem_drop hk)).resolve_left hkey
      exact (h.recent hmem).touch (Ne.symm hkey)
  complete := by
    intro k t v at' hset hclock hnow hk
    rw [keys_set] at hk
    by_cases hkey : k = key
    · rw [hkey] at hk ⊢
      exact recent_touch_self.card_of_dropped (nodup_touch c.data.nodup) hk
    · rw [lastSet_concat, remember, if_neg (Ne.symm hkey)] at hset
      by_cases hmem : k ∈ c.data.keys
      · exact ((h.recent hmem).touch (Ne.symm hkey)).card_of_dropped (nodup_touch c.data.nodup) hk
      · exact (h.complete hset (fun y hy => hclock y (List.mem_append_left _ hy)) hnow hmem).trans
          (card_since_le (Ne.symm hkey))
  size := by
    rw [keys_set, List.length_drop]
    change _ ≤ c.maxSize
    omega

theorem Tracks.delete (h : c.Tracks xs us) :
    (c.delete key).1.Tracks (xs ++ [(now, .delete key)]) us := by
  have hother : ∀ k, k ≠ key → lastSet k (xs ++ [(now, .delete key)]) = lastSet k xs := by
    intro k hk
    rw [lastSet_concat, remember, if_neg (Ne.symm hk)]
  have hgone : lastSet key (xs ++ [(now, .delete key)]) = none := by
    rw [lastSet_concat, remember, if_pos rfl]
  unfold MemoryCache.delete
  by_cases hmem : key ∈ c.data.keys
  · rw [if_pos hmem]
    exact h.erase hother fun t v hset => absurd (hgone.symm.trans hset) (by simp)
  · rw [if_neg hmem]
    refine h.skip (fun k t v hset _ => ?_) fun k hk => hother k (ne_of_mem_of_not_mem hk hmem)
    by_cases hkey : k = key
    · rw [hkey, hgone] at hset
      cases hset
    · rwa [hother k hkey] at hset

theorem tracks_clear : c.clear.Tracks (xs ++ [(now, .clear)]) us where
  sound := by
    rintro k e v ⟨⟩
  recent := by
    rintro k ⟨⟩
  complete := by
    intro k t v at' hset
    rw [lastSet_concat, remember] at hset
    cases hset
  size := Nat.zero_le _

theorem Tracks.step (h : c.Tracks xs us) :
    (c.step x).1.Tracks (xs ++ [x]) (us ++ (used x.2 (c.step x).2).toList) := by
  obtain ⟨now, call⟩ := x
  cases call with
  | get key => exact h.get
  | set key value => exact h.set
  | delete key =>
    simp only [used, Option.toList_none, List.append_nil]
    exact h.delete
  | clear =>
    simp only [used, Option.toList_none, List.append_nil]
    exact tracks_clear

/-- After any run the cache tracks the calls that were made. -/
theorem tracks_run (h : init maxSize ttl = .ok c) (xs : List (ℚ × Call α)) :
    (Machines.final step c xs).Tracks xs (uses c xs) := by
  induction xs using List.reverseRecOn with
  | nil => exact (tracks_init h).1
  | append_singleton xs x ih =>
    rw [Machines.final_append, uses_concat]
    exact ih.step

theorem step_bounds :
    (c.step x).1.maxSize = c.maxSize ∧ (c.step x).1.ttlSeconds = c.ttlSeconds := by
  obtain ⟨now, call⟩ := x
  cases call with
  | get key =>
    simp only [MemoryCache.step, MemoryCache.get]
    split
    · exact ⟨rfl, rfl⟩
    · split_ifs <;> exact ⟨rfl, rfl⟩
  | set key value => exact ⟨rfl, rfl⟩
  | delete key =>
    simp only [MemoryCache.step, MemoryCache.delete]
    split_ifs <;> exact ⟨rfl, rfl⟩
  | clear => exact ⟨rfl, rfl⟩

theorem run_bounds (c : MemoryCache α) (xs : List (ℚ × Call α)) :
    (Machines.final step c xs).maxSize = c.maxSize ∧
      (Machines.final step c xs).ttlSeconds = c.ttlSeconds := by
  induction xs generalizing c with
  | nil => exact ⟨rfl, rfl⟩
  | cons x xs ih =>
    rw [Machines.final_cons, (ih (c.step x).1).1, (ih (c.step x).1).2]
    exact step_bounds

theorem get_eq_some_iff : (c.get now key).2 = some v ↔ ∃ e, c.data.get? key = some (e, v) ∧ now ≤ e := by
  unfold MemoryCache.get
  cases hget : c.data.get? key with
  | none => simp
  | some e =>
    obtain ⟨expiresAt, value⟩ := e
    by_cases hexp : expiresAt < now
    · simp only [if_pos hexp, Option.some.injEq, Prod.mk.injEq, reduceCtorEq, false_iff]
      rintro ⟨e, ⟨rfl, -⟩, hle⟩
      exact absurd hexp (not_lt.mpr hle)
    · simp only [if_neg hexp, Option.some.injEq, Prod.mk.injEq]
      constructor
      · rintro rfl
        exact ⟨expiresAt, ⟨rfl, rfl⟩, not_lt.mp hexp⟩
      · rintro ⟨e, ⟨-, hv⟩, -⟩
        exact hv

theorem get_snd :
    (c.get now key).2 = ((c.data.get? key).filter fun e => now ≤ e.1).map Prod.snd := by
  ext v
  rw [← Option.mem_def, Option.mem_def, get_eq_some_iff]
  simp [Option.map_eq_some_iff, Option.filter_eq_some_iff]

theorem get?_delete :
    (c.delete key).1.data.get? k = if k = key then none else c.data.get? k := by
  unfold MemoryCache.delete
  by_cases hmem : key ∈ c.data.keys
  · rw [if_pos hmem]
    exact Dict.get?_erase_eq
  · rw [if_neg hmem]
    split_ifs with hk
    · rw [hk, Option.eq_none_iff_forall_ne_some]
      exact fun e he => hmem (Dict.mem_keys_iff.mpr ⟨e, he⟩)
    · rfl

theorem get?_deleteAll {keys : List String} :
    (keys.foldl (fun c key => (c.delete key).1) c).data.get? k =
      if k ∈ keys then none else c.data.get? k := by
  induction keys generalizing c with
  | nil => simp
  | cons key keys ih =>
    rw [List.foldl_cons, ih, get?_delete]
    by_cases hk : k = key <;> simp [hk]

/-- What was just set is found until it expires. -/
theorem get_set_self {now' : ℚ} (hpos : 0 < c.maxSize) (h : now' ≤ now + c.ttlSeconds) :
    ((c.set now key value).get now' key).2 = some value := by
  have hmem : key ∈ (c.set now key value).data.keys := by
    rw [keys_set, touch, List.length_append, List.length_singleton,
      List.drop_append_of_le_length (by omega)]
    simp
  obtain ⟨e, hget⟩ := Dict.mem_keys_iff.mp hmem
  have he := get?_set hget
  rw [if_pos rfl] at he
  exact get_eq_some_iff.mpr ⟨_, he ▸ hget, h⟩

/-- `values` lists what a get would find. -/
theorem mem_values_iff : v ∈ c.values now ↔ ∃ key, (c.get now key).2 = some v := by
  simp only [values, List.mem_map, List.mem_filter, decide_eq_true_eq, get_eq_some_iff,
    Dict.get?_eq_some_iff]
  constructor
  · rintro ⟨⟨key, e, w⟩, ⟨hmem, hle⟩, rfl⟩
    exact ⟨key, e, hmem, hle⟩
  · rintro ⟨key, e, hmem, hle⟩
    exact ⟨(key, e, v), ⟨hmem, hle⟩, rfl⟩

/-- A cache is a bounded map that forgets: what it returns is the last value set, not older than
`ttl_seconds`; such a value is returned as long as fewer than `max_size` other keys were used after
its own; and there are never more than `max_size` entries. -/
theorem memoryCache_correct (h : init maxSize ttl = .ok c) (xs : List (ℚ × Call α)) :
    (∀ key now, (∀ x ∈ xs, x.1 ≤ now) →
      (∀ v, ((Machines.final step c xs).get now key).2 = some v →
        ∃ t, lastSet key xs = some (t, v) ∧ now ≤ t + ttl) ∧
      (∀ t v, lastSet key xs = some (t, v) → now ≤ t + ttl →
        ((since key (uses c xs)).toFinset.card : ℤ) < maxSize →
        ((Machines.final step c xs).get now key).2 = some v)) ∧
    ((Machines.final step c xs).data.entries.length : ℤ) ≤ maxSize := by
  obtain ⟨-, hmax, httl⟩ := tracks_init h
  obtain ⟨hmax', httl'⟩ := run_bounds c xs
  have htracks := tracks_run h xs
  rw [← hmax, ← httl, ← hmax', ← httl']
  refine ⟨fun key now hclock => ⟨?_, ?_⟩, ?_⟩
  · intro v hget
    obtain ⟨e, hentry, hle⟩ := get_eq_some_iff.mp hget
    obtain ⟨t, hlast, rfl⟩ := htracks.sound hentry
    exact ⟨t, hlast, hle⟩
  · intro t v hlast hle hfew
    have hmem : key ∈ (Machines.final step c xs).data.keys := by
      by_contra hnot
      have := htracks.complete hlast hclock hle hnot
      omega
    obtain ⟨⟨e, w⟩, hentry⟩ := Dict.mem_keys_iff.mp hmem
    obtain ⟨t', hlast', rfl⟩ := htracks.sound hentry
    obtain ⟨rfl, rfl⟩ := Prod.mk.inj (Option.some.inj (hlast.symm.trans hlast'))
    exact get_eq_some_iff.mpr ⟨_, hentry, hle⟩
  · have hlen := htracks.size
    rw [Dict.keys, List.length_map] at hlen
    exact_mod_cast hlen

/-- `b` is set after `a` and both fit; a hit on `a` then makes `b` the one that `c` drives out. -/
theorem hit_kept :
    init 2 900 = .ok (⟨2, 900, Dict.empty⟩ : MemoryCache ℕ) ∧
    ((Machines.final step (⟨2, 900, Dict.empty⟩ : MemoryCache ℕ)
      [(0, .set "a" 1), (1, .set "b" 2), (2, .get "a"), (3, .set "c" 3)]).get 900 "a").2 = some 1 :=
  ⟨rfl, ((@memoryCache_correct ℕ ⟨2, 900, Dict.empty⟩ 900 2 rfl
    [(0, .set "a" 1), (1, .set "b" 2), (2, .get "a"), (3, .set "c" 3)]).1 "a" 900 (by decide)).2
    0 1 (by decide) (by norm_num) (by decide +kernel)⟩

end MemoryCache

end Pyharmonics
