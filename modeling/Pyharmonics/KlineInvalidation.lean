import Pyharmonics.KlineCache

/-! Dropping cached frames by a pattern over the requests they answer. -/
namespace Pyharmonics

variable {S ρ : Type}

/-- A request of the adapter. -/
structure KLineRequest where
  market : String
  symbol : String
  interval : String
  limit : ℕ
  deriving DecidableEq

/-- What a pattern is over. -/
def KLineRequest.text (r : KLineRequest) : String := r.market ++ ":" ++ r.symbol ++ ":" ++ r.interval

/-- A frame that was fetched for a request. -/
structure FetchedKLines (S : Type) where
  request : KLineRequest
  frame : PriceFrame S
  source : String
  fetchedAt : String
  latencyMs : PyFloat

namespace KLineCache

/-- `pattern.replace("*", ".*").replace("?", ".")` -/
def regexPattern (pattern : String) : String :=
  String.ofList (pattern.toList.flatMap fun c =>
    if c = '*' then ['.', '*'] else if c = '?' then ['.'] else [c])

section

variable (R : RedisClient ρ) (T : Texts S) (compile : String → Except PyError (String → Bool))
  (c : KLineCache ρ) (now : ℚ) (pattern : String)

/-- `fetch_market_data` after a fetch, and `_cache_candle_data`. -/
def cacheCandleData (x : FetchedKLines S) : KLineCache ρ :=
  c.set R T now (makeKey T x.request.market x.request.symbol x.request.interval x.request.limit) x.frame
    ⟨x.source, x.request.market, "", "", x.fetchedAt, x.latencyMs, "v1"⟩

/-- The keys in the buckets whose text the pattern is found in. -/
def keysToDelete (search : String → Bool) : List String :=
  (c.patternIndex.entries.filter fun e => search e.1).foldl (fun keys e => e.2 ∪ keys) []

/-- The last part of `invalidate`. -/
def invalidateMemory : KLineCache ρ × ℕ :=
  match compile (regexPattern pattern) with
  | .error _ => (c, 0)
  | .ok search =>
    let keys := c.keysToDelete search
    ({ c with
        memory := (keys.foldl (fun memory key => (memory.delete key).1) c.memoryCache).data
        patternIndex := (c.patternIndex.mapValues fun bucket => bucket.filter (· ∉ keys)).filter
          fun e => !e.2.isEmpty }, keys.length)

/-- `re.compile` may raise; the pattern it returns searches a text. -/
def invalidate : KLineCache ρ × ℕ :=
  if c.enabled = false then (c, 0)
  else
    match c.redis with
    | some r =>
      let keys := R.keys r now (keyPrefix ++ pattern)
      if keys ≠ [] then ({ c with redis := some (R.delete r now keys).1 }, (R.delete r now keys).2)
      else c.invalidateMemory compile pattern
    | none => c.invalidateMemory compile pattern

/-- The frames of a run, each at its time. -/
def fill (xs : List (ℚ × FetchedKLines S)) : KLineCache ρ :=
  xs.foldl (fun c x => c.cacheCandleData R T x.1 x.2) c

/-- There is an entry that has not expired. -/
def Live (key : String) : Prop := (c.getRaw R now key).2.isSome

end

def keyOf (T : Texts S) (r : KLineRequest) : String := makeKey T r.market r.symbol r.interval r.limit

/-- The request of the last frame that was stored under a key. -/
def requestOf (T : Texts S) (xs : List (ℚ × FetchedKLines S)) (key : String) : Option KLineRequest :=
  (xs.reverse.find? fun x => keyOf T x.2.request = key).map fun x => x.2.request

/-- The request behind a key is one of the pattern. -/
def Matches (T : Texts S) (glob : String → String → Bool) (xs : List (ℚ × FetchedKLines S))
    (pattern key : String) : Prop :=
  ∃ r, requestOf T xs key = some r ∧ glob pattern r.text

/-- `n` keys are so. -/
def Counts (n : ℕ) (P : String → Prop) : Prop :=
  ∃ keys : List String, keys.Nodup ∧ (∀ key, key ∈ keys ↔ P key) ∧ n = keys.length

/-- `invalidate` leaves what does not match as it was, drops what matches and counts it. -/
structure Invalidates (R : RedisClient ρ) (compile : String → Except PyError (String → Bool))
    (c : KLineCache ρ) (now : ℚ) (pattern : String) (matching : String → Prop) : Prop where
  kept : ∀ key, ¬ matching key →
    ((c.invalidate R compile now pattern).1.getRaw R now key).2 = (c.getRaw R now key).2
  dropped : ∀ key, matching key → ¬ (c.invalidate R compile now pattern).1.Live R now key
  count : Counts (c.invalidate R compile now pattern).2 fun key => c.Live R now key ∧ matching key

/-- On a cache with a client and on one without, after the same frames, `invalidate` does what it
says, and the same where the same entries are left. -/
structure InvalidatesBoth (R : RedisClient ρ) (T : Texts S) (glob : String → String → Bool)
    (compile : String → Except PyError (String → Bool)) (enabled : Bool) (ttlSeconds : ℚ) (r : ρ)
    (xs : List (ℚ × FetchedKLines S)) (now : ℚ) (pattern : String) : Prop where
  redis : ((init enabled ttlSeconds (some r)).fill R T xs).Invalidates R compile now pattern
    (Matches T glob xs pattern)
  memory : ((init enabled ttlSeconds none).fill R T xs).Invalidates R compile now pattern
    (Matches T glob xs pattern)
  same : (∀ key, ((init enabled ttlSeconds (some r)).fill R T xs).Live R now key ↔
      ((init enabled ttlSeconds none).fill R T xs).Live R now key) →
    (((init enabled ttlSeconds (some r)).fill R T xs).invalidate R compile now pattern).2 =
      (((init enabled ttlSeconds none).fill R T xs).invalidate R compile now pattern).2

/-- Some frame was stored under the key by a market that the regular expression is found in. -/
def Found (T : Texts S) (compile : String → Except PyError (String → Bool))
    (xs : List (ℚ × FetchedKLines S)) (pattern key : String) : Prop :=
  ∃ search, compile (regexPattern pattern) = .ok search ∧
    ∃ x ∈ xs, keyOf T x.2.request = key ∧ search (x.2.request.market ++ "::")

/-- What a client does with `keys` and `delete`: it finds the live keys of a pattern, and deletes
and counts those it is given. -/
structure Deletes (R : RedisClient ρ) (glob : String → String → Bool) : Prop where
  keys_nodup : ∀ r now pattern, (R.keys r now pattern).Nodup
  mem_keys : ∀ r now pattern key,
    key ∈ R.keys r now pattern ↔ (R.get r now key).isSome ∧ glob pattern key
  get_delete : ∀ r now keys key,
    R.get (R.delete r now keys).1 now key = if key ∈ keys then none else R.get r now key
  count_delete : ∀ r now keys, keys.Nodup → (∀ key ∈ keys, (R.get r now key).isSome) →
    (R.delete r now keys).2 = keys.length

section

variable {n k : ℕ} {P Q : String → Prop}

theorem Counts.congr (h : Counts n P) (hiff : ∀ key, P key ↔ Q key) : Counts n Q := by
  obtain ⟨keys, hnodup, hmem, hlen⟩ := h
  exact ⟨keys, hnodup, fun key => (hmem key).trans (hiff key), hlen⟩

theorem Counts.unique (h : Counts n P) (h' : Counts k P) : n = k := by
  obtain ⟨keys, hnodup, hmem, rfl⟩ := h
  obtain ⟨keys', hnodup', hmem', rfl⟩ := h'
  refine List.Perm.length_eq ((List.perm_ext_iff_of_nodup hnodup hnodup').mpr fun key => ?_)
  exact (hmem key).trans (hmem' key).symm

/-- As many keys of a kind as of a wider kind: there are no others. -/
theorem Counts.of_le (h : Counts n P) (h' : Counts n Q) (hle : ∀ key, P key → Q key) :
    ∀ key, Q key → P key := by
  obtain ⟨keys, hnodup, hmem, rfl⟩ := h
  obtain ⟨keys', -, hmem', hlen⟩ := h'
  have hsub : keys ⊆ keys' := fun key hkey => (hmem' key).mpr (hle key ((hmem key).mp hkey))
  have hperm := (List.subperm_of_subset hnodup hsub).perm_of_length_le hlen.ge
  intro key hkey
  exact (hmem key).mp (hperm.mem_iff.mpr ((hmem' key).mpr hkey))

end

section

variable {R : RedisClient ρ} {T : Texts S} {glob : String → String → Bool}
  {compile : String → Except PyError (String → Bool)} {c : KLineCache ρ} {now : ℚ}
  {pattern key : String} {matching hit : String → Prop} {xs : List (ℚ × FetchedKLines S)}
  {x : ℚ × FetchedKLines S} {r : ρ}

/-- Where `invalidate` drops the keys of one kind, it is right about those of another kind if they
are the same among the live ones. -/
theorem kept_dropped_iff
    (hhit : ∀ key, hit key → ((c.invalidate R compile now pattern).1.getRaw R now key).2 = none)
    (hnot : ∀ key, ¬ hit key → ((c.invalidate R compile now pattern).1.getRaw R now key).2 =
      (c.getRaw R now key).2) :
    ((∀ key, ¬ matching key →
        ((c.invalidate R compile now pattern).1.getRaw R now key).2 = (c.getRaw R now key).2) ∧
      ∀ key, matching key → ¬ (c.invalidate R compile now pattern).1.Live R now key) ↔
    ∀ key, c.Live R now key → (matching key ↔ hit key) := by
  constructor
  · rintro ⟨hkept, hdropped⟩ key hlive
    constructor
    · intro hm
      by_contra hno
      refine hdropped key hm ?_
      rw [Live, hnot key hno]
      exact hlive
    · intro hh
      by_contra hno
      rw [Live, ← hkept key hno, hhit key hh] at hlive
      cases hlive
  · intro h
    refine ⟨fun key hm => ?_, fun key hm hlive => ?_⟩
    · by_cases hh : hit key
      · rw [hhit key hh]
        by_contra hsome
        exact hm ((h key (Option.ne_none_iff_isSome.mp (Ne.symm hsome))).mpr hh)
      · exact hnot key hh
    · by_cases hh : hit key
      · rw [Live, hhit key hh] at hlive
        cases hlive
      · rw [Live, hnot key hh] at hlive
        exact hh ((h key hlive).mp hm)

theorem getRaw_redis (hredis : c.redis = some r) : (c.getRaw R now key).2 = R.get r now key := by
  unfold getRaw
  rw [hredis]

theorem getRaw_memory (hredis : c.redis = none) :
    (c.getRaw R now key).2 = ((c.memory.get? key).filter fun e => now ≤ e.1).map Prod.snd := by
  unfold getRaw
  rw [hredis]
  exact MemoryCache.get_snd

theorem redis_invalidateMemory : (c.invalidateMemory compile pattern).1.redis = c.redis := by
  unfold invalidateMemory
  split <;> rfl

/-- On Redis the pattern is matched against the keys. -/
theorem invalidates_redis_iff (hR : Deletes R glob) (henabled : c.enabled = true)
    (hredis : c.redis = some r) (hindex : c.patternIndex = Dict.empty) :
    c.Invalidates R compile now pattern matching ↔
      ∀ key, c.Live R now key → (matching key ↔ glob (keyPrefix ++ pattern) key) := by
  have hlive : ∀ key, c.Live R now key ↔ (R.get r now key).isSome := fun key => by
    rw [Live, getRaw_redis hredis]
  have hmem := hR.mem_keys r now (keyPrefix ++ pattern)
  -- what is read afterwards, and what is counted
  have hafter : (∀ key, ((c.invalidate R compile now pattern).1.getRaw R now key).2 =
      if key ∈ R.keys r now (keyPrefix ++ pattern) then none else (c.getRaw R now key).2) ∧
      (c.invalidate R compile now pattern).2 = (R.keys r now (keyPrefix ++ pattern)).length := by
    unfold invalidate
    rw [if_neg (by simp [henabled]), hredis]
    by_cases hkeys : R.keys r now (keyPrefix ++ pattern) = []
    · simp only [hkeys, ne_eq, not_true_eq_false, if_false, List.not_mem_nil, List.length_nil]
      refine ⟨fun key => ?_, ?_⟩
      · rw [getRaw_redis (redis_invalidateMemory.trans hredis), getRaw_redis hredis]
      · unfold invalidateMemory
        split
        · rfl
        · simp only [keysToDelete, hindex]
          rfl
    · simp only [hkeys, ne_eq, not_false_eq_true, if_true]
      refine ⟨fun key => ?_, ?_⟩
      · rw [getRaw_redis rfl, getRaw_redis hredis, hR.get_delete]
      · exact hR.count_delete _ _ _ (hR.keys_nodup _ _ _) fun key hkey => ((hmem key).mp hkey).1
  obtain ⟨hreads, hcount⟩ := hafter
  have hiff := @kept_dropped_iff _ R compile c now pattern matching
    (fun key => key ∈ R.keys r now (keyPrefix ++ pattern))
    (fun key h => by rw [hreads, if_pos h]) fun key h => by rw [hreads, if_neg h]
  have hsame : (∀ key, c.Live R now key →
      (matching key ↔ key ∈ R.keys r now (keyPrefix ++ pattern))) ↔
      ∀ key, c.Live R now key → (matching key ↔ glob (keyPrefix ++ pattern) key) := by
    refine forall_congr' fun key => imp_congr_right fun h => ?_
    rw [hmem, and_iff_right ((hlive key).mp h)]
  constructor
  · intro h
    exact hsame.mp (hiff.mp ⟨h.kept, h.dropped⟩)
  · intro h
    obtain ⟨hkept, hdropped⟩ := hiff.mpr (hsame.mpr h)
    refine ⟨hkept, hdropped, _, hR.keys_nodup r now (keyPrefix ++ pattern), fun key => ?_, hcount⟩
    rw [hmem, ← hlive]
    exact and_congr_right fun hl => (h key hl).symm

theorem nodup_mem_keysToDelete (search : String → Bool) : (c.keysToDelete search).Nodup ∧
    ∀ key, key ∈ c.keysToDelete search ↔
      ∃ e ∈ c.patternIndex.entries, search e.1 ∧ key ∈ e.2 := by
  have hfold : ∀ (es : List (String × List String)) (keys : List String), keys.Nodup →
      (es.foldl (fun keys e => e.2 ∪ keys) keys).Nodup ∧
        ∀ key, key ∈ es.foldl (fun keys e => e.2 ∪ keys) keys ↔ key ∈ keys ∨ ∃ e ∈ es, key ∈ e.2 := by
    intro es
    induction es with
    | nil => exact fun keys hkeys => ⟨hkeys, fun key => by simp⟩
    | cons e es ih =>
      intro keys hkeys
      obtain ⟨hnodup, hmem⟩ := ih (e.2 ∪ keys) (List.Nodup.union e.2 hkeys)
      refine ⟨hnodup, fun key => (hmem key).trans ?_⟩
      rw [List.mem_union_iff, List.exists_mem_cons_iff, or_assoc, or_left_comm]
  obtain ⟨hnodup, hmem⟩ := hfold (c.patternIndex.entries.filter fun e => search e.1) [] List.nodup_nil
  refine ⟨hnodup, fun key => (hmem key).trans ?_⟩
  simp [and_assoc]

/-- In memory the pattern is searched in the texts of the index. -/
theorem invalidates_memory_iff (henabled : c.enabled = true) (hredis : c.redis = none)
    (hindex : ∀ search, compile (regexPattern pattern) = .ok search →
      (c.keysToDelete search).Nodup ∧ ∀ key, key ∈ c.keysToDelete search ↔ hit key)
    (hraise : ∀ e, compile (regexPattern pattern) = .error e → ∀ key, ¬ hit key) :
    c.Invalidates R compile now pattern matching ↔
      (∀ key, c.Live R now key → (matching key ↔ hit key)) ∧ ∀ key, hit key → c.Live R now key := by
  have hinvalidate : c.invalidate R compile now pattern = c.invalidateMemory compile pattern := by
    unfold invalidate
    rw [if_neg (by simp [henabled]), hredis]
  have hreads : (∀ key, hit key →
        ((c.invalidate R compile now pattern).1.getRaw R now key).2 = none) ∧
      ∀ key, ¬ hit key → ((c.invalidate R compile now pattern).1.getRaw R now key).2 =
        (c.getRaw R now key).2 := by
    rw [hinvalidate]
    unfold invalidateMemory
    cases hcompile : compile (regexPattern pattern) with
    | error e => exact ⟨fun key h => (hraise e hcompile key h).elim, fun key _ => rfl⟩
    | ok search =>
      have hread : ∀ c' : KLineCache ρ, c'.redis = none →
          c'.memory = ((c.keysToDelete search).foldl (fun memory key => (memory.delete key).1)
            c.memoryCache).data →
          ∀ key, (c'.getRaw R now key).2 =
            if key ∈ c.keysToDelete search then none else (c.getRaw R now key).2 := by
        intro c' hredis' hmemory key
        rw [getRaw_memory hredis', getRaw_memory hredis, hmemory, MemoryCache.get?_deleteAll]
        split_ifs <;> rfl
      refine ⟨fun key h => ?_, fun key h => ?_⟩
      · refine (hread _ ?_ rfl key).trans (if_pos (((hindex search hcompile).2 key).mpr h))
        exact hredis
      · refine (hread _ ?_ rfl key).trans (if_neg (mt ((hindex search hcompile).2 key).mp h))
        exact hredis
  have hcount : Counts (c.invalidate R compile now pattern).2 hit := by
    rw [hinvalidate]
    unfold invalidateMemory
    cases hcompile : compile (regexPattern pattern) with
    | error e =>
      refine ⟨[], List.nodup_nil, fun key => ?_, rfl⟩
      exact iff_of_false List.not_mem_nil (hraise e hcompile key)
    | ok search => exact ⟨_, (hindex search hcompile).1, (hindex search hcompile).2, rfl⟩
  have hiff := @kept_dropped_iff _ R compile c now pattern matching hit hreads.1 hreads.2
  constructor
  · intro h
    have hsame := hiff.mp ⟨h.kept, h.dropped⟩
    refine ⟨hsame, fun key hh => ?_⟩
    refine (h.count.of_le hcount (fun key hkey => ?_) key hh).1
    exact (hsame key hkey.1).mp hkey.2
  · rintro ⟨hsame, hlive⟩
    obtain ⟨hkept, hdropped⟩ := hiff.mpr hsame
    refine ⟨hkept, hdropped, hcount.congr fun key => ?_⟩
    exact ⟨fun hh => ⟨hlive key hh, (hsame key (hlive key hh)).mpr hh⟩,
      fun h => (hsame key h.1).mp h.2⟩

/-- The buckets of the index are those of the markets; nothing is indexed beside a client. -/
structure Indexed (T : Texts S) (c : KLineCache ρ) (xs : List (ℚ × FetchedKLines S)) : Prop where
  enabled : c.enabled = true
  buckets : c.redis = none → ∀ params key, key ∈ c.patternIndex.getD params [] ↔
    ∃ x ∈ xs, keyOf T x.2.request = key ∧ params = x.2.request.market ++ "::"
  client : c.redis.isSome → c.patternIndex = Dict.empty

theorem indexed_init {ttlSeconds : ℚ} {redis : Option ρ} :
    Indexed T (init true ttlSeconds redis) [] where
  enabled := rfl
  buckets := by
    intro _ params key
    simp [init, Dict.getD, Dict.get?, Dict.empty]
  client := fun _ => rfl

theorem Indexed.step (h : Indexed T c xs) : Indexed T (c.cacheCandleData R T x.1 x.2) (xs ++ [x]) := by
  unfold cacheCandleData set
  rw [if_neg (by simp [h.enabled])]
  cases hredis : c.redis with
  | some r =>
    simp only [setRaw, hredis]
    refine ⟨h.enabled, ?_, fun _ => h.client (by simp [hredis])⟩
    rintro ⟨⟩
  | none =>
    simp only [setRaw, hredis]
    refine ⟨h.enabled, fun _ params key => ?_, ?_⟩
    swap
    · rintro ⟨⟩
    have hparams : x.2.request.market ++ ":" ++ "" ++ ":" ++ "" = x.2.request.market ++ "::" := by
      rw [String.append_empty, String.append_empty, String.append_assoc]
      rfl
    simp only [hparams, Dict.getD_set, List.mem_append, List.mem_singleton, or_and_right, exists_or,
      exists_eq_left, ← h.buckets hredis params key]
    by_cases hp : params = x.2.request.market ++ "::"
    · rw [if_pos hp, List.mem_insert_iff, ← hp, and_iff_left rfl, or_comm, eq_comm]
      rfl
    · rw [if_neg hp]
      simp [hp]

theorem fill_concat : c.fill R T (xs ++ [x]) = (c.fill R T xs).cacheCandleData R T x.1 x.2 := by
  rw [fill, List.foldl_append]
  rfl

theorem indexed_fill {ttlSeconds : ℚ} {redis : Option ρ} (xs : List (ℚ × FetchedKLines S)) :
    Indexed T ((init true ttlSeconds redis).fill R T xs) xs := by
  induction xs using List.reverseRecOn with
  | nil => exact indexed_init
  | append_singleton xs x ih =>
    rw [fill_concat]
    exact ih.step

theorem isSome_redis_cacheCandleData {y : FetchedKLines S} :
    (c.cacheCandleData R T now y).redis.isSome = c.redis.isSome := by
  unfold cacheCandleData set
  split
  · rfl
  · cases hredis : c.redis <;> simp [setRaw, hredis]

theorem isSome_redis_fill (xs : List (ℚ × FetchedKLines S)) :
    (c.fill R T xs).redis.isSome = c.redis.isSome := by
  induction xs using List.reverseRecOn with
  | nil => rfl
  | append_singleton xs x ih => rw [fill_concat, isSome_redis_cacheCandleData, ih]

theorem fill_disabled (h : c.enabled = false) (xs : List (ℚ × FetchedKLines S)) :
    c.fill R T xs = c := by
  induction xs using List.reverseRecOn with
  | nil => rfl
  | append_singleton xs x ih => rw [fill_concat, ih, cacheCandleData, set, if_pos h]

theorem invalidates_disabled {ttlSeconds : ℚ} {redis : Option ρ} :
    (init false ttlSeconds redis).Invalidates R compile now pattern matching := by
  have hinvalidate : (init false ttlSeconds redis).invalidate R compile now pattern =
      (init false ttlSeconds redis, 0) := if_pos rfl
  have hdead : ∀ key, ¬ (init false ttlSeconds redis).Live R now key := fun key h => by cases h
  refine ⟨fun key _ => by rw [hinvalidate], fun key _ => by rw [hinvalidate]; exact hdead key, ?_⟩
  rw [hinvalidate]
  exact ⟨[], List.nodup_nil, fun key => iff_of_false List.not_mem_nil fun h => hdead key h.1, rfl⟩

/-- In memory the keys that go are those of the markets that the pattern is found in. -/
theorem Indexed.mem_keysToDelete (h : Indexed T c xs) (hredis : c.redis = none)
    (search : String → Bool) : key ∈ c.keysToDelete search ↔
      ∃ x ∈ xs, keyOf T x.2.request = key ∧ search (x.2.request.market ++ "::") := by
  have hbucket : ∀ params, key ∈ c.patternIndex.getD params [] ↔
      ∃ e ∈ c.patternIndex.entries, e.1 = params ∧ key ∈ e.2 := by
    intro params
    constructor
    · intro hkey
      cases hget : c.patternIndex.get? params with
      | none => simp [Dict.getD, hget] at hkey
      | some bucket =>
        rw [Dict.getD_of_get? hget] at hkey
        exact ⟨_, Dict.get?_eq_some_iff.mp hget, rfl, hkey⟩
    · rintro ⟨⟨params, bucket⟩, he, rfl, hkey⟩
      rwa [Dict.getD_of_get? (Dict.get?_eq_some_iff.mpr he)]
  rw [(nodup_mem_keysToDelete search).2]
  constructor
  · rintro ⟨e, he, hsearch, hkey⟩
    obtain ⟨x, hx, hkeyOf, hparams⟩ := (h.buckets hredis _ _).mp ((hbucket e.1).mpr ⟨e, he, rfl, hkey⟩)
    exact ⟨x, hx, hkeyOf, hparams ▸ hsearch⟩
  · rintro ⟨x, hx, hkeyOf, hsearch⟩
    obtain ⟨e, he, hparams, hkey⟩ := (hbucket _).mp ((h.buckets hredis _ _).mpr ⟨x, hx, hkeyOf, rfl⟩)
    exact ⟨e, he, hparams ▸ hsearch, hkey⟩

theorem fill_invalidates_redis_iff (hR : Deletes R glob) {ttlSeconds : ℚ}
    (xs : List (ℚ × FetchedKLines S)) :
    ((init true ttlSeconds (some r)).fill R T xs).Invalidates R compile now pattern matching ↔
      ∀ key, ((init true ttlSeconds (some r)).fill R T xs).Live R now key →
        (matching key ↔ glob (keyPrefix ++ pattern) key) := by
  have hindexed := @indexed_fill _ _ R T ttlSeconds (some r) xs
  obtain ⟨r', hr'⟩ := Option.isSome_iff_exists.mp
    ((isSome_redis_fill (R := R) (T := T) (c := init true ttlSeconds (some r)) xs).trans rfl)
  exact invalidates_redis_iff hR hindexed.enabled hr' (hindexed.client (by simp [hr']))

theorem fill_invalidates_memory_iff {ttlSeconds : ℚ} (xs : List (ℚ × FetchedKLines S)) :
    ((init true ttlSeconds none).fill R T xs).Invalidates R compile now pattern matching ↔
      (∀ key, ((init true ttlSeconds none).fill R T xs).Live R now key →
        (matching key ↔ Found T compile xs pattern key)) ∧
      ∀ key, Found T compile xs pattern key →
        ((init true ttlSeconds none).fill R T xs).Live R now key := by
  have hindexed := @indexed_fill _ _ R T ttlSeconds none xs
  have hnone : ((init true ttlSeconds (none : Option ρ)).fill R T xs).redis = none := by
    rw [← Option.not_isSome_iff_eq_none, isSome_redis_fill]
    exact Bool.false_ne_true
  refine invalidates_memory_iff hindexed.enabled hnone ?_ ?_
  · intro search hsearch
    refine ⟨(nodup_mem_keysToDelete search).1, fun key => ?_⟩
    rw [hindexed.mem_keysToDelete hnone search]
    constructor
    · exact fun h => ⟨search, hsearch, h⟩
    · rintro ⟨search', hsearch', h⟩
      rw [hsearch] at hsearch'
      rwa [← Except.ok.inj hsearch'] at h
  · rintro e he key ⟨search, hsearch, -⟩
    rw [he] at hsearch
    cases hsearch

/-- `invalidate` does what it says on both backends just where, for every live entry, its request is
one of the pattern if and only if its hashed key is (on Redis) and if and only if the unanchored
regular expression is found in the name of its market (in memory), and where no entry of such a
market has expired or was evicted. -/
theorem invalidatesBoth_iff (hR : Deletes R glob) {enabled : Bool} {ttlSeconds : ℚ}
    (xs : List (ℚ × FetchedKLines S)) :
    InvalidatesBoth R T glob compile enabled ttlSeconds r xs now pattern ↔
      (enabled = true →
        (∀ key, ((init enabled ttlSeconds (some r)).fill R T xs).Live R now key →
          (Matches T glob xs pattern key ↔ glob (keyPrefix ++ pattern) key)) ∧
        (∀ key, ((init enabled ttlSeconds none).fill R T xs).Live R now key →
          (Matches T glob xs pattern key ↔ Found T compile xs pattern key)) ∧
        ∀ key, Found T compile xs pattern key →
          ((init enabled ttlSeconds none).fill R T xs).Live R now key) := by
  have hboth : InvalidatesBoth R T glob compile enabled ttlSeconds r xs now pattern ↔
      ((init enabled ttlSeconds (some r)).fill R T xs).Invalidates R compile now pattern
        (Matches T glob xs pattern) ∧
      ((init enabled ttlSeconds none).fill R T xs).Invalidates R compile now pattern
        (Matches T glob xs pattern) := by
    refine ⟨fun h => ⟨h.redis, h.memory⟩, fun h => ⟨h.1, h.2, fun hsame => ?_⟩⟩
    refine h.1.count.unique (h.2.count.congr fun key => ?_)
    rw [hsame]
  rw [hboth]
  cases enabled with
  | false =>
    refine iff_of_true ⟨?_, ?_⟩ (fun h => by cases h)
    · rw [fill_disabled rfl]
      exact invalidates_disabled
    · rw [fill_disabled rfl]
      exact invalidates_disabled
  | true =>
    rw [fill_invalidates_redis_iff hR, fill_invalidates_memory_iff]
    simp

end

/-! Patterns of plain characters, `*` and `?`, with one cached request. -/

/-- A pattern against a whole text. -/
def globMatch : List Char → List Char → Bool
  | [], text => text.isEmpty
  | c :: p, text =>
    if c = '*' then text.tails.any (globMatch p)
    else
      match text with
      | [] => false
      | d :: text => (c = '?' || c = d) && globMatch p text

/-- A regular expression of plain characters, `.*` and `.` as the pattern it came from. -/
def fromRegex : List Char → List Char
  | '.' :: '*' :: p => '*' :: fromRegex p
  | '.' :: p => '?' :: fromRegex p
  | c :: p => c :: fromRegex p
  | [] => []

def plainGlob (pattern text : String) : Bool := globMatch pattern.toList text.toList

/-- `re.compile(p).search` -/
def plainCompile (regex : String) : Except PyError (String → Bool) :=
  .ok fun text => globMatch ('*' :: fromRegex regex.toList ++ ['*']) text.toList

theorem dictRedis_deletes (glob : String → String → Bool) : Deletes (dictRedis glob) glob where
  keys_nodup := by
    intro r now pattern
    exact r.nodup.sublist (List.filter_sublist.map _)
  mem_keys := by
    intro r now pattern key
    simp only [dictRedis, List.mem_map, List.mem_filter, Bool.and_eq_true, decide_eq_true_eq,
      Option.isSome_map, Option.isSome_filter, Option.any_eq_true]
    constructor
    · rintro ⟨e, ⟨he, hlive, hglob⟩, rfl⟩
      exact ⟨⟨e.2, Dict.get?_eq_some_iff.mpr he, hlive⟩, hglob⟩
    · rintro ⟨⟨e, he, hlive⟩, hglob⟩
      exact ⟨(key, e), ⟨Dict.get?_eq_some_iff.mp he, hlive, hglob⟩, rfl⟩
  get_delete := by
    intro r now keys key
    have hget : (keys.foldl Dict.erase r).get? key = if key ∈ keys then none else r.get? key := by
      induction keys generalizing r with
      | nil => simp
      | cons k keys ih =>
        rw [List.foldl_cons, ih, Dict.get?_erase_eq]
        by_cases hk : key = k <;> simp [hk]
    simp only [dictRedis, hget]
    split_ifs <;> rfl
  count_delete := by
    intro r now keys hnodup hlive
    have hperm : ((r.entries.filter fun e => now < e.2.1 && e.1 ∈ keys).map Prod.fst).Perm keys := by
      refine (List.perm_ext_iff_of_nodup
        (r.nodup.sublist (List.filter_sublist.map _)) hnodup).mpr fun key => ?_
      simp only [List.mem_map, List.mem_filter, Bool.and_eq_true, decide_eq_true_eq]
      constructor
      · rintro ⟨e, ⟨-, -, hkey⟩, rfl⟩
        exact hkey
      · intro hkey
        have h := hlive key hkey
        simp only [dictRedis, Option.isSome_map, Option.isSome_filter, Option.any_eq_true,
          decide_eq_true_eq] at h
        obtain ⟨e, he, hnow⟩ := h
        exact ⟨(key, e), ⟨Dict.get?_eq_some_iff.mp he, hnow, hkey⟩, rfl⟩
    rw [← hperm.length_eq, List.length_map]
    rfl

def candleFetch : FetchedKLines ℤ :=
  ⟨⟨"binance", "BTCUSDT", "1h", 500⟩, candleFrame none, "binance", "2024-01-01T00:00:01+00:00", .num 3⟩

theorem invalidatesBoth_candle :
    InvalidatesBoth (dictRedis plainGlob) (candleTexts none (candleEntry none)) plainGlob
        plainCompile true 900 Dict.empty [(0, candleFetch)] 60 "*BTC*" ↔
      (true = true →
        (∀ key, ((init true 900 (some Dict.empty)).fill (dictRedis plainGlob)
            (candleTexts none (candleEntry none)) [(0, candleFetch)]).Live (dictRedis plainGlob) 60 key →
          (Matches (candleTexts none (candleEntry none)) plainGlob [(0, candleFetch)] "*BTC*" key ↔
            plainGlob (keyPrefix ++ "*BTC*") key)) ∧
        (∀ key, ((init true 900 none).fill (dictRedis plainGlob)
            (candleTexts none (candleEntry none)) [(0, candleFetch)]).Live (dictRedis plainGlob) 60 key →
          (Matches (candleTexts none (candleEntry none)) plainGlob [(0, candleFetch)] "*BTC*" key ↔
            Found (candleTexts none (candleEntry none)) plainCompile [(0, candleFetch)] "*BTC*" key)) ∧
        ∀ key, Found (candleTexts none (candleEntry none)) plainCompile [(0, candleFetch)] "*BTC*" key →
          ((init true 900 none).fill (dictRedis plainGlob)
            (candleTexts none (candleEntry none)) [(0, candleFetch)]).Live (dictRedis plainGlob) 60 key) :=
  invalidatesBoth_iff (dictRedis_deletes plainGlob) [(0, candleFetch)]

theorem live_candle {redis : Option (Dict String (ℚ × String))} :
    ((init true 900 redis).fill (dictRedis plainGlob) (candleTexts none (candleEntry none))
      [(0, candleFetch)]).Live (dictRedis plainGlob) 60
        "kline:v1:462083144e99475286cdcbf00b2e34cc87414fa9" := by
  rw [Live, fill, List.foldl_cons, List.foldl_nil]
  have hraw := @getRaw_set _ _ (dictRedis plainGlob) (candleTexts none (candleEntry none))
    (init true 900 redis) candleFetch.frame ⟨"binance", "binance", "", "", "2024-01-01T00:00:01+00:00", .num 3, "v1"⟩
    0 60 "kline:v1:462083144e99475286cdcbf00b2e34cc87414fa9" rfl (dictRedis_stores _) (by norm_num) (by norm_num [init])
  exact Option.isSome_of_eq_some hraw

theorem matches_candle : Matches (candleTexts none (candleEntry none)) plainGlob [(0, candleFetch)]
    "binance:BTCUSDT:*" "kline:v1:462083144e99475286cdcbf00b2e34cc87414fa9" :=
  ⟨candleFetch.request, by decide, by decide⟩

/-- The pattern of the docstring names the request, but drops it on neither backend. -/
theorem candle_kept :
    ¬ InvalidatesBoth (dictRedis plainGlob) (candleTexts none (candleEntry none)) plainGlob
      plainCompile true 900 Dict.empty [(0, candleFetch)] 60 "binance:BTCUSDT:*" ∧
    ¬ ((init true 900 (some Dict.empty)).fill (dictRedis plainGlob)
        (candleTexts none (candleEntry none)) [(0, candleFetch)]).Invalidates (dictRedis plainGlob)
      plainCompile 60 "binance:BTCUSDT:*"
      (Matches (candleTexts none (candleEntry none)) plainGlob [(0, candleFetch)] "binance:BTCUSDT:*") ∧
    ¬ ((init true 900 none).fill (dictRedis plainGlob)
        (candleTexts none (candleEntry none)) [(0, candleFetch)]).Invalidates (dictRedis plainGlob)
      plainCompile 60 "binance:BTCUSDT:*"
      (Matches (candleTexts none (candleEntry none)) plainGlob [(0, candleFetch)] "binance:BTCUSDT:*") := by
  have hredis : ¬ ((init true 900 (some Dict.empty)).fill (dictRedis plainGlob)
        (candleTexts none (candleEntry none)) [(0, candleFetch)]).Invalidates (dictRedis plainGlob)
      plainCompile 60 "binance:BTCUSDT:*"
      (Matches (candleTexts none (candleEntry none)) plainGlob [(0, candleFetch)] "binance:BTCUSDT:*") := by
    rw [fill_invalidates_redis_iff (dictRedis_deletes plainGlob)]
    intro h
    exact absurd ((h _ live_candle).mp matches_candle) (by decide)
  refine ⟨fun h => hredis h.redis, hredis, ?_⟩
  rw [fill_invalidates_memory_iff]
  rintro ⟨h, -⟩
  obtain ⟨search, hsearch, x, hx, -, hfound⟩ := (h _ live_candle).mp matches_candle
  obtain rfl := List.mem_singleton.mp hx
  obtain rfl := Except.ok.inj hsearch
  exact absurd hfound (by decide)

end KLineCache

end Pyharmonics
