import Mathlib.Data.String.Basic
import Pyharmonics.Frame
import Pyharmonics.Library.Groups
import Pyharmonics.Pareto

/-! The regime buckets of several runs, aggregated. -/
namespace Pyharmonics.Loop

open Groups Sorting

/-- What is reported of a regime. -/
structure RegimeStats where
  n : ℤ
  share : ℚ
  sharpeMean : Option ℚ
  deriving DecidableEq

/-- `RegimeAggregate` -/
structure RegimeAggregate where
  regimes : Dict String RegimeStats := .empty
  worstRegimeSharpe : ℚ := 0
  worstRegimeLabel : String := "unknown"
  dispersion : ℚ := 0
  skewed : Bool := false
  deriving DecidableEq

/-- What is added up while the blobs are read. -/
structure RegimeTotals where
  nTotal : ℤ := 0
  counts : Dict String ℤ := .empty
  sharpeSums : Dict String ℚ := .empty
  sharpeN : Dict String ℕ := .empty

/-- One regime of one blob. -/
def RegimeTotals.add (t : RegimeTotals) (e : String × RegimeBucket ℚ) : RegimeTotals :=
  let t := { t with
    counts := t.counts.set e.1 (t.counts.getD e.1 0 + e.2.n)
    nTotal := t.nTotal + e.2.n }
  match e.2.sharpe with
  | none => t
  | some s =>
    if e.2.n < 3 then t
    else
      { t with
        sharpeSums := t.sharpeSums.set e.1 (t.sharpeSums.getD e.1 0 + s)
        sharpeN := t.sharpeN.set e.1 (t.sharpeN.getD e.1 0 + 1) }

def RegimeTotals.stats (t : RegimeTotals) (regime : String) : RegimeStats :=
  let n := t.counts.getD regime 0
  let sharpeN := t.sharpeN.getD regime 0
  { n := n
    share := if t.nTotal ≠ 0 then n / t.nTotal else 0
    sharpeMean := if sharpeN ≠ 0 then some (t.sharpeSums.getD regime 0 / sharpeN) else none }

/-- The regimes in the order of their names. -/
def RegimeTotals.regimes (t : RegimeTotals) : Dict String RegimeStats where
  entries := (sortBy (fun k => k) t.counts.keys).map fun k => (k, t.stats k)
  nodup := by
    rw [List.map_map, show (Prod.fst ∘ fun k => (k, t.stats k)) = id from rfl, List.map_id]
    exact (sortBy_perm _ _).nodup_iff.mpr t.counts.nodup

/-- `_stddev` -/
def stddev (N : Numerics) (xs : List ℚ) : ℚ :=
  if xs.length < 2 then 0
  else
    let mean := xs.sum / xs.length
    N.sqrt ((xs.map fun x => (x - mean) ^ 2).sum / (xs.length - 1))

def totalsOf (blobs : List (Option (Dict String (RegimeBucket ℚ)))) : RegimeTotals :=
  blobs.foldl (fun t blob => (blob.getD .empty).entries.foldl .add t) {}

def aggregateRegimes (N : Numerics) (blobs : List (Option (Dict String (RegimeBucket ℚ))))
    (skewThreshold : ℚ := 85 / 100) : RegimeAggregate :=
  let t := totalsOf blobs
  let regimes := t.regimes
  let meanSharpes := regimes.entries.filterMap fun e => e.2.sharpeMean.map fun s => (e.1, s)
  let worst := (meanSharpes.argmin Prod.snd).getD ("unknown", 0)
  { regimes := regimes
    worstRegimeSharpe := worst.2
    worstRegimeLabel := worst.1
    dispersion := if meanSharpes = [] then 0 else stddev N (meanSharpes.map Prod.snd)
    skewed := match (regimes.values.map RegimeStats.share).max? with
      | some dominantShare => 0 < t.nTotal ∧ skewThreshold ≤ dominantShare
      | none => false }

/-- The regimes of all blobs, one after the other. -/
def bucketsOf (blobs : List (Option (Dict String (RegimeBucket ℚ)))) :
    List (String × RegimeBucket ℚ) :=
  blobs.flatMap fun blob => (blob.getD .empty).entries

def tradesIn (l : List (String × RegimeBucket ℚ)) : ℤ := (l.map fun e => e.2.n).sum

/-- The sharpe of a bucket that counts towards the mean, with its trades. -/
def sample (e : String × RegimeBucket ℚ) : Option (ℤ × ℚ) :=
  if e.2.n < 3 then none else e.2.sharpe.map fun s => (e.2.n, s)

/-- The samples of a regime. -/
def samples (l : List (String × RegimeBucket ℚ)) (regime : String) : List (ℤ × ℚ) :=
  (members Prod.fst l regime).filterMap sample

/-- The mean of the sharpes, weighted by trades. -/
def weightedMean (l : List (ℤ × ℚ)) : Option ℚ :=
  if l = [] then none
  else some ((l.map fun p => (p.1 : ℚ) * p.2).sum / (l.map fun p => (p.1 : ℚ)).sum)

/-- Trades and sharpes have no covariance. -/
def Uncorrelated (l : List (ℤ × ℚ)) : Prop :=
  (l.map fun p => (l.map fun q => ((p.1 : ℚ) - q.1) * (p.2 - q.2)).sum).sum = 0

/-- What is documented of an aggregate. -/
structure WellAggregated (N : Numerics) (blobs : List (Option (Dict String (RegimeBucket ℚ))))
    (skewThreshold : ℚ) : Prop where
  means : ∀ regime, ((aggregateRegimes N blobs skewThreshold).regimes.get? regime).map
    RegimeStats.sharpeMean =
      if members Prod.fst (bucketsOf blobs) regime = [] then none
      else some (weightedMean (samples (bucketsOf blobs) regime))
  shares : tradesIn (bucketsOf blobs) ≠ 0 →
    ((aggregateRegimes N blobs skewThreshold).regimes.values.map RegimeStats.share).sum = 1
  worst : (aggregateRegimes N blobs skewThreshold).worstRegimeSharpe =
    (((aggregateRegimes N blobs skewThreshold).regimes.values.filterMap
      RegimeStats.sharpeMean).min?).getD 0
  order : ∀ blobs', blobs'.Perm blobs →
    aggregateRegimes N blobs' skewThreshold = aggregateRegimes N blobs skewThreshold

variable {N : Numerics} {blobs blobs' : List (Option (Dict String (RegimeBucket ℚ)))}
  {skewThreshold : ℚ} {l l' : List (String × RegimeBucket ℚ)} {e : String × RegimeBucket ℚ}
  {t t' : RegimeTotals} {k : String}

theorem totalsOf_eq : totalsOf blobs = (bucketsOf blobs).foldl .add {} := by
  rw [bucketsOf, List.foldl_flatMap]
  rfl

@[simp] theorem RegimeTotals.add_nTotal : (t.add e).nTotal = t.nTotal + e.2.n := by
  unfold RegimeTotals.add
  cases e.2.sharpe with
  | none => rfl
  | some s =>
    dsimp only
    split_ifs <;> rfl

@[simp] theorem RegimeTotals.add_counts :
    (t.add e).counts = t.counts.set e.1 (t.counts.getD e.1 0 + e.2.n) := by
  unfold RegimeTotals.add
  cases e.2.sharpe with
  | none => rfl
  | some s =>
    dsimp only
    split_ifs <;> rfl

theorem RegimeTotals.add_sharpeSums : (t.add e).sharpeSums.getD k 0 =
    t.sharpeSums.getD k 0 + ((samples [e] k).map Prod.snd).sum := by
  obtain ⟨regime, n, sharpe⟩ := e
  by_cases hk : regime = k
  · subst hk
    cases sharpe <;> by_cases hn : n < 3 <;>
      simp [RegimeTotals.add, samples, members, sample, hn, Dict.getD_set]
  · cases sharpe <;> by_cases hn : n < 3 <;>
      simp [RegimeTotals.add, samples, members, sample, hn, hk, Ne.symm hk, Dict.getD_set]

theorem RegimeTotals.add_sharpeN : (t.add e).sharpeN.getD k 0 =
    t.sharpeN.getD k 0 + (samples [e] k).length := by
  obtain ⟨regime, n, sharpe⟩ := e
  by_cases hk : regime = k
  · subst hk
    cases sharpe <;> by_cases hn : n < 3 <;>
      simp [RegimeTotals.add, samples, members, sample, hn, Dict.getD_set]
  · cases sharpe <;> by_cases hn : n < 3 <;>
      simp [RegimeTotals.add, samples, members, sample, hn, hk, Ne.symm hk, Dict.getD_set]

theorem samples_append : samples (l ++ l') k = samples l k ++ samples l' k := by
  simp [samples, members]

/-- The totals after a list of buckets, each by what its regime has in the list. -/
theorem totals_foldl :
    (l.foldl .add {} : RegimeTotals).nTotal = tradesIn l ∧
    ∀ k, (l.foldl .add {} : RegimeTotals).counts.get? k =
        (if members Prod.fst l k = [] then none
          else some (tradesIn (members Prod.fst l k))) ∧
      (l.foldl .add {} : RegimeTotals).sharpeSums.getD k 0 = ((samples l k).map Prod.snd).sum ∧
      (l.foldl .add {} : RegimeTotals).sharpeN.getD k 0 = (samples l k).length := by
  induction l using List.reverseRecOn with
  | nil => exact ⟨rfl, fun k => ⟨rfl, rfl, rfl⟩⟩
  | append_singleton l e ih =>
    obtain ⟨htotal, hk⟩ := ih
    rw [List.foldl_concat]
    refine ⟨by simp [tradesIn, htotal], fun k => ⟨?_, ?_, ?_⟩⟩
    · rw [RegimeTotals.add_counts, Dict.get?_set, members_concat, Dict.getD, (hk e.1).1]
      by_cases h : e.1 = k
      · subst h
        by_cases hnil : members Prod.fst l e.1 = [] <;> simp [tradesIn, hnil]
      · simp [h, Ne.symm h, (hk k).1]
    · rw [RegimeTotals.add_sharpeSums, samples_append, List.map_append, List.sum_append,
        (hk k).2.1]
    · rw [RegimeTotals.add_sharpeN, samples_append, List.length_append, (hk k).2.2]

/-- The mean over the samples, each counted once. -/
def plainMean (l : List (ℤ × ℚ)) : Option ℚ :=
  if l = [] then none else some ((l.map Prod.snd).sum / l.length)

/-- What is reported of a regime, by its buckets. -/
theorem stats_totalsOf : (totalsOf blobs).stats k =
    { n := tradesIn (members Prod.fst (bucketsOf blobs) k)
      share := if tradesIn (bucketsOf blobs) ≠ 0 then
        tradesIn (members Prod.fst (bucketsOf blobs) k) / tradesIn (bucketsOf blobs) else 0
      sharpeMean := plainMean (samples (bucketsOf blobs) k) } := by
  obtain ⟨htotal, hk⟩ := @totals_foldl (bucketsOf blobs)
  have hcount : (totalsOf blobs).counts.getD k 0 =
      tradesIn (members Prod.fst (bucketsOf blobs) k) := by
    rw [totalsOf_eq, Dict.getD, (hk k).1]
    by_cases h : members Prod.fst (bucketsOf blobs) k = [] <;> simp [tradesIn, h]
  rw [RegimeTotals.stats, hcount]
  simp only [totalsOf_eq, htotal, (hk k).2.1, (hk k).2.2, plainMean, Ne, List.length_eq_zero_iff,
    ite_not]

theorem mem_counts : k ∈ (totalsOf blobs).counts.keys ↔
    members Prod.fst (bucketsOf blobs) k ≠ [] := by
  rw [Dict.mem_keys_iff, totalsOf_eq, (totals_foldl.2 k).1]
  by_cases h : members Prod.fst (bucketsOf blobs) k = [] <;> simp [h]

theorem get?_regimes : t.regimes.get? k =
    if k ∈ t.counts.keys then some (t.stats k) else none := by
  ext r
  rw [Dict.get?_eq_some_iff, RegimeTotals.regimes, List.mem_map]
  by_cases h : k ∈ t.counts.keys
  · rw [if_pos h, Option.some.injEq]
    constructor
    · rintro ⟨k', -, heq⟩
      obtain ⟨rfl, rfl⟩ := Prod.mk.inj heq
      rfl
    · rintro rfl
      exact ⟨k, mem_sortBy.mpr h, rfl⟩
  · rw [if_neg h]
    constructor
    · rintro ⟨k', hk', heq⟩
      obtain ⟨rfl, rfl⟩ := Prod.mk.inj heq
      exact absurd (mem_sortBy.mp hk') h
    · rintro ⟨⟩

/-- The covariance by sums. -/
theorem covariance_eq (l : List (ℤ × ℚ)) :
    (l.map fun p => (l.map fun q => ((p.1 : ℚ) - q.1) * (p.2 - q.2)).sum).sum =
      2 * (l.length * (l.map fun p => (p.1 : ℚ) * p.2).sum -
        (l.map fun p => (p.1 : ℚ)).sum * (l.map Prod.snd).sum) := by
  have hinner : ∀ (a b : ℚ) (m : List (ℤ × ℚ)),
      (m.map fun q => (a - q.1) * (b - q.2)).sum = m.length * (a * b) - a * (m.map Prod.snd).sum -
        b * (m.map fun q => (q.1 : ℚ)).sum + (m.map fun q => (q.1 : ℚ) * q.2).sum := by
    intro a b m
    induction m with
    | nil => simp
    | cons q m ih =>
      simp only [List.map_cons, List.sum_cons, List.length_cons, Nat.cast_succ, ih]
      ring
  have houter : ∀ (n s₁ s₂ s : ℚ) (m : List (ℤ × ℚ)),
      (m.map fun p => n * (p.1 * p.2) - p.1 * s₂ - p.2 * s₁ + s).sum =
        n * (m.map fun p => (p.1 : ℚ) * p.2).sum - (m.map fun p => (p.1 : ℚ)).sum * s₂ -
          (m.map Prod.snd).sum * s₁ + m.length * s := by
    intro n s₁ s₂ s m
    induction m with
    | nil => simp
    | cons p m ih =>
      simp only [List.map_cons, List.sum_cons, List.length_cons, Nat.cast_succ, ih]
      ring
  simp only [hinner, houter]
  ring

theorem mean_eq_iff {l : List (ℤ × ℚ)} (hpos : ∀ p ∈ l, 0 < p.1) :
    plainMean l = weightedMean l ↔ Uncorrelated l := by
  unfold plainMean weightedMean Uncorrelated
  by_cases hnil : l = []
  · simp [hnil]
  · have hlen : (0 : ℚ) < l.length := by exact_mod_cast List.length_pos_iff.mpr hnil
    have hsum : 0 < (l.map fun p => (p.1 : ℚ)).sum := by
      apply List.sum_pos
      · intro x hx
        obtain ⟨p, hp, rfl⟩ := List.mem_map.mp hx
        exact_mod_cast hpos p hp
      · simpa using hnil
    rw [if_neg hnil, if_neg hnil, Option.some.injEq, div_eq_div_iff hlen.ne' hsum.ne',
      covariance_eq]
    constructor <;> intro h <;> linarith

theorem plainMean_perm {l l' : List (ℤ × ℚ)} (h : l.Perm l') : plainMean l = plainMean l' := by
  have hnil : l = [] ↔ l' = [] := by
    rw [← List.length_eq_zero_iff, h.length_eq, List.length_eq_zero_iff]
  simp only [plainMean, hnil, (h.map _).sum_eq, h.length_eq]

theorem samples_pos : ∀ p ∈ samples l k, 0 < p.1 := by
  intro p hp
  obtain ⟨e, -, he⟩ := List.mem_filterMap.mp hp
  unfold sample at he
  split_ifs at he with hn
  obtain ⟨s, -, rfl⟩ := Option.map_eq_some_iff.mp he
  exact lt_of_lt_of_le (by norm_num) (not_lt.mp hn)

/-- The shares add up to 1. -/
theorem shares_sum (h : tradesIn (bucketsOf blobs) ≠ 0) :
    ((totalsOf blobs).regimes.values.map RegimeStats.share).sum = 1 := by
  have hall : ∀ e ∈ bucketsOf blobs, e.1 ∈ (totalsOf blobs).counts.keys := fun e he =>
    mem_counts.mpr (mt members_eq_nil_iff.mp fun hne => hne e he rfl)
  have hsum : ((totalsOf blobs).counts.keys.map fun k =>
      tradesIn (members Prod.fst (bucketsOf blobs) k)).sum = tradesIn (bucketsOf blobs) :=
    sum_map_members (totalsOf blobs).counts.nodup hall
  have hshares : ∀ ks : List String, (ks.map fun k => ((totalsOf blobs).stats k).share).sum =
      ((ks.map fun k => tradesIn (members Prod.fst (bucketsOf blobs) k)).sum : ℤ) /
        tradesIn (bucketsOf blobs) := by
    intro ks
    induction ks with
    | nil => simp
    | cons k ks ih =>
      rw [List.map_cons, List.sum_cons, ih, stats_totalsOf, List.map_cons, List.sum_cons,
        Int.cast_add, add_div]
      simp only [if_pos h]
  have hperm := (sortBy_perm (fun k => k) (totalsOf blobs).counts.keys).map fun k =>
    ((totalsOf blobs).stats k).share
  calc ((totalsOf blobs).regimes.values.map RegimeStats.share).sum
      = ((sortBy (fun k => k) (totalsOf blobs).counts.keys).map fun k =>
          ((totalsOf blobs).stats k).share).sum := by
        rw [Dict.values, RegimeTotals.regimes, List.map_map, List.map_map]
        rfl
    _ = 1 := by
        rw [hperm.sum_eq, hshares, hsum, div_self (by exact_mod_cast h)]

theorem argmin_eq_min (l : List (String × ℚ)) :
    ((l.argmin Prod.snd).getD ("unknown", 0)).2 = ((l.map Prod.snd).min?).getD 0 := by
  cases hmin : l.argmin Prod.snd with
  | none =>
    rw [List.argmin_eq_none.mp hmin]
    rfl
  | some e =>
    have hmem : (l.map Prod.snd).min? = some e.2 := by
      rw [List.min?_eq_some_iff]
      refine ⟨List.mem_map_of_mem (List.argmin_mem hmin), fun s hs => ?_⟩
      obtain ⟨e', he', rfl⟩ := List.mem_map.mp hs
      exact List.le_of_mem_argmin he' hmin
    rw [hmem]
    rfl

theorem worst_eq_min : (aggregateRegimes N blobs skewThreshold).worstRegimeSharpe =
    (((aggregateRegimes N blobs skewThreshold).regimes.values.filterMap
      RegimeStats.sharpeMean).min?).getD 0 := by
  refine (argmin_eq_min _).trans ?_
  rw [List.map_filterMap, Dict.values, List.filterMap_map]
  congr 3
  funext e
  simp [Option.map_map, Function.comp_def]

/-- The totals by regime are all that is read of them. -/
theorem regimes_congr (hkeys : t.counts.keys.Perm t'.counts.keys)
    (hstats : ∀ k, t.stats k = t'.stats k) : t.regimes = t'.regimes := by
  have hsorted : sortBy (fun k => k) t.counts.keys = sortBy (fun k => k) t'.counts.keys :=
    List.Perm.eq_of_pairwise (fun _ _ _ _ => le_antisymm) (sortBy_pairwise _ _)
      (sortBy_pairwise _ _) (((sortBy_perm _ _).trans hkeys).trans (sortBy_perm _ _).symm)
  apply Dict.ext_entries
  simp only [RegimeTotals.regimes, hsorted, hstats]

theorem aggregateRegimes_perm (h : blobs'.Perm blobs) :
    aggregateRegimes N blobs' skewThreshold = aggregateRegimes N blobs skewThreshold := by
  have hbuckets : (bucketsOf blobs').Perm (bucketsOf blobs) := h.flatMap_right _
  have hmembers : ∀ k, (members Prod.fst (bucketsOf blobs') k).Perm
      (members Prod.fst (bucketsOf blobs) k) := members_perm hbuckets
  have hn : (totalsOf blobs').nTotal = (totalsOf blobs).nTotal := by
    rw [totalsOf_eq, totalsOf_eq, totals_foldl.1, totals_foldl.1]
    exact (hbuckets.map _).sum_eq
  have hkeys : (totalsOf blobs').counts.keys.Perm (totalsOf blobs).counts.keys := by
    refine (List.perm_ext_iff_of_nodup (Dict.nodup _) (Dict.nodup _)).mpr fun k => ?_
    change k ∈ (totalsOf blobs').counts.keys ↔ k ∈ (totalsOf blobs).counts.keys
    rw [mem_counts, mem_counts, ← List.length_pos_iff, ← List.length_pos_iff,
      (hmembers k).length_eq]
  have hstats : ∀ k, (totalsOf blobs').stats k = (totalsOf blobs).stats k := by
    intro k
    have htrades : tradesIn (bucketsOf blobs') = tradesIn (bucketsOf blobs) :=
      (hbuckets.map _).sum_eq
    have hown : tradesIn (members Prod.fst (bucketsOf blobs') k) =
        tradesIn (members Prod.fst (bucketsOf blobs) k) := ((hmembers k).map _).sum_eq
    have hmean : plainMean (samples (bucketsOf blobs') k) =
        plainMean (samples (bucketsOf blobs) k) := plainMean_perm ((hmembers k).filterMap _)
    rw [stats_totalsOf, stats_totalsOf, htrades, hown, hmean]
  simp only [aggregateRegimes, regimes_congr hkeys hstats, hn]

theorem map_sharpeMean : ((aggregateRegimes N blobs skewThreshold).regimes.get? k).map
    RegimeStats.sharpeMean =
      if members Prod.fst (bucketsOf blobs) k = [] then none
      else some (plainMean (samples (bucketsOf blobs) k)) := by
  change ((totalsOf blobs).regimes.get? k).map _ = _
  rw [get?_regimes]
  by_cases h : members Prod.fst (bucketsOf blobs) k = []
  · rw [if_neg (mem_counts.not.mpr (not_not.mpr h)), if_pos h]
    rfl
  · rw [if_pos (mem_counts.mpr h), if_neg h, stats_totalsOf]
    rfl

/-- A quarter of three trades and one of nine: their sharpes 1 and 5 are reported as 3, not 4. -/
def unevenQuarters : List (Option (Dict String (RegimeBucket ℚ))) :=
  [some (.single "bull" { n := 3, sharpe := some 1 }),
    some (.single "bull" { n := 9, sharpe := some 5 })]

end Pyharmonics.Loop
