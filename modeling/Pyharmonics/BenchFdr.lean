import Pyharmonics.Library.Ranks
import Pyharmonics.Library.Sorting
import Pyharmonics.Tuning

/-! The false discovery control of the bench: the Benjamini-Hochberg step-up procedure. -/
namespace Pyharmonics.Bench

open Ranks Sorting

variable {ps qs : List ℚ} {alpha p q x : ℚ} {n rank i j k : ℕ}

/-- The loop over the ranks from the last down: the running minimum and the adjusted values. -/
def adjustFrom (n : ℕ) : ℕ → List ℚ → ℚ × List ℚ
  | _, [] => (1, [])
  | rank, p :: ps =>
    let (runningMin, rest) := adjustFrom n (rank + 1) ps
    let runningMin := min runningMin (p * n / rank)
    (runningMin, min runningMin 1 :: rest)

/-- `bh_fdr` -/
def bhFdr (pvalues : List ℚ) (alpha : ℚ) : Except PyError (List ℚ × List Bool) := do
  let n := pvalues.length
  if n = 0 then return ([], [])
  refuse (¬ (0 < alpha ∧ alpha < 1)) "alpha=% must be in (0, 1)" [alpha]
  pvalues.forM fun p => refuse (p < 0 ∨ 1 < p) "p-value % outside [0, 1]" [p]
  let order := sortBy (fun i => pvalues.getD i 0) (List.range n)
  let sortedP := order.map fun i => pvalues.getD i 0
  let adjusted := scatter (List.replicate n 0) order (adjustFrom n 1 sortedP).2
  return (adjusted, adjusted.map fun p => decide (p ≤ alpha))

/-- The adjusted value of a p-value, told by the p-values alone: the least `q * n / rank q` of those
from it on, where `rank q` counts the p-values up to `q`. -/
def stepUpValue (ps : List ℚ) (p : ℚ) : ℚ :=
  ((ps.filter (p ≤ ·)).map fun q => q * ps.length / ps.countP (· ≤ q)).foldr min 1

theorem le_stepUpValue : x ≤ stepUpValue ps p ↔
    x ≤ 1 ∧ ∀ q ∈ ps, p ≤ q → x ≤ q * ps.length / ps.countP (· ≤ q) := by
  unfold stepUpValue
  rw [le_foldr_min, List.forall_mem_map]
  simp only [List.mem_filter, decide_eq_true_eq, and_imp]

theorem le_adjustFrom : x ≤ (adjustFrom n rank ps).1 ↔
    x ≤ 1 ∧ ∀ j p, ps[j]? = some p → x ≤ p * n / (rank + j : ℕ) := by
  induction ps generalizing rank with
  | nil => simp [adjustFrom]
  | cons p ps ih =>
    simp only [adjustFrom, le_min_iff, ih]
    constructor
    · rintro ⟨⟨h1, hrest⟩, hp⟩
      refine ⟨h1, ?_⟩
      intro j q hq
      cases j with
      | zero =>
        obtain rfl := Option.some.inj hq
        exact hp
      | succ j =>
        rw [show rank + (j + 1) = rank + 1 + j by omega]
        exact hrest j q hq
    · rintro ⟨h1, hall⟩
      refine ⟨⟨h1, fun j q hq => ?_⟩, hall 0 p rfl⟩
      rw [show rank + 1 + j = rank + (j + 1) by omega]
      exact hall (j + 1) q hq

/-- The adjusted value at a place is the running minimum from there on. -/
theorem getElem?_adjustFrom : (adjustFrom n rank ps).2[j]? =
    (ps[j]?).map fun _ => min (adjustFrom n (rank + j) (ps.drop j)).1 1 := by
  induction ps generalizing rank j with
  | nil => simp [adjustFrom]
  | cons p ps ih =>
    cases j with
    | zero => rfl
    | succ j =>
      have hrest :
          (adjustFrom n rank (p :: ps)).2[j + 1]? = (adjustFrom n (rank + 1) ps).2[j]? := rfl
      rw [hrest, ih, show rank + 1 + j = rank + (j + 1) by omega]
      rfl

/-- At a later rank a p-value is scaled to less. -/
theorem scaled_anti {c c' n : ℕ} (hq : 0 ≤ q) (hc : 0 < c) (hcc : c ≤ c') :
    q * n / c' ≤ q * n / c :=
  div_le_div_of_nonneg_left (mul_nonneg hq (Nat.cast_nonneg n)) (by exact_mod_cast hc)
    (by exact_mod_cast hcc)

/-- On sorted p-values the loop computes the adjusted value of each. -/
theorem adjustFrom_sorted (hs : ps.Pairwise (· ≤ ·)) (h0 : ∀ p ∈ ps, 0 ≤ p) :
    (adjustFrom ps.length 1 ps).2 = ps.map (stepUpValue ps) := by
  apply List.ext_getElem?
  intro j
  rw [getElem?_adjustFrom, List.getElem?_map]
  cases hj : ps[j]? with
  | none => rfl
  | some p =>
    obtain ⟨hlt, hget⟩ := List.getElem?_eq_some_iff.mp hj
    refine congrArg some (eq_of_forall_le_iff fun x => ?_)
    rw [le_min_iff, le_adjustFrom, le_stepUpValue]
    constructor
    · rintro ⟨⟨h1, hall⟩, -⟩
      refine ⟨h1, ?_⟩
      intro q hq hpq
      -- `q` stands at the last place of the p-values up to it, which is no earlier than `j`
      obtain ⟨k, hk, hkq, hcount⟩ := exists_getElem_eq hs hq
      have hjk : j < ps.countP (· ≤ q) := (getElem_le_iff hs hlt).mp (hget ▸ hpq)
      have hle := hall (k - j) q (by
        rw [List.getElem?_drop, show j + (k - j) = k by omega, List.getElem?_eq_getElem hk, hkq])
      rwa [show 1 + j + (k - j) = ps.countP (· ≤ q) by omega] at hle
    · rintro ⟨h1, hall⟩
      refine ⟨⟨h1, ?_⟩, h1⟩
      intro k q hq
      rw [List.getElem?_drop] at hq
      obtain ⟨hk, hkq⟩ := List.getElem?_eq_some_iff.mp hq
      have hmem : q ∈ ps := hkq ▸ List.getElem_mem hk
      have hpq : p ≤ q := by
        rw [← hget, ← hkq]
        exact hs.sortedLE.getElem_le_getElem_of_le (Nat.le_add_right j k)
      have hcount : j + k < ps.countP (· ≤ q) := (getElem_le_iff hs hk).mp hkq.le
      exact (hall q hmem hpq).trans (scaled_anti (h0 q hmem) (by omega) (by omega))

theorem stepUpValue_perm (h : ps.Perm qs) : stepUpValue ps p = stepUpValue qs p := by
  refine eq_of_forall_le_iff fun x => ?_
  rw [le_stepUpValue, le_stepUpValue, h.length_eq]
  simp only [h.mem_iff, h.countP_eq]

theorem map_getD_range (f : ℚ → ℚ) (ps : List ℚ) :
    (List.range ps.length).map (fun i => f (ps.getD i 0)) = ps.map f := by
  apply List.ext_getElem
  · simp
  · intro i h h'
    rw [List.length_map] at h'
    simp [h']

theorem check_pvalues (hp : ∀ p ∈ ps, 0 ≤ p ∧ p ≤ 1) :
    ps.forM (fun p => refuse (p < 0 ∨ 1 < p) "p-value % outside [0, 1]" [p]) = .ok () := by
  induction ps with
  | nil => rfl
  | cons p ps ih =>
    obtain ⟨⟨h0, h1⟩, hps⟩ := List.forall_mem_cons.mp hp
    have hhead : ¬ (p < 0 ∨ 1 < p) := not_or.mpr ⟨not_lt.mpr h0, not_lt.mpr h1⟩
    exact bind_ok.mpr ⟨(), refuse_ok.mpr hhead, ih hps⟩

/-- The procedure adjusts each p-value on its own, in view of all of them, and rejects by the
adjusted values. -/
theorem bhFdr_eq (hp : ∀ p ∈ ps, 0 ≤ p ∧ p ≤ 1) (h0 : 0 < alpha) (h1 : alpha < 1) :
    bhFdr ps alpha = .ok (ps.map (stepUpValue ps), ps.map fun p => stepUpValue ps p ≤ alpha) := by
  by_cases hnil : ps.length = 0
  · obtain rfl := List.length_eq_zero_iff.mp hnil
    rfl
  have halpha : refuse (¬ (0 < alpha ∧ alpha < 1)) "alpha=% must be in (0, 1)" [alpha] = .ok () :=
    refuse_ok.mpr (not_not.mpr ⟨h0, h1⟩)
  have hperm := sortBy_perm id ps
  have hsorted : (sortBy (fun i => ps.getD i 0) (List.range ps.length)).map (fun i => ps.getD i 0) =
      sortBy id ps := by
    have hmap := @sortBy_map ℚ ℚ _ id ℕ (fun i => ps.getD i 0) (List.range ps.length)
    have hself : (List.range ps.length).map (fun i => ps.getD i 0) = ps :=
      (map_getD_range id ps).trans ps.map_id
    rw [hself] at hmap
    exact hmap.symm
  have hvalue : stepUpValue (sortBy id ps) = stepUpValue ps :=
    funext fun p => stepUpValue_perm hperm
  have hraw : (adjustFrom ps.length 1 (sortBy id ps)).2 =
      (sortBy (fun i => ps.getD i 0) (List.range ps.length)).map
        fun i => stepUpValue ps (ps.getD i 0) := by
    have hadjust := adjustFrom_sorted (sortBy_pairwise id ps)
      fun p h => (hp p (hperm.mem_iff.mp h)).1
    rw [hperm.length_eq, hvalue] at hadjust
    rw [hadjust, ← hsorted, List.map_map]
    rfl
  have hscatter := scatter_perm (fun i => stepUpValue ps (ps.getD i 0)) 0
    (sortBy_perm (fun i => ps.getD i 0) (List.range ps.length))
  rw [map_getD_range (stepUpValue ps)] at hscatter
  unfold bhFdr
  simp only [if_neg hnil, halpha, check_pvalues hp, ok_bind, hsorted, hraw, hscatter, List.map_map]
  rfl

/-- The `k`-th smallest p-value. -/
def orderStatistic (ps : List ℚ) (k : ℕ) : Option ℚ :=
  if k = 0 then none else (sortBy id ps)[k - 1]?

/-- The `k`-th smallest p-value is at most its share of the level. -/
def Passes (ps : List ℚ) (alpha : ℚ) (k : ℕ) : Prop :=
  ∃ q, orderStatistic ps k = some q ∧ q ≤ k * alpha / ps.length

/-- The step-up rule rejects a p-value up to the `k`-th smallest for the largest passing `k`. -/
def StepUp (ps : List ℚ) (alpha p : ℚ) : Prop :=
  ∃ k, IsGreatest {k | Passes ps alpha k} k ∧ ∃ q, orderStatistic ps k = some q ∧ p ≤ q

theorem passes_iff : Passes ps alpha k ↔
    ∃ (h : k - 1 < (sortBy id ps).length),
      k ≠ 0 ∧ (sortBy id ps)[k - 1] ≤ k * alpha / ps.length := by
  unfold Passes orderStatistic
  constructor
  · rintro ⟨q, hq, hle⟩
    split at hq
    · cases hq
    · next hk =>
      obtain ⟨hlt, rfl⟩ := List.getElem?_eq_some_iff.mp hq
      exact ⟨hlt, hk, hle⟩
  · rintro ⟨hlt, hk, hle⟩
    exact ⟨_, by rw [if_neg hk, List.getElem?_eq_getElem hlt], hle⟩

theorem passes_le (h : Passes ps alpha k) : k ≤ ps.length := by
  obtain ⟨hlt, -⟩ := passes_iff.mp h
  have hlen := (sortBy_perm id ps).length_eq
  omega

/-- The adjusted value is within the level just when some p-value from it on is within the share of
its rank. -/
theorem stepUpValue_le (h1 : alpha < 1) : stepUpValue ps p ≤ alpha ↔
    ∃ q ∈ ps, p ≤ q ∧ q * ps.length / ps.countP (· ≤ q) ≤ alpha := by
  unfold stepUpValue
  rw [foldr_min_le, or_iff_right (not_le.mpr h1)]
  simp only [List.mem_map, List.mem_filter, decide_eq_true_eq]
  constructor
  · rintro ⟨x, ⟨q, ⟨hq, hpq⟩, rfl⟩, hx⟩
    exact ⟨q, hq, hpq, hx⟩
  · rintro ⟨q, hq, hpq, hx⟩
    exact ⟨_, ⟨q, ⟨hq, hpq⟩, rfl⟩, hx⟩

theorem scaled_le_iff {c n : ℕ} (hc : 0 < c) (hn : 0 < n) :
    q * n / c ≤ alpha ↔ q ≤ c * alpha / n := by
  have hc' : (0 : ℚ) < c := by exact_mod_cast hc
  have hn' : (0 : ℚ) < n := by exact_mod_cast hn
  rw [div_le_iff₀ hc', le_div_iff₀ hn', mul_comm alpha]

/-- The adjusted values within the level are those of the step-up rule. -/
theorem stepUpValue_le_iff (h0 : ∀ p ∈ ps, 0 ≤ p) (h1 : alpha < 1) (hp : p ∈ ps) :
    stepUpValue ps p ≤ alpha ↔ StepUp ps alpha p := by
  have hperm := sortBy_perm id ps
  have hsorted := sortBy_pairwise id ps
  have hn : 0 < ps.length := List.length_pos_of_mem hp
  have hcount : ∀ q, (sortBy id ps).countP (· ≤ q) = ps.countP (· ≤ q) := fun q => hperm.countP_eq _
  rw [stepUpValue_le h1]
  constructor
  · rintro ⟨q, hq, hpq, hle⟩
    obtain ⟨j, hj, hjq, hc⟩ := exists_getElem_eq hsorted (hperm.mem_iff.mpr hq)
    rw [← hcount, hc, scaled_le_iff (Nat.succ_pos j) hn] at hle
    have hpass : Passes ps alpha (j + 1) := passes_iff.mpr ⟨hj, by omega, hjq.le.trans hle⟩
    have hbdd : BddAbove {k | Passes ps alpha k} := ⟨ps.length, fun k hk => passes_le hk⟩
    have hmem : Passes ps alpha (sSup {k | Passes ps alpha k}) := Nat.sSup_mem ⟨_, hpass⟩ hbdd
    refine ⟨_, ⟨hmem, fun k hk => le_csSup hbdd hk⟩, ?_⟩
    have hjk : j + 1 ≤ sSup {k | Passes ps alpha k} := le_csSup hbdd hpass
    obtain ⟨r, hr, -⟩ := hmem
    refine ⟨r, hr, hpq.trans ?_⟩
    rw [orderStatistic, if_neg (by omega)] at hr
    obtain ⟨hlt, rfl⟩ := List.getElem?_eq_some_iff.mp hr
    rw [← hjq]
    exact hsorted.sortedLE.getElem_le_getElem_of_le (by omega)
  · rintro ⟨k, ⟨⟨q, hq, hle⟩, -⟩, r, hr, hpr⟩
    obtain rfl : q = r := Option.some.inj (hq.symm.trans hr)
    have hk : k ≠ 0 := by
      rintro rfl
      cases hq
    rw [orderStatistic, if_neg hk] at hq
    obtain ⟨hlt, hget⟩ := List.getElem?_eq_some_iff.mp hq
    have hmem : q ∈ ps := hperm.mem_iff.mp (hget ▸ List.getElem_mem hlt)
    have hrank : k ≤ ps.countP (· ≤ q) := by
      have := (getElem_le_iff hsorted hlt).mp hget.le
      rw [hcount] at this
      omega
    refine ⟨q, hmem, hpr, ?_⟩
    rw [← scaled_le_iff (Nat.pos_of_ne_zero hk) hn] at hle
    exact (scaled_anti (h0 q hmem) (Nat.pos_of_ne_zero hk) hrank).trans hle

/-- An adjusted value is at least its p-value: a rank is no greater than the number of p-values. -/
theorem self_le_stepUpValue (hps : ∀ p ∈ ps, 0 ≤ p ∧ p ≤ 1) (hp : p ∈ ps) :
    p ≤ stepUpValue ps p := by
  refine le_stepUpValue.mpr ⟨(hps p hp).2, ?_⟩
  intro q hq hpq
  have hpos : 0 < ps.countP (· ≤ q) := List.countP_pos_iff.mpr ⟨q, hq, by simp⟩
  have hle : ps.countP (· ≤ q) ≤ ps.length := List.countP_le_length
  rw [le_div_iff₀ (by exact_mod_cast hpos)]
  exact mul_le_mul hpq (by exact_mod_cast hle) (Nat.cast_nonneg _) (hps q hq).1

theorem stepUpValue_le_one : stepUpValue ps p ≤ 1 := (le_stepUpValue.mp le_rfl).1

theorem stepUpValue_mono (h : p ≤ q) : stepUpValue ps p ≤ stepUpValue ps q := by
  obtain ⟨h1, hall⟩ := le_stepUpValue.mp (le_refl (stepUpValue ps p))
  exact le_stepUpValue.mpr ⟨h1, fun r hr hqr => hall r hr (h.trans hqr)⟩

/-- For p-values of the unit interval the rejected ones are those of the step-up rule, the adjusted
values lie between the p-values and one in the order of the p-values, and a rearranged input
rearranges both outputs. -/
theorem bhFdr_stepUp (hps : ∀ p ∈ ps, 0 ≤ p ∧ p ≤ 1) (h0 : 0 < alpha) (h1 : alpha < 1) :
    ∃ adjusted reject, bhFdr ps alpha = .ok (adjusted, reject) ∧
      adjusted.length = ps.length ∧ reject.length = ps.length ∧
      (∀ (i : ℕ) (p : ℚ), ps[i]? = some p → (reject[i]? = some true ↔ StepUp ps alpha p)) ∧
      (∀ (i : ℕ) (p a : ℚ), ps[i]? = some p → adjusted[i]? = some a → p ≤ a ∧ a ≤ 1) ∧
      (∀ (i j : ℕ) (p q a b : ℚ), ps[i]? = some p → ps[j]? = some q → adjusted[i]? = some a →
        adjusted[j]? = some b → (p ≤ q → a ≤ b) ∧ (p = q → a = b)) ∧
      ∀ places : List ℕ, places.Perm (List.range ps.length) →
        bhFdr (reorder places ps) alpha = .ok (reorder places adjusted, reorder places reject) := by
  have hnonneg : ∀ p ∈ ps, 0 ≤ p := fun p hp => (hps p hp).1
  have hvalue : ∀ (i : ℕ) (p a : ℚ), ps[i]? = some p → (ps.map (stepUpValue ps))[i]? = some a →
      stepUpValue ps p = a := by
    intro i p a hp ha
    rw [List.getElem?_map, hp] at ha
    exact Option.some.inj ha
  refine ⟨_, _, bhFdr_eq hps h0 h1, List.length_map _, List.length_map _, ?_, ?_, ?_, ?_⟩
  · intro i p hp
    rw [List.getElem?_map, hp, Option.map_some, Option.some_inj, decide_eq_true_iff]
    exact stepUpValue_le_iff hnonneg h1 (List.mem_of_getElem? hp)
  · intro i p a hp ha
    rw [← hvalue i p a hp ha]
    exact ⟨self_le_stepUpValue hps (List.mem_of_getElem? hp), stepUpValue_le_one⟩
  · intro i j p q a b hp hq ha hb
    rw [← hvalue i p a hp ha, ← hvalue j q b hq hb]
    exact ⟨stepUpValue_mono, congrArg _⟩
  · intro places hplaces
    have hperm := reorder_perm hplaces
    have hsame : stepUpValue (reorder places ps) = stepUpValue ps :=
      funext fun p => stepUpValue_perm hperm
    have hps' : ∀ p ∈ reorder places ps, 0 ≤ p ∧ p ≤ 1 := fun p hp => hps p (hperm.mem_iff.mp hp)
    rw [bhFdr_eq hps' h0 h1, hsame, reorder_map, reorder_map]

/-- Three p-values, of which two are equal. -/
def tiedValues : List ℚ := [1 / 25, 1 / 100, 1 / 25]

theorem tiedValues_unit : ∀ p ∈ tiedValues, 0 ≤ p ∧ p ≤ 1 := by decide +kernel

theorem tied_stepUp : ∃ adjusted reject, bhFdr tiedValues (1 / 20) = .ok (adjusted, reject) ∧
    adjusted.length = tiedValues.length ∧ reject.length = tiedValues.length ∧
    (∀ (i : ℕ) (p : ℚ), tiedValues[i]? = some p →
      (reject[i]? = some true ↔ StepUp tiedValues (1 / 20) p)) ∧
    (∀ (i : ℕ) (p a : ℚ), tiedValues[i]? = some p → adjusted[i]? = some a → p ≤ a ∧ a ≤ 1) ∧
    (∀ (i j : ℕ) (p q a b : ℚ), tiedValues[i]? = some p → tiedValues[j]? = some q →
      adjusted[i]? = some a → adjusted[j]? = some b → (p ≤ q → a ≤ b) ∧ (p = q → a = b)) ∧
    ∀ places : List ℕ, places.Perm (List.range tiedValues.length) →
      bhFdr (reorder places tiedValues) (1 / 20) =
        .ok (reorder places adjusted, reorder places reject) :=
  bhFdr_stepUp tiedValues_unit (by norm_num) (by norm_num)

end Pyharmonics.Bench
