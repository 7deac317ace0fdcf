import Pyharmonics.LiveTuning

/-! Frames on which a frozen window shows, and what it takes for the engine to follow a tuning. -/
namespace Pyharmonics

open Series

variable {N : Numerics} {w v : Process} {base t : TuningConstants} {d : List Row} {a b : ℕ}

/-- A bar without range. -/
def flatRow (price volume : ℚ) : Row :=
  { openPrice := price, high := price, low := price, close := price, volume := volume
    closeTime := 0, dts := 0, index := 0 }

theorem falseBreaks_flat (h : ∀ r ∈ d, ∃ x, r = flatRow 1 x) : falseBreaks d = 0 := by
  refine count_eq_zero ?_
  rintro k - ⟨r, hr, hp⟩
  obtain ⟨x, rfl⟩ := h r (List.mem_of_getElem? hr)
  simp only [flatRow] at hp
  rcases hp with ⟨h1, h2⟩ | ⟨h1, h2⟩ <;> linarith

theorem stopHunts_flat (h : ∀ r ∈ d, ∃ x, r = flatRow 1 x) : stopHunts d = 0 := by
  refine count_eq_zero ?_
  rintro k - ⟨r, hr, next, hn, -, hp⟩
  obtain ⟨x, rfl⟩ := h r (List.mem_of_getElem? hr)
  obtain ⟨y, rfl⟩ := h next (List.mem_of_getElem? hn)
  simp [flatRow] at hp

/-- Bars without range whose volumes are powers of three. -/
def powers (e : ℕ → ℕ) (n : ℕ) : List Row := (List.range n).map fun k => flatRow 1 (3 ^ e k)

theorem powers_flat {e : ℕ → ℕ} {n : ℕ} {r : Row} (h : r ∈ powers e n) : ∃ x, r = flatRow 1 x := by
  obtain ⟨k, -, rfl⟩ := List.mem_map.mp h
  exact ⟨_, rfl⟩

/-- A volume more than doubles exactly when its exponent grows. -/
theorem two_mul_pow_lt_iff {m n : ℕ} : (2 : ℚ) * 3 ^ m < 3 ^ n ↔ m < n := by
  constructor
  · intro h
    by_contra hn
    have hle : (3 : ℚ) ^ n ≤ 3 ^ m := pow_le_pow_right₀ (by norm_num) (not_lt.mp hn)
    have hpos : (0 : ℚ) < 3 ^ m := by positivity
    linarith
  · intro h
    have hle : (3 : ℚ) ^ (m + 1) ≤ 3 ^ n := pow_le_pow_right₀ (by norm_num) h
    have hpos : (0 : ℚ) < 3 ^ m := by positivity
    rw [pow_succ] at hle
    linarith

theorem climaxes_powers (e : ℕ → ℕ) (n : ℕ) : climaxes (powers e (n + 1)) =
    count (· = true) ((List.range n).map fun k => decide (e k < e (k + 1))) := by
  rw [climaxes, powers, paired_map_range]
  congr 1
  refine List.map_congr_left ?_
  intro k _
  have hpos : (0 : ℚ) < 3 ^ e k := by positivity
  simp [flatRow, hpos, two_mul_pow_lt_iff]

theorem quantTrapRisk_powers {df : Frame} {m : ℤ} {e : ℕ → ℕ} {n : ℕ}
    (h : df.tail m = powers e (n + 1)) (hn : 14 ≤ n) :
    (quantTrapRisk df 2 2 true m).score =
      if (12 : ℚ) / 100 < climaxes (powers e (n + 1)) / n then 35 else 50 := by
  have hlen : ¬ (powers e (n + 1)).length < 15 := by
    simp [powers]
    omega
  have hfb := falseBreaks_flat fun r (hr : r ∈ powers e (n + 1)) => powers_flat hr
  have hsh := stopHunts_flat fun r (hr : r ∈ powers e (n + 1)) => powers_flat hr
  have hn' : ((powers e (n + 1)).length : ℚ) - 1 = n := by simp [powers]
  unfold quantTrapRisk
  simp only [h, if_neg hlen, hfb, hsh, hn']
  norm_num
  split_ifs <;> norm_num

/-- A growing number of climaxes, the first of them on the first bars. -/
theorem climaxes_front (c n : ℕ) : climaxes (powers (fun k => min k c) (n + 1)) = min c n := by
  rw [climaxes_powers, ← count_map_lt]
  congr 1
  refine List.map_congr_left ?_
  intro k _
  rw [decide_eq_decide]
  omega

theorem climaxes_next (c n : ℕ) :
    climaxes (powers (fun k => min (k + 1) c) (n + 1)) = min (c - 1) n := by
  rw [climaxes_powers, ← count_map_lt]
  congr 1
  refine List.map_congr_left ?_
  intro k _
  rw [decide_eq_decide]
  omega

theorem climaxes_late (c n : ℕ) :
    climaxes (powers (fun k => min (k - 1) c) (n + 2)) = min c n := by
  rw [climaxes_powers, List.range_succ_eq_map, List.map_cons, List.map_map]
  have hfirst : decide (min (0 - 1) c < min (0 + 1 - 1) c) = false := by simp
  have hrest : (List.range n).map ((fun k => decide (min (k - 1) c < min (k + 1 - 1) c)) ∘
      Nat.succ) = (List.range n).map fun k => decide (k < c) := by
    refine List.map_congr_left ?_
    intro k _
    rw [Function.comp, decide_eq_decide]
    omega
  rw [hfirst, hrest]
  exact count_map_lt c n

theorem tail_powers (e : ℕ → ℕ) (n : ℕ) :
    (frameOf (powers e (n + 1))).tail n = powers (fun k => e (k + 1)) n :=
  tail_map_range (fun k => flatRow 1 (3 ^ e k)) n

theorem tail_powers_all {e : ℕ → ℕ} {n : ℕ} (h : n ≤ b) :
    (frameOf (powers e n)).tail b = powers e n :=
  tail_all (by simpa [frameOf, powers] using h)

theorem rate_le {c n : ℕ} (hn : 0 < n) (h : 25 * c ≤ 3 * n) : ¬ (12 : ℚ) / 100 < (c : ℕ) / n := by
  have hn' : (0 : ℚ) < n := by exact_mod_cast hn
  have h' : (25 : ℚ) * c ≤ 3 * n := by exact_mod_cast h
  rw [not_lt, div_le_iff₀ hn']
  linarith

theorem rate_lt {c n : ℕ} (hn : 0 < n) (h : 3 * n < 25 * c) : (12 : ℚ) / 100 < (c : ℕ) / n := by
  have hn' : (0 : ℚ) < n := by exact_mod_cast hn
  have h' : (3 : ℚ) * n < 25 * c := by exact_mod_cast h
  rw [lt_div_iff₀ hn']
  linarith

/-- Two windows of which one has its fifteen bars see different climax rates somewhere. -/
theorem quantTrapRisk_differs (hab : a < b) (hb : 15 ≤ b) : ∃ df,
    quantTrapRisk df 2 2 true a ≠ quantTrapRisk df 2 2 true b := by
  by_cases ha : a < 15
  · refine ⟨frameOf (powers id 15), ?_⟩
    intro heq
    have hlen : ((frameOf (powers id 15)).tail a).length < 15 := by
      rw [Frame.tail, length_tail (by omega)]
      omega
    have hwhole := quantTrapRisk_powers (n := 14) (tail_powers_all (e := id) hb) (by omega)
    have hclimax : climaxes (powers id 15) = 14 := by decide +kernel
    rw [← heq, quantTrapRisk, if_pos hlen, hclimax] at hwhole
    norm_num at hwhole
  · obtain ⟨n, rfl⟩ : ∃ n, a = n + 1 := ⟨a - 1, by omega⟩
    -- one climax more or less than the rate admits, by where the next integer lies
    obtain ⟨c, hlow, hhigh⟩ : ∃ c, 25 * c ≤ 3 * n ∧ 3 * n < 25 * (c + 1) :=
      ⟨3 * n / 25, by omega, by omega⟩
    by_cases hc : 3 * (n + 1) < 25 * (c + 1)
    · refine ⟨frameOf (powers (fun k => min k (c + 1)) (n + 2)), ?_⟩
      intro heq
      have hpart := quantTrapRisk_powers (tail_powers (fun k => min k (c + 1)) (n + 1))
        (by omega)
      have hwhole := quantTrapRisk_powers (n := n + 1)
        (tail_powers_all (e := fun k => min k (c + 1)) hab) (by omega)
      rw [climaxes_next, min_eq_left (by omega), Nat.add_sub_cancel,
        if_neg (rate_le (by omega) hlow)] at hpart
      rw [climaxes_front, min_eq_left (by omega), if_pos (rate_lt (by omega) hc), ← heq,
        hpart] at hwhole
      norm_num at hwhole
    · refine ⟨frameOf (powers (fun k => min (k - 1) (c + 1)) (n + 2)), ?_⟩
      intro heq
      have hpart := quantTrapRisk_powers (tail_powers (fun k => min (k - 1) (c + 1)) (n + 1))
        (by omega)
      have hwhole := quantTrapRisk_powers (n := n + 1)
        (tail_powers_all (e := fun k => min (k - 1) (c + 1)) hab) (by omega)
      simp only [Nat.add_sub_cancel] at hpart
      rw [climaxes_front, min_eq_left (by omega), if_pos (rate_lt (by omega) hhigh)] at hpart
      rw [climaxes_late, min_eq_left (by omega), if_neg (rate_le (by omega) (not_lt.mp hc)),
        ← heq, hpart] at hwhole
      norm_num at hwhole

/-! Volume authenticity. -/

/-- Bars without range whose volume is their price. -/
def echoes (l : List ℚ) : List Row := l.map fun x => flatRow x x

theorem aligned_echoes (l : List ℚ) : count (· = true) (paired (fun before r : Row =>
    decide (before.close < r.close) == decide (before.volume < r.volume)) (echoes l)) =
      l.length - 1 := by
  rw [count_eq_length, paired_eq_zipWith]
  · simp [echoes]
  · intro b hb
    rw [paired_eq_zipWith] at hb
    obtain ⟨i, hi, rfl⟩ := List.mem_iff_getElem.mp hb
    simp [echoes, flatRow]

/-- The lag-one autocorrelation the score uses. -/
def autocorr (vols : List ℚ) : ℚ :=
  let v := vols.map (· - mean vols)
  (paired (· * ·) v).sum / (v.map (· ^ 2)).sum

theorem volumeAuthenticity_echoes {df : Frame} {m : ℤ} {l : List ℚ} (h : df.tail m = echoes l)
    (hn : 10 ≤ l.length) (hmean : 0 < mean l) (hspike : ∀ x ∈ l, x ≤ mean l * (5 / 2))
    (hdenom : 0 < ((l.map (· - mean l)).map (· ^ 2)).sum) :
    volumeAuthenticity df m = percentScore (80 + max 0 (50 + autocorr l * 50) * (20 / 100)) := by
  have hlen : (echoes l).length = l.length := by simp [echoes]
  have hvols : (echoes l).map Row.volume = l := by simp [echoes, flatRow, Function.comp_def]
  have hnone : count (fun x => mean l * (5 / 2) < x) l = 0 :=
    count_eq_zero fun x hx => not_lt.mpr (hspike x hx)
  have hrate : ((l.length - 1 : ℕ) : ℚ) / ((l.length : ℚ) - 1) = 1 := by
    have : (10 : ℚ) ≤ l.length := by exact_mod_cast hn
    rw [Nat.cast_sub (by omega), Nat.cast_one, div_self (by linarith)]
  unfold volumeAuthenticity
  simp only [h, hlen, if_neg (not_lt.mpr hn), hvols, aligned_echoes, hrate, if_pos hmean, hnone,
    if_pos hdenom, autocorr]
  congr 1
  norm_num

/-- One raised volume at the front of the window. -/
def raised (k : ℕ) : List ℚ := 11 :: List.replicate (k + 1) 10

theorem mean_raised (k : ℕ) : mean (raised k) = 10 + 1 / (k + 2) := by
  have hk : (k : ℚ) + 2 ≠ 0 := by positivity
  simp only [mean, raised, List.sum_cons, List.sum_replicate, List.length_cons,
    List.length_replicate, nsmul_eq_mul]
  push_cast
  field_simp
  ring

theorem mean_raised_twice (k : ℕ) : mean (11 :: raised k) = 10 + 2 / (k + 3) := by
  have hk : (k : ℚ) + 3 ≠ 0 := by positivity
  simp only [mean, raised, List.sum_cons, List.sum_replicate, List.length_cons,
    List.length_replicate, nsmul_eq_mul]
  push_cast
  field_simp
  ring

/-- Deviations of a raised window, and their squares. -/
theorem deviations_raised (k : ℕ) :
    (raised k).map (· - mean (raised k)) =
      ((k : ℚ) + 1) / (k + 2) :: List.replicate (k + 1) (-1 / ((k : ℚ) + 2)) ∧
    (((raised k).map (· - mean (raised k))).map (· ^ 2)).sum = ((k : ℚ) + 1) / (k + 2) := by
  have hk : (k : ℚ) + 2 ≠ 0 := by positivity
  have hv : (raised k).map (· - mean (raised k)) =
      ((k : ℚ) + 1) / (k + 2) :: List.replicate (k + 1) (-1 / ((k : ℚ) + 2)) := by
    rw [mean_raised, raised, List.map_cons, List.map_replicate]
    congr 1
    · field_simp
      ring
    · congr 1
      field_simp
      ring
  refine ⟨hv, ?_⟩
  rw [hv]
  simp only [List.map_cons, List.map_replicate, List.sum_cons, List.sum_replicate, nsmul_eq_mul]
  push_cast
  field_simp
  ring

theorem deviations_raised_twice (k : ℕ) :
    (11 :: raised k).map (· - mean (11 :: raised k)) =
      ((k : ℚ) + 1) / (k + 3) :: ((k : ℚ) + 1) / (k + 3) ::
        List.replicate (k + 1) (-2 / ((k : ℚ) + 3)) ∧
    (((11 :: raised k).map (· - mean (11 :: raised k))).map (· ^ 2)).sum =
      2 * ((k : ℚ) + 1) / (k + 3) := by
  have hk : (k : ℚ) + 3 ≠ 0 := by positivity
  have hv : (11 :: raised k).map (· - mean (11 :: raised k)) =
      ((k : ℚ) + 1) / (k + 3) :: ((k : ℚ) + 1) / (k + 3) ::
        List.replicate (k + 1) (-2 / ((k : ℚ) + 3)) := by
    rw [mean_raised_twice, raised, List.map_cons, List.map_cons, List.map_replicate]
    have h11 : (11 : ℚ) - (10 + 2 / (k + 3)) = (k + 1) / (k + 3) := by
      field_simp
      ring
    have h10 : (10 : ℚ) - (10 + 2 / (k + 3)) = -2 / (k + 3) := by
      field_simp
      ring
    rw [h11, h10]
  refine ⟨hv, ?_⟩
  rw [hv]
  simp only [List.map_cons, List.map_replicate, List.sum_cons, List.sum_replicate, nsmul_eq_mul]
  push_cast
  field_simp
  ring

theorem autocorr_raised (k : ℕ) : autocorr (raised k) = -1 / ((k + 1) * (k + 2)) := by
  obtain ⟨hv, hd⟩ := deviations_raised k
  have h1 : (k : ℚ) + 1 ≠ 0 := by positivity
  have h2 : (k : ℚ) + 2 ≠ 0 := by positivity
  rw [autocorr, hd, hv, paired_eq_zipWith, List.tail_cons, List.replicate_succ,
    List.zipWith_cons_cons, ← List.replicate_succ, List.zipWith_replicate, List.sum_cons,
    List.sum_replicate, min_eq_right (by omega), nsmul_eq_mul]
  field_simp
  ring

theorem autocorr_raised_twice (k : ℕ) :
    autocorr (11 :: raised k) = (k ^ 2 + 4 * k - 1) / (2 * (k + 1) * (k + 3)) := by
  obtain ⟨hv, hd⟩ := deviations_raised_twice k
  have h1 : (k : ℚ) + 1 ≠ 0 := by positivity
  have h3 : (k : ℚ) + 3 ≠ 0 := by positivity
  rw [autocorr, hd, hv, paired_eq_zipWith, List.tail_cons, List.zipWith_cons_cons,
    List.replicate_succ, List.zipWith_cons_cons, ← List.replicate_succ, List.zipWith_replicate,
    List.sum_cons, List.sum_cons, List.sum_replicate, min_eq_right (by omega), nsmul_eq_mul]
  field_simp
  ring

theorem percentScore_le {k : ℤ} {x : ℚ} (hk : 0 ≤ k) (h : x ≤ k) : percentScore x ≤ k := by
  have hn := (abs_le.mp (Rounding.halfEven_near x)).2
  have hlt : (Rounding.halfEven x : ℚ) < k + 1 := by linarith
  have : Rounding.halfEven x < k + 1 := by exact_mod_cast hlt
  unfold percentScore
  omega

theorem le_percentScore {k : ℤ} {x : ℚ} (hk : k ≤ 100) (h : k ≤ x) : k ≤ percentScore x := by
  have hn := (abs_le.mp (Rounding.halfEven_near x)).1
  have hlt : (k : ℚ) - 1 < Rounding.halfEven x := by linarith
  have : k - 1 < Rounding.halfEven x := by exact_mod_cast hlt
  unfold percentScore
  omega

theorem le_of_mem_raised {k : ℕ} {x : ℚ} (h : x ∈ raised k) : x ≤ 11 := by
  rcases List.mem_cons.mp h with rfl | h
  · exact le_rfl
  · rw [(List.mem_replicate.mp h).2]
    norm_num

theorem authenticity_raised {df : Frame} {m : ℤ} {k : ℕ} (h : df.tail m = echoes (raised k))
    (hk : 8 ≤ k) : volumeAuthenticity df m ≤ 90 := by
  have hmean := mean_raised k
  have hpos : (0 : ℚ) < 1 / (k + 2) := by positivity
  rw [volumeAuthenticity_echoes h (by simp [raised]; omega) (by rw [hmean]; positivity)
    (fun x hx => by rw [hmean]; linarith [le_of_mem_raised hx])
    (by rw [(deviations_raised k).2]; positivity)]
  refine percentScore_le (by norm_num) ?_
  have hneg : autocorr (raised k) ≤ 0 := by
    rw [autocorr_raised]
    exact div_nonpos_of_nonpos_of_nonneg (by norm_num) (by positivity)
  have : max 0 (50 + autocorr (raised k) * 50) ≤ 50 := max_le (by norm_num) (by linarith)
  push_cast
  linarith

theorem authenticity_raised_twice {df : Frame} {m : ℤ} {k : ℕ}
    (h : df.tail m = echoes (11 :: raised k)) (hk : 8 ≤ k) : 93 ≤ volumeAuthenticity df m := by
  have hmean := mean_raised_twice k
  have hpos : (0 : ℚ) < 2 / (k + 3) := by positivity
  rw [volumeAuthenticity_echoes h (by simp [raised]; omega) (by rw [hmean]; positivity)
    (fun x hx => by
      rw [hmean]
      rcases List.mem_cons.mp hx with rfl | hx
      · linarith
      · linarith [le_of_mem_raised hx])
    (by rw [(deviations_raised_twice k).2]; positivity)]
  refine le_percentScore (by norm_num) ?_
  have hk' : (8 : ℚ) ≤ k := by exact_mod_cast hk
  have hcorr : 3 / 10 ≤ autocorr (11 :: raised k) := by
    rw [autocorr_raised_twice, le_div_iff₀ (by positivity)]
    nlinarith
  have := le_max_right 0 (50 + autocorr (11 :: raised k) * 50)
  push_cast
  linarith

theorem tail_echoes (x : ℚ) (l : List ℚ) :
    (frameOf (echoes (x :: l))).tail (l.length : ℤ) = echoes l := by
  rw [Frame.tail, tail_nonneg (by omega)]
  simp [frameOf, echoes]

theorem tail_echoes_all {l : List ℚ} (h : l.length ≤ b) :
    (frameOf (echoes l)).tail b = echoes l :=
  tail_all (by simpa [frameOf, echoes] using h)

/-- Two windows of which one has its ten bars see different autocorrelations somewhere. -/
theorem volumeAuthenticity_differs (hab : a < b) (hb : 10 ≤ b) : ∃ df,
    volumeAuthenticity df a ≠ volumeAuthenticity df b := by
  by_cases ha : a < 10
  · refine ⟨frameOf (echoes (raised 8)), ?_⟩
    intro heq
    have hlen : ((frameOf (echoes (raised 8))).tail a).length < 10 := by
      rw [Frame.tail, length_tail (by omega)]
      omega
    have hwhole : volumeAuthenticity (frameOf (echoes (raised 8))) 10 = 90 := by decide +kernel
    have hall : volumeAuthenticity (frameOf (echoes (raised 8))) b = 90 := by
      rw [← hwhole]
      simp only [volumeAuthenticity, tail_echoes_all (l := raised 8) hb]
      rfl
    rw [← heq, volumeAuthenticity, if_pos hlen] at hall
    norm_num at hall
  · obtain ⟨k, rfl⟩ : ∃ k, a = k + 2 := ⟨a - 2, by omega⟩
    refine ⟨frameOf (echoes (11 :: raised k)), ?_⟩
    intro heq
    have hlen : (raised k).length = k + 2 := by simp [raised]
    have hpart := authenticity_raised (k := k) (hlen ▸ tail_echoes 11 (raised k)) (by omega)
    have hwhole := authenticity_raised_twice (k := k)
      (tail_echoes_all (l := 11 :: raised k) (by simp [raised]; omega)) (by omega)
    rw [← heq] at hwhole
    omega

/-! Quant regime. -/

/-- Bars of one price with the given volumes. -/
def still (vols : List ℚ) : List Row := vols.map fun x => flatRow 1 x

theorem gaps_still (vols : List ℚ) : gaps (still vols) = 0 := by
  refine count_eq_zero ?_
  intro b hb
  rw [paired_eq_zipWith] at hb
  obtain ⟨i, hi, rfl⟩ := List.mem_iff_getElem.mp hb
  norm_num [still, flatRow]

theorem reversals_still (vols : List ℚ) : reversals (still vols) = 0 := by
  refine count_eq_zero ?_
  intro r hr
  obtain ⟨x, -, rfl⟩ := List.mem_map.mp hr
  norm_num [flatRow]

theorem tailReturns_still (vols : List ℚ) :
    tailReturns N ((still vols).map Row.close) = 0 := by
  have hrets : paired (fun a b : ℚ => (b - a) / a) ((still vols).map Row.close) =
      List.replicate (vols.length - 1) 0 := by
    rw [paired_eq_zipWith]
    refine List.ext_getElem (by simp [still]) ?_
    intro i h₁ h₂
    simp [still, flatRow]
  unfold tailReturns
  simp only [hrets]
  split_ifs with h0 hs
  · rfl
  · refine count_eq_zero ?_
    intro r hr
    rw [(List.mem_replicate.mp hr).2]
    simp only [mean, List.sum_replicate, smul_zero, zero_div, sub_zero, abs_zero, not_lt]
    linarith
  · rfl

/-- On bars of one price only the volumes score. -/
theorem regimeScore_still (vols : List ℚ) : regimeScore N (still vols) =
    percentScore (min 100 ((if 0 < mean vols then N.sqrt (variance 0 vols) / mean vols else 0) *
      80) * (30 / 100)) := by
  have hvols : (still vols).map Row.volume = vols := by
    simp [still, flatRow, Function.comp_def]
  simp only [regimeScore, gaps_still, reversals_still, tailReturns_still, hvols]
  norm_num

theorem regimeScore_zeros (n : ℕ) : regimeScore N (still (List.replicate n 0)) = 0 := by
  have hmean : mean (List.replicate n 0) = 0 := by simp [mean]
  rw [regimeScore_still, hmean, if_neg (lt_irrefl 0)]
  norm_num
  decide +kernel

/-- One bar with all the volume at the front of the window. -/
theorem regimeScore_burst (hsqrt : ∀ x, 16 ≤ x → 4 ≤ N.sqrt x) {n : ℕ} (hn : 20 ≤ n) :
    30 ≤ regimeScore N (still (((n : ℚ) + 1) :: List.replicate n 0)) := by
  have hn' : (20 : ℚ) ≤ n := by exact_mod_cast hn
  have hmean : mean (((n : ℚ) + 1) :: List.replicate n 0) = 1 := by
    simp only [mean, List.sum_cons, List.sum_replicate, List.length_cons, List.length_replicate,
      smul_zero, add_zero]
    push_cast
    exact div_self (by linarith)
  have hvar : variance 0 (((n : ℚ) + 1) :: List.replicate n 0) = n := by
    have hne : (n : ℚ) + 1 ≠ 0 := by linarith
    simp only [variance, hmean, List.map_cons, List.map_replicate, List.sum_cons,
      List.sum_replicate, List.length_cons, List.length_replicate, nsmul_eq_mul]
    push_cast
    rw [sub_zero, div_eq_iff hne]
    ring
  have hcv := hsqrt n (by linarith)
  rw [regimeScore_still, hmean, hvar, if_pos one_pos, div_one, min_eq_left (by linarith)]
  exact le_percentScore (by norm_num) (by norm_num)

theorem tail_still (x : ℚ) (l : List ℚ) :
    (frameOf (still (x :: l))).tail (l.length : ℤ) = still l := by
  rw [Frame.tail, tail_nonneg (by omega)]
  simp [frameOf, still]

theorem tail_still_all {l : List ℚ} (h : l.length ≤ b) : (frameOf (still l)).tail b = still l :=
  tail_all (by simpa [frameOf, still] using h)

theorem quantRegime_score {df : Frame} {m : ℤ} {l : List ℚ} (h : df.tail m = still l)
    (hl : 20 ≤ l.length) : (quantRegime N w df m).1 = regimeScore N (still l) := by
  have hlen : ¬ (still l).length < 20 := by simpa [still] using hl
  simp only [quantRegime, h, if_neg hlen]

/-- Two windows of which one has its twenty bars see different volumes somewhere. -/
theorem quantRegime_differs (hsqrt : ∀ x, 16 ≤ x → 4 ≤ N.sqrt x) (hab : a < b) (hb : 20 ≤ b) :
    ∃ df, (quantRegime N w df a).1 ≠ (quantRegime N v df b).1 := by
  by_cases ha : a < 20
  · refine ⟨frameOf (still (List.replicate 20 0)), ?_⟩
    intro heq
    have hlen : ((frameOf (still (List.replicate 20 0))).tail a).length < 20 := by
      rw [Frame.tail, length_tail (by omega)]
      omega
    have hwhole := quantRegime_score (N := N) (w := v)
      (tail_still_all (l := List.replicate 20 0) (by simpa using hb)) (by simp)
    rw [regimeScore_zeros, ← heq, quantRegime, if_pos hlen] at hwhole
    norm_num at hwhole
  · refine ⟨frameOf (still (((a : ℚ) + 1) :: List.replicate a 0)), ?_⟩
    intro heq
    have hpart := tail_still ((a : ℚ) + 1) (List.replicate a 0)
    rw [List.length_replicate] at hpart
    rw [quantRegime_score hpart (by simp; omega), regimeScore_zeros,
      quantRegime_score (tail_still_all (by simp; omega)) (by simp; omega)] at heq
    have := regimeScore_burst hsqrt (not_lt.mp ha)
    omega

/-! The engine in a scope against the engine in a process committed to the tuning. -/

/-- A process that imported the engine under `base`, whatever it applied and entered since, inside
`TuningScope(t)`. -/
def inScope (base : TuningConstants) (applied : Option TuningConstants)
    (context : List TuningConstants) (t : TuningConstants) : Process :=
  ({ tuning := base, applied := applied, context := context } : Process).enter t

/-- A process whose committed default is `t`. -/
def committed (t : TuningConstants) : Process := { tuning := t }

/-- `build_signal` and the verifiers with a default window give the same results. -/
structure ReadsLive (N : Numerics) (w v : Process) : Prop where
  build : ∀ i, buildSignal N w i = buildSignal N v i
  trap : ∀ df lo hi b, quantTrapRisk df lo hi b w.tuning.quantTrapLookback =
    quantTrapRisk df lo hi b v.tuning.quantTrapLookback
  volume : ∀ df, volumeAuthenticity df w.tuning.volumeAuthenticityWindow =
    volumeAuthenticity df v.tuning.volumeAuthenticityWindow
  regime : ∀ df, quantRegime N w df w.tuning.quantRegimeWindow =
    quantRegime N v df v.tuning.quantRegimeWindow

/-- The windows frozen at import select what the windows of the tuning would. -/
structure SameWindows (base t : TuningConstants) : Prop where
  trap : SameWindow 15 base.quantTrapLookback t.quantTrapLookback
  volume : SameWindow 10 base.volumeAuthenticityWindow t.volumeAuthenticityWindow
  regime : SameWindow 20 base.quantRegimeWindow t.quantRegimeWindow

theorem TuningConstants.windows_pos (t : TuningConstants) : 0 < t.quantTrapLookback ∧
    0 < t.volumeAuthenticityWindow ∧ 0 < t.quantRegimeWindow := by
  refine ⟨t.intFields_pos ?_, t.intFields_pos ?_, t.intFields_pos ?_⟩ <;>
    simp [TuningFields.intFields]

/-- Windows that differ from the least number of bars on are told apart by two bounds. -/
theorem sameWindow_of {least : ℕ} {x y : ℤ} (hx : 0 < x) (hy : 0 < y)
    (h : ∀ a b : ℕ, a < b → least ≤ b → (x = a ∧ y = b) ∨ (x = b ∧ y = a) → False) :
    SameWindow least x y := by
  obtain ⟨a, rfl⟩ := Int.eq_ofNat_of_zero_le hx.le
  obtain ⟨b, rfl⟩ := Int.eq_ofNat_of_zero_le hy.le
  by_contra hne
  obtain ⟨hab, hmax⟩ := not_or.mp hne
  rcases lt_or_gt_of_ne (fun he : a = b => hab (by rw [he])) with hlt | hlt
  · exact h a b hlt (by omega) (Or.inl ⟨rfl, rfl⟩)
  · exact h b a hlt (by omega) (Or.inr ⟨rfl, rfl⟩)

theorem SameWindows.sameReads (h : SameWindows base t) (applied : Option TuningConstants)
    (context : List TuningConstants) : SameReads N (inScope base applied context t) (committed t) := by
  obtain ⟨b1, b2, b3⟩ := base.windows_pos
  obtain ⟨t1, t2, t3⟩ := t.windows_pos
  exact ⟨rfl, rfl, quantTrapRisk_sameWindow b1.le t1.le h.trap,
    volumeAuthenticity_sameWindow b2.le t2.le h.volume,
    quantRegime_sameWindow b3.le t3.le h.regime rfl⟩

/-- The engine follows a scope exactly when the three windows frozen at import agree with it. -/
theorem readsLive_iff_sameWindows (hsqrt : ∀ x, 16 ≤ x → 4 ≤ N.sqrt x)
    (applied : Option TuningConstants) (context : List TuningConstants) :
    ReadsLive N (inScope base applied context t) (committed t) ↔ SameWindows base t := by
  constructor
  · intro h
    obtain ⟨b1, b2, b3⟩ := base.windows_pos
    obtain ⟨t1, t2, t3⟩ := t.windows_pos
    refine ⟨sameWindow_of b1 t1 fun a b hab hb hxy => ?_,
      sameWindow_of b2 t2 fun a b hab hb hxy => ?_, sameWindow_of b3 t3 fun a b hab hb hxy => ?_⟩
    · obtain ⟨df, hd⟩ := quantTrapRisk_differs hab hb
      have heq := h.trap df 2 2 true
      change quantTrapRisk df 2 2 true base.quantTrapLookback =
        quantTrapRisk df 2 2 true t.quantTrapLookback at heq
      rcases hxy with ⟨hx, hy⟩ | ⟨hx, hy⟩
      · exact hd (hx ▸ hy ▸ heq)
      · exact hd (hx ▸ hy ▸ heq).symm
    · obtain ⟨df, hd⟩ := volumeAuthenticity_differs hab hb
      have heq := h.volume df
      change volumeAuthenticity df base.volumeAuthenticityWindow =
        volumeAuthenticity df t.volumeAuthenticityWindow at heq
      rcases hxy with ⟨hx, hy⟩ | ⟨hx, hy⟩
      · exact hd (hx ▸ hy ▸ heq)
      · exact hd (hx ▸ hy ▸ heq).symm
    · rcases hxy with ⟨hx, hy⟩ | ⟨hx, hy⟩
      · obtain ⟨df, hd⟩ := quantRegime_differs (w := inScope base applied context t)
          (v := committed t) hsqrt hab hb
        have heq := congrArg Prod.fst (h.regime df)
        change (quantRegime N _ df base.quantRegimeWindow).1 =
          (quantRegime N _ df t.quantRegimeWindow).1 at heq
        rw [hx, hy] at heq
        exact hd heq
      · obtain ⟨df, hd⟩ := quantRegime_differs (w := committed t)
          (v := inScope base applied context t) hsqrt hab hb
        have heq := congrArg Prod.fst (h.regime df)
        change (quantRegime N _ df base.quantRegimeWindow).1 =
          (quantRegime N _ df t.quantRegimeWindow).1 at heq
        rw [hx, hy] at heq
        exact hd heq.symm
  · intro h
    have hs := h.sameReads (N := N) applied context
    exact ⟨fun i => hs.buildSignal_eq, hs.trap, hs.volume, hs.regime⟩

/-- The digits found are those of the largest integer whose square fits. -/
theorem le_sqrtDigits {m n : ℕ} (k r : ℕ) (hn : n ^ 2 ≤ m) (h : n < r + 2 ^ k) :
    n ≤ sqrtDigits m k r := by
  induction k generalizing r with
  | zero =>
    simp only [sqrtDigits]
    omega
  | succ k ih =>
    rw [sqrtDigits]
    split_ifs with hr
    · exact ih _ (by rw [pow_succ] at h; omega)
    · refine ih _ (lt_of_pow_lt_pow_left₀ 2 (by omega) (hn.trans_lt (not_le.mp hr)))

theorem four_le_decimalSqrt {x : ℚ} (h : 16 ≤ x) : 4 ≤ decimalSqrt x := by
  have hfloor : 16 * 10 ^ 24 ≤ ⌊x * 10 ^ 24⌋ := by
    rw [Int.le_floor]
    push_cast
    linarith
  have hle : 4 * 10 ^ 12 ≤ sqrtDigits ⌊x * 10 ^ 24⌋.toNat 60 0 :=
    le_sqrtDigits 60 0 (by omega) (by norm_num)
  have hq : ((4 * 10 ^ 12 : ℕ) : ℚ) ≤ (sqrtDigits ⌊x * 10 ^ 24⌋.toNat 60 0 : ℕ) := by
    exact_mod_cast hle
  rw [decimalSqrt, le_div_iff₀ (by positivity)]
  push_cast at hq
  linarith

/-- A tuning whose regime window is below the twenty bars the regime needs. -/
def shortRegime : TuningConstants := ⟨{ quantRegimeWindow := 15 }, by decide +kernel⟩

theorem inScope_view : (buildSignal plainNumerics (inScope .defaults none [] shortRegime)
    alternatingInput).toOption.join.map Signal.regime = some .highQuant := by
  decide +kernel

theorem committed_view : (buildSignal plainNumerics (committed shortRegime)
    alternatingInput).toOption.join.map Signal.regime = some .normal := by
  decide +kernel

/-- Inside the scope the regime is still scored over the hundred bars of the committed default. -/
theorem shortRegime_ignored :
    buildSignal plainNumerics (inScope .defaults none [] shortRegime) alternatingInput ≠
      buildSignal plainNumerics (committed shortRegime) alternatingInput := by
  intro h
  have := inScope_view
  rw [h, committed_view] at this
  simp at this

theorem shortRegime_not_live :
    ¬ ReadsLive plainNumerics (inScope .defaults none [] shortRegime) (committed shortRegime) := by
  rw [readsLive_iff_sameWindows fun _ => four_le_decimalSqrt]
  intro h
  have := h.regime
  simp [SameWindow, TuningConstants.defaults, shortRegime] at this

end Pyharmonics
