import Pyharmonics.BenchRunner

/-! The ranges of the bench scores, and where a penalty or a negative mean leaves them. -/
namespace Pyharmonics.Bench

open Groups Rounding Sorting

variable {sqrt : ℚ → ℚ} {resample : String → List (ℤ × ℚ) → List ℚ} {unknown : String → Bool}
  {rec : SignalRecord} {records group : List SignalRecord} {family : String} {x y : ℚ}
  {xs : List ℚ} {score : Option ℚ} {o : Outcome} {j k : ℕ}

/-- The score lies between zero and the top of its range. -/
def Between (x : ℚ) (top : ℕ) : Prop := 0 ≤ x ∧ x ≤ top

/-- A score that was given lies in its range. -/
def Ranged (x : Option ℚ) (top : ℕ) : Prop := ∀ s ∈ x, Between s top

theorem ranged_some : Ranged (some x) k ↔ Between x k := by simp [Ranged]

theorem Between.add (hx : Between x j) (hy : Between y k) : Between (x + y) (j + k) := by
  refine ⟨add_nonneg hx.1 hy.1, ?_⟩
  push_cast
  exact add_le_add hx.2 hy.2

theorem Between.round (h : Between x k) (n : ℕ) : Between (roundTo n x) k := by
  have hbounds : ((0 : ℤ) : ℚ) ≤ roundTo n x ∧ roundTo n x ≤ ((k : ℤ) : ℚ) :=
    roundTo_between (by simpa using h.1) (by simpa using h.2)
  simpa [Between] using hbounds

theorem Ranged.getD (h : Ranged score k) : Between (score.getD 0) k := by
  cases score with
  | none => exact ⟨le_rfl, Nat.cast_nonneg k⟩
  | some s => exact h s rfl

/-! The validity and the technical stage. -/

theorem geometricSubscore_between :
    Between (geometricSubscore (.decimal sqrt resample unknown) rec) 4 := by
  unfold geometricSubscore
  dsimp only
  split_ifs with h0 h1
  · norm_num [Between]
  · norm_num [Between]
  · refine Between.round ⟨?_, ?_⟩ 4
    · linarith
    · push_cast
      linarith

theorem przSubscore_between : Between (przSubscore rec) 2 := by
  unfold przSubscore
  split_ifs <;> norm_num [Between]

theorem stopSubscore_between :
    Between (stopSubscore (.decimal sqrt resample unknown) rec) 2 := by
  unfold stopSubscore
  dsimp only
  split_ifs with hatr hmid hnear
  · norm_num [Between]
  · norm_num [Between]
  · have hpos : 0 ≤ |rec.entryPrice - rec.stopPrice| / rec.atrAtEntry :=
      div_nonneg (abs_nonneg _) (not_le.mp hatr).le
    refine Between.round ⟨?_, ?_⟩ 4
    · linarith
    · push_cast
      linarith
  · -- beyond three ranges the score decays
    have hfar : 3 < |rec.entryPrice - rec.stopPrice| / rec.atrAtEntry :=
      not_le.mp fun hle => hmid ⟨not_lt.mp hnear, hle⟩
    refine Between.round ⟨le_max_left _ _, max_le ?_ ?_⟩ 4
    · norm_num
    · push_cast
      linarith

theorem dataSubscore_between : Between (dataSubscore rec) 2 := by
  unfold dataSubscore
  split_ifs <;> norm_num [Between]

theorem entryZoneSubscore_between :
    Between (entryZoneSubscore (.decimal sqrt resample unknown) rec) 2 := by
  unfold entryZoneSubscore
  dsimp only
  split_ifs with hfar hnear
  · norm_num [Between]
  · norm_num [Between]
  · refine Between.round ⟨?_, ?_⟩ 4
    · linarith
    · push_cast
      linarith

theorem stage1Score_ranged :
    Ranged (stage1Score (.decimal sqrt resample unknown) rec).stage1Score 12 :=
  ranged_some.mpr (((((geometricSubscore_between.add przSubscore_between).add
    stopSubscore_between).add dataSubscore_between).add entryZoneSubscore_between).round 4)

theorem gradeSubscore_between {grade : Grade} (h : gradeSubscore grade = .ok x) : Between x 4 := by
  have htable : ∀ g ∈ [Grade.a, .b, .c, .reference], ∀ v ∈ (gradeSubscore g).toOption,
      0 ≤ v ∧ v ≤ 4 := by decide +kernel
  exact htable grade (by cases grade <;> simp) x (toOption_eq_some.mpr h)

theorem confluenceSubscore_between : Between (confluenceSubscore x) 3 := by
  unfold confluenceSubscore
  split_ifs <;> norm_num [Between]

theorem stabilitySubscore_between {verdict : String} : Between (stabilitySubscore verdict) 3 := by
  unfold stabilitySubscore
  dsimp only
  split_ifs <;> norm_num [Between]

theorem stage4bScore_ranged {out : SignalRecord}
    (h : stage4bScore (.decimal sqrt resample unknown) rec = .ok out) :
    Ranged out.stage4bScore 10 := by
  obtain ⟨grade, hgrade, h⟩ := bind_ok.mp h
  obtain rfl := Except.ok.inj h
  exact ranged_some.mpr ((((gradeSubscore_between hgrade).add confluenceSubscore_between).add
    stabilitySubscore_between).round 4)

/-! The outcome stage. -/

/-- Something else in the record earns the five points that the penalty takes. -/
def PenaltyCovered (rec : SignalRecord) : Prop :=
  rec.hitStopBeforeTp ≠ some true ∨
    rec.outcome ∉ [some .stoploss, some .expired, some .incomplete] ∨
    (∃ r ∈ rec.netRr, 2 ≤ r) ∨ (∃ e ∈ rec.priceEfficiency, 1 / 2 ≤ e) ∨
    (∃ r ∈ rec.netRr, 1 ≤ r ∧ rec.priceEfficiency ≠ none) ∨
    ∃ r ∈ rec.netRr, 1 / 2 ≤ r ∧ ∃ e ∈ rec.priceEfficiency, 3 / 10 ≤ e

theorem resultSubscore_cases (o : Outcome) : ∃ k : ℕ, resultSubscore o = k ∧ k ≤ 25 ∧
    (5 ≤ k ∨ k = 0) ∧ (5 ≤ k ↔ o ∉ [.stoploss, .expired, .incomplete]) := by
  cases o with
  | tp3 => exact ⟨25, rfl, by decide⟩
  | tp2 => exact ⟨20, rfl, by decide⟩
  | tp1 => exact ⟨15, rfl, by decide⟩
  | breakeven => exact ⟨8, rfl, by decide⟩
  | stoploss => exact ⟨0, rfl, by decide⟩
  | expired => exact ⟨0, rfl, by decide⟩
  | incomplete => exact ⟨0, rfl, by decide⟩

theorem rrSubscore_cases (netRr : Option ℚ) : ∃ k ∈ [0, 2, 4, 7, 10], rrSubscore netRr = (k : ℕ) ∧
    (7 ≤ k ↔ ∃ r ∈ netRr, 2 ≤ r) ∧ (4 ≤ k ↔ ∃ r ∈ netRr, 1 ≤ r) ∧
    (2 ≤ k ↔ ∃ r ∈ netRr, 1 / 2 ≤ r) := by
  cases netRr with
  | none => exact ⟨0, by simp [rrSubscore]⟩
  | some r =>
    simp only [rrSubscore, Option.mem_some_iff, exists_eq_left']
    split_ifs with h3 h2 h1 hhalf
    · exact ⟨10, by simp; refine ⟨?_, ?_, ?_⟩ <;> linarith⟩
    · exact ⟨7, by simp; refine ⟨?_, ?_, ?_⟩ <;> linarith⟩
    · exact ⟨4, by simp; refine ⟨?_, ?_, ?_⟩ <;> linarith⟩
    · exact ⟨2, by simp; refine ⟨?_, ?_, ?_⟩ <;> linarith⟩
    · exact ⟨0, by simp; refine ⟨?_, ?_, ?_⟩ <;> linarith⟩

theorem efficiencySubscore_cases (rec : SignalRecord) : ∃ k ∈ [0, 1, 3, 6, 10],
    efficiencySubscore rec = (k : ℕ) ∧ (6 ≤ k ↔ ∃ e ∈ rec.priceEfficiency, 1 / 2 ≤ e) ∧
    (3 ≤ k ↔ ∃ e ∈ rec.priceEfficiency, 3 / 10 ≤ e) ∧ (1 ≤ k ↔ rec.priceEfficiency ≠ none) := by
  unfold efficiencySubscore
  cases rec.priceEfficiency with
  | none => exact ⟨0, by simp⟩
  | some e =>
    simp only [Option.mem_some_iff, exists_eq_left']
    split_ifs with h8 h5 h3
    · exact ⟨10, by simp; constructor <;> linarith⟩
    · exact ⟨6, by simp; constructor <;> linarith⟩
    · exact ⟨3, by simp; constructor <;> linarith⟩
    · exact ⟨1, by simp; constructor <;> linarith⟩

/-- An integer score is rounded to itself. -/
theorem round_intCast_between {t : ℤ} :
    Between ((Numerics.decimal sqrt resample unknown).round 4 (t : ℚ)) k ↔ 0 ≤ t ∧ t ≤ k := by
  have hself : (Numerics.decimal sqrt resample unknown).round 4 (t : ℚ) = t := roundTo_intCast 4 t
  rw [hself, Between, Int.cast_nonneg_iff]
  exact and_congr_right fun _ => by exact_mod_cast Iff.rfl

/-- The points that a record earns in the outcome stage are whole, and five of them are there when
the penalty is covered. -/
theorem outcomePoints (h : rec.outcome = some o) : ∃ points : ℕ,
    resultSubscore o + rrSubscore rec.netRr + efficiencySubscore rec = points ∧ points ≤ 45 ∧
      (PenaltyCovered rec ↔ rec.hitStopBeforeTp ≠ some true ∨ 5 ≤ points) := by
  obtain ⟨a, ha, ha25, hazero, hacases⟩ := resultSubscore_cases o
  obtain ⟨b, hb, hrr, hb7, hb4, hb2⟩ := rrSubscore_cases rec.netRr
  obtain ⟨c, hc, heff, hc6, hc3, hc1⟩ := efficiencySubscore_cases rec
  have houtcome : rec.outcome ∉ [some .stoploss, some .expired, some .incomplete] ↔ 5 ≤ a := by
    rw [h, hacases]
    simp
  have hsome : (∃ r ∈ rec.netRr, 1 ≤ r ∧ rec.priceEfficiency ≠ none) ↔ 4 ≤ b ∧ 1 ≤ c := by
    rw [hb4, hc1, ← exists_and_right]
    simp only [and_assoc]
  have hhalf : (∃ r ∈ rec.netRr, 1 / 2 ≤ r ∧ ∃ e ∈ rec.priceEfficiency, 3 / 10 ≤ e) ↔
      2 ≤ b ∧ 3 ≤ c := by
    rw [hb2, hc3, ← exists_and_right]
    simp only [and_assoc]
  simp only [List.mem_cons, List.not_mem_nil, or_false] at hb hc
  refine ⟨a + b + c, by rw [ha, hrr, heff]; push_cast; ring, by omega, ?_⟩
  rw [PenaltyCovered, houtcome, hsome, hhalf, ← hb7, ← hc6]
  refine or_congr_right ?_
  rcases hb with rfl | rfl | rfl | rfl | rfl <;> omega

/-- The outcome score stays in its range exactly when the penalty is covered. -/
theorem stage3Score_ranged_iff :
    Ranged (stage3Score (.decimal sqrt resample unknown) rec).stage3Score 50 ↔
      PenaltyCovered rec := by
  unfold stage3Score
  rw [ranged_some]
  cases ho : rec.outcome with
  | none => exact iff_of_true (by norm_num [Between]) (Or.inr (Or.inl (by simp [ho])))
  | some o =>
    obtain ⟨points, hpoints, hle, hcovered⟩ := outcomePoints ho
    dsimp only
    rw [hcovered, hpoints]
    by_cases hhit : rec.hitStopBeforeTp = some true
    · have hsum : (points : ℚ) + stopHitPenalty rec = ((points - 5 : ℤ) : ℚ) := by
        rw [stopHitPenalty, if_pos hhit]
        push_cast
        ring
      rw [hsum, round_intCast_between, or_iff_right (not_not.mpr hhit)]
      omega
    · have hsum : (points : ℚ) + stopHitPenalty rec = ((points : ℤ) : ℚ) := by
        rw [stopHitPenalty, if_neg hhit, add_zero, Int.cast_natCast]
      rw [hsum, round_intCast_between]
      exact iff_of_true (by omega) (Or.inl hhit)

/-! The totals. -/

/-- The stage scores of a record are in their ranges. -/
structure StagesRanged (rec : SignalRecord) : Prop where
  stage1 : Ranged rec.stage1Score 12
  stage3 : Ranged rec.stage3Score 50
  stage4a : Ranged rec.stage4aScore 20
  stage4b : Ranged rec.stage4bScore 10

theorem StagesRanged.rawScore_between (h : StagesRanged rec) : Between (rawScore rec) 100 := by
  obtain ⟨h1, h1'⟩ := h.stage1.getD
  obtain ⟨h3, h3'⟩ := h.stage3.getD
  obtain ⟨h4a, h4a'⟩ := h.stage4a.getD
  obtain ⟨h4b, h4b'⟩ := h.stage4b.getD
  push_cast at h1' h3' h4a' h4b'
  constructor
  · unfold rawScore
    linarith
  · unfold rawScore
    push_cast
    linarith

theorem StagesRanged.signalScore_ranged (h : StagesRanged rec) :
    Ranged (signalScore (.decimal sqrt resample unknown) rec).signalScore 100 := by
  obtain ⟨h0, h100⟩ := h.rawScore_between
  unfold signalScore
  split_ifs
  · refine ranged_some.mpr (Between.round ⟨by linarith, ?_⟩ 4)
    push_cast at h100 ⊢
    linarith
  · exact ranged_some.mpr (Between.round ⟨h0, h100⟩ 4)

theorem meanOr0_between (h : ∀ x ∈ xs, Between x k) : Between (meanOr0 xs) k := by
  unfold meanOr0
  split_ifs with hnil
  · exact ⟨le_rfl, Nat.cast_nonneg k⟩
  · have hlen : (0 : ℚ) < xs.length := by exact_mod_cast List.length_pos_iff.mpr hnil
    refine ⟨div_nonneg (List.sum_nonneg fun x hx => (h x hx).1) hlen.le, ?_⟩
    rw [div_le_iff₀ hlen, mul_comm, ← nsmul_eq_mul]
    exact List.sum_le_card_nsmul xs k fun x hx => (h x hx).2

/-- The winners' mean multiple. -/
def winnersMean (group : List SignalRecord) : ℚ :=
  meanOr0 ((group.filter fun r => r.outcome.any Outcome.isWin).filterMap SignalRecord.netRr)

/-- The decided share that was won. -/
def winShare (group : List SignalRecord) : ℚ :=
  let wins := group.countP fun r => r.outcome.any Outcome.isWin
  let decided := wins + group.countP fun r => r.outcome = some .stoploss
  if 0 < decided then (wins : ℚ) / decided else 0

/-- The points a family earns, its winners' mean counted from zero on. -/
def earned (group : List SignalRecord) : ℚ :=
  4 / 10 * meanOr0 (group.filterMap SignalRecord.signalScore) + 25 * winShare group +
    20 * min (max 0 (winnersMean group / 5)) 1 + 15 * min ((group.length : ℚ) / 100) 1

/-- The points a negative mean of its winners takes: four for each unit of risk. -/
def owed (group : List SignalRecord) : ℚ := 4 * max 0 (-winnersMean group)

/-- The records of each pattern family. -/
def families (records : List SignalRecord) : List (List SignalRecord) :=
  (groupBy SignalRecord.patternFamily records).values

/-- What is left of the points when some family is small. -/
def sizeFactor (records : List SignalRecord) : ℚ :=
  if (families records).any fun group => decide (group.length < 10) then 9 / 10 else 1

/-- The points earned less those owed, over the families weighted by their sizes. -/
def balance (records : List SignalRecord) : ℚ :=
  ((families records).map fun group => group.length * roundTo 4 (earned group - owed group)).sum

/-- The points earned make up for those owed, up to the half unit that the last rounding takes. -/
def RewardCovered (records : List SignalRecord) : Prop :=
  0 ≤ sizeFactor records * balance records + records.length / 20000

theorem winShare_between : Between (winShare group) 1 := by
  unfold winShare
  dsimp only
  split_ifs with hdecided
  · have hpos : (0 : ℚ) < (group.countP fun r => r.outcome.any Outcome.isWin) +
        (group.countP fun r => decide (r.outcome = some .stoploss)) := by exact_mod_cast hdecided
    push_cast
    refine ⟨div_nonneg (Nat.cast_nonneg _) hpos.le, ?_⟩
    rw [Nat.cast_one, div_le_one hpos]
    exact le_add_of_nonneg_right (Nat.cast_nonneg _)
  · norm_num [Between]

theorem earned_between (h : ∀ r ∈ group, Ranged r.signalScore 100) :
    Between (earned group) 100 := by
  have hmean : Between (meanOr0 (group.filterMap SignalRecord.signalScore)) 100 := by
    refine meanOr0_between fun x hx => ?_
    obtain ⟨r, hr, hx⟩ := List.mem_filterMap.mp hx
    exact h r hr x hx
  obtain ⟨hm, hm'⟩ := hmean
  obtain ⟨hw, hw'⟩ := @winShare_between group
  have hr : 0 ≤ min (max 0 (winnersMean group / 5)) 1 := le_min (le_max_left _ _) zero_le_one
  have hr' : min (max 0 (winnersMean group / 5)) 1 ≤ 1 := min_le_right _ _
  have hn : 0 ≤ min ((group.length : ℚ) / 100) 1 := le_min (by positivity) zero_le_one
  have hn' : min ((group.length : ℚ) / 100) 1 ≤ 1 := min_le_right _ _
  push_cast at hm' hw'
  constructor
  · unfold earned
    linarith
  · unfold earned
    push_cast
    linarith

theorem owed_nonneg : 0 ≤ owed group := mul_nonneg (by norm_num) (le_max_left _ _)

/-- The term that is capped above only, as a capped gain less a loss. -/
theorem capped_eq (m : ℚ) :
    min (m / 5) 1 * 100 * (20 / 100) = 20 * min (max 0 (m / 5)) 1 - 4 * max 0 (-m) := by
  rcases le_total 0 m with hm | hm
  · rw [max_eq_right (div_nonneg hm (by norm_num)), max_eq_left (neg_nonpos.mpr hm)]
    ring
  · have hm5 : m / 5 ≤ 0 := by linarith
    rw [max_eq_left hm5, max_eq_right (neg_nonneg.mpr hm), min_eq_left (hm5.trans zero_le_one),
      min_eq_left zero_le_one]
    ring

theorem patternStats_score :
    (patternStats (.decimal sqrt resample unknown) family group).patternScore =
      roundTo 4 (earned group - owed group) := by
  have hlen : ∀ p : SignalRecord → Bool, (group.filter p).length = group.countP p := fun p =>
    List.countP_eq_length_filter.symm
  unfold patternStats
  dsimp only
  rw [hlen, hlen]
  refine congrArg (roundTo 4) ?_
  have hcapped := capped_eq (winnersMean group)
  unfold winnersMean at hcapped
  rw [hcapped]
  simp only [earned, owed, winShare, winnersMean]
  push_cast
  ring

theorem mem_of_mem_families (h : group ∈ families records) (hr : rec ∈ group) : rec ∈ records := by
  obtain ⟨⟨family, group'⟩, hmem, rfl⟩ := List.mem_map.mp h
  obtain ⟨rfl, -⟩ := mem_entries_groupBy.mp hmem
  exact List.mem_of_mem_filter hr

theorem sum_families (records : List SignalRecord) :
    ((families records).map List.length).sum = records.length := sum_groupBy

/-- What is summed over the sorted statistics is summed over the families. -/
theorem sum_patternScores {β : Type} [AddCommMonoid β] {f : PatternScore → β}
    {g : List SignalRecord → β} (hfg : ∀ family group,
      f (patternStats (.decimal sqrt resample unknown) family group) = g group) :
    ((patternScores (.decimal sqrt resample unknown) records).map f).sum =
      ((families records).map g).sum := by
  unfold patternScores families
  rw [Dict.values, List.map_map, List.map_map,
    ((sortBy_perm Prod.fst (groupBy SignalRecord.patternFamily records).entries).map _).sum_eq]
  exact congrArg List.sum (List.map_congr_left fun e _ => hfg e.1 e.2)

theorem any_patternScores {p : PatternScore → Bool} {q : List SignalRecord → Bool}
    (hpq : ∀ family group,
      p (patternStats (.decimal sqrt resample unknown) family group) = q group) :
    (patternScores (.decimal sqrt resample unknown) records).any p = (families records).any q := by
  unfold patternScores families
  rw [Dict.values, List.any_map, List.any_map,
    (sortBy_perm Prod.fst (groupBy SignalRecord.patternFamily records).entries).any_eq]
  exact congrArg _ (funext fun e => hpq e.1 e.2)

/-- The config score is the balance per record. -/
theorem configScore_eq (h : records ≠ []) :
    (configScoreWithPatterns (.decimal sqrt resample unknown) records).1 =
      some (roundTo 4 (sizeFactor records * balance records / records.length)) := by
  have hbalance := @sum_patternScores sqrt resample unknown records ℚ _
    (fun p => p.patternScore * (p.signalCount : ℚ))
    (fun group => group.length * roundTo 4 (earned group - owed group)) (by
      intro family group
      rw [patternStats_score, mul_comm]
      rfl)
  have hcount : ((patternScores (.decimal sqrt resample unknown) records).map
      PatternScore.signalCount).sum = records.length :=
    (sum_patternScores fun _ _ => rfl).trans (sum_families records)
  have hsmall := @any_patternScores sqrt resample unknown records
    (fun p => decide (p.signalCount < 10)) (fun group => decide (group.length < 10)) fun _ _ => rfl
  unfold configScoreWithPatterns
  rw [if_neg h]
  dsimp only
  rw [hbalance, hcount, hsmall]
  refine congrArg some (congrArg (roundTo 4) ?_)
  unfold sizeFactor balance
  split_ifs
  · ring
  · ring

theorem balance_le (h : ∀ r ∈ records, Ranged r.signalScore 100) :
    balance records ≤ 100 * records.length := by
  rw [← sum_families records, Nat.cast_list_sum, ← List.sum_map_mul_left, List.map_map]
  refine List.sum_le_sum ?_
  intro group hgroup
  have hearned := earned_between fun r hr => h r (mem_of_mem_families hgroup hr)
  have hround : roundTo 4 (earned group - owed group) ≤ ((100 : ℤ) : ℚ) := by
    refine (roundTo_mono ?_).trans (roundTo_intCast 4 100).le
    have hle := hearned.2
    push_cast at hle ⊢
    linarith [@owed_nonneg group]
  rw [Function.comp_apply, mul_comm]
  exact mul_le_mul_of_nonneg_right (by exact_mod_cast hround) (Nat.cast_nonneg _)

theorem sizeFactor_between (records : List SignalRecord) :
    0 < sizeFactor records ∧ sizeFactor records ≤ 1 := by
  unfold sizeFactor
  split_ifs <;> norm_num

theorem configScore_ranged_iff (h : ∀ r ∈ records, Ranged r.signalScore 100) :
    Ranged (configScoreWithPatterns (.decimal sqrt resample unknown) records).1 100 ↔
      RewardCovered records := by
  by_cases hnil : records = []
  · subst hnil
    have hbalance : balance [] = 0 := rfl
    exact iff_of_true (fun s hs => by cases hs) (by simp [RewardCovered, hbalance])
  · have hlen : (0 : ℚ) < records.length := by exact_mod_cast List.length_pos_iff.mpr hnil
    obtain ⟨hfactor, hfactor'⟩ := sizeFactor_between records
    have htop : sizeFactor records * balance records / records.length ≤ ((100 : ℤ) : ℚ) := by
      rw [div_le_iff₀ hlen]
      push_cast
      rcases le_total 0 (balance records) with hb | hb
      · exact (mul_le_of_le_one_left hb hfactor').trans (balance_le h)
      · exact (mul_nonpos_of_nonneg_of_nonpos hfactor.le hb).trans (by positivity)
    have hround := (roundTo_mono (n := 4) htop).trans (roundTo_intCast 4 100).le
    rw [configScore_eq hnil, ranged_some]
    have hzero := @le_roundTo_iff (sizeFactor records * balance records / records.length) 0 4 rfl
    rw [Int.cast_zero, zero_div, zero_sub] at hzero
    rw [Between, hzero, and_iff_left (by exact_mod_cast hround), le_div_iff₀ hlen, RewardCovered]
    constructor
    · intro hle
      linarith
    · intro hle
      linarith

theorem benchTotal_between {signal : ℚ} (hs : Between signal 100) (hc : Ranged score 100) :
    Between (benchTotal (.decimal sqrt resample unknown) signal score) 100 := by
  obtain ⟨hs0, hs1⟩ := hs
  cases score with
  | none => exact Between.round ⟨hs0, hs1⟩ 4
  | some c =>
    obtain ⟨hc0, hc1⟩ := ranged_some.mp hc
    refine Between.round ⟨by linarith, ?_⟩ 4
    push_cast at hs1 hc1 ⊢
    linarith

/-- Where no family's winners lost on the mean, nothing is owed. -/
theorem rewardCovered_of_nonneg (h : ∀ r ∈ records, Ranged r.signalScore 100)
    (hmean : ∀ group ∈ families records, 0 ≤ winnersMean group) : RewardCovered records := by
  refine add_nonneg (mul_nonneg (sizeFactor_between records).1.le (List.sum_nonneg ?_))
    (by positivity)
  rintro x hx
  obtain ⟨group, hgroup, rfl⟩ := List.mem_map.mp hx
  have howed : owed group = 0 := by
    rw [owed, max_eq_left (neg_nonpos.mpr (hmean group hgroup)), mul_zero]
  have hearned := earned_between fun r hr => h r (mem_of_mem_families hgroup hr)
  rw [howed, sub_zero]
  exact mul_nonneg (Nat.cast_nonneg _) (hearned.round 4).1

/-- The validity, technical and signal scores keep their ranges on every record. The outcome score
does exactly where the penalty is covered, and the totals of scored records do exactly where the
negative means of the winners are. -/
theorem scores_ranged_iff :
    (∀ rec : SignalRecord,
      Ranged (stage1Score (.decimal sqrt resample unknown) rec).stage1Score 12 ∧
      (Ranged (stage3Score (.decimal sqrt resample unknown) rec).stage3Score 50 ↔
        PenaltyCovered rec) ∧
      (∀ out, stage4bScore (.decimal sqrt resample unknown) rec = .ok out →
        Ranged out.stage4bScore 10) ∧
      (StagesRanged rec →
        Ranged (signalScore (.decimal sqrt resample unknown) rec).signalScore 100)) ∧
    ∀ records : List SignalRecord, (∀ r ∈ records, Ranged r.signalScore 100) →
      ((Ranged (configScoreWithPatterns (.decimal sqrt resample unknown) records).1 100 ∧
        ∀ signal, Between signal 100 →
          Between (benchTotal (.decimal sqrt resample unknown) signal
            (configScoreWithPatterns (.decimal sqrt resample unknown) records).1) 100) ↔
        RewardCovered records) := by
  refine ⟨fun rec => ⟨stage1Score_ranged, stage3Score_ranged_iff, fun out => stage4bScore_ranged,
    StagesRanged.signalScore_ranged⟩, ?_⟩
  intro records h
  rw [← @configScore_ranged_iff sqrt resample unknown records h]
  exact and_iff_left_of_imp fun hc signal hs => benchTotal_between hs hc

/-- A plain loss, with the metrics of a bar that reached the stop. -/
def stoppedRecord : SignalRecord :=
  { emptyRecord with
    outcome := some .stoploss, netRr := some (-1), priceEfficiency := some 0
    hitStopBeforeTp := some true }

/-- A target that was reached at a loss of twenty times the risk. -/
def costlyRecord : SignalRecord :=
  { emptyRecord with outcome := some .tp1, netRr := some (-20), signalScore := some 50 }

theorem stopped_unranged :
    ¬ Ranged (stage3Score plainNumerics stoppedRecord).stage3Score 50 ∧
    Ranged costlyRecord.signalScore 100 ∧
    ¬ Ranged (configScoreWithPatterns plainNumerics [costlyRecord]).1 100 := by
  have hstopped : (stage3Score plainNumerics stoppedRecord).stage3Score = some (-4) := by
    decide +kernel
  have hcostly :
      (configScoreWithPatterns plainNumerics [costlyRecord]).1 = some (-31365 / 1000) := by
    decide +kernel
  rw [hstopped, hcostly, ranged_some, ranged_some]
  exact ⟨by norm_num [Between], by norm_num [costlyRecord, ranged_some, Between],
    by norm_num [Between]⟩

end Pyharmonics.Bench
