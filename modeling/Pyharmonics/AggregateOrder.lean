import Pyharmonics.BenchAggregator
import Pyharmonics.Grading

/-! What the totals of the bench owe to the order of the records. -/
namespace Pyharmonics.Bench

variable {N : Numerics} {records records' : List SignalRecord} {rec first : SignalRecord}
  {rest : List SignalRecord}

/-- Every order of the records gives one summary, and each record the same values. -/
def OrderFree (N : Numerics) (records : List SignalRecord) : Prop :=
  ∀ records' : List SignalRecord, records'.Perm records →
    (aggregate N records').1 = (aggregate N records).1 ∧
      (records'.zip (aggregate N records').2).Perm (records.zip (aggregate N records).2)

/-- Each record's total is that of its own signal score and the config score, up to `shown`. -/
def OwnTotals (N : Numerics) (shown : ℚ → ℚ) (records : List SignalRecord) : Prop :=
  ∀ rec ∈ (aggregate N records).2, ∃ s c, rec.signalScore = some s ∧ rec.configScore = some c ∧
    rec.benchTotal = some (shown (6 / 10 * s + 4 / 10 * c))

/-- All records get one signal score. -/
def SameScore (N : Numerics) (records : List SignalRecord) : Prop :=
  ∀ a ∈ records, ∀ b ∈ records, scoreOf N a = scoreOf N b

/-- The config score of records, scored before. -/
def configOf (N : Numerics) (records : List SignalRecord) : Option ℚ :=
  (configScoreWithPatterns N (records.map (signalScore N))).1

/-- A record as `aggregate` leaves it. -/
def written (N : Numerics) (cfg : Option ℚ) (total : ℚ) (rec : SignalRecord) : SignalRecord :=
  { signalScore N rec with configScore := cfg, benchTotal := some total }

/-- Every record gets the total of the first one. -/
theorem aggregate_written : (aggregate N (first :: rest)).2 = (first :: rest).map
    (written N (configOf N (first :: rest))
      (benchTotal N (scoreOf N first) (configOf N (first :: rest)))) := by
  simp only [aggregate, List.map_cons, written, configOf, scoreOf, List.map_map]
  rfl

theorem aggregate_signalScore : (aggregate N (first :: rest)).1.signalScore = scoreOf N first := rfl

theorem configOf_cons : ∃ c, configOf N (first :: rest) = some c := by
  unfold configOf configScoreWithPatterns
  rw [if_neg (by simp)]
  exact ⟨_, rfl⟩

theorem configOf_perm (h : records'.Perm records) : configOf N records' = configOf N records := by
  unfold configOf
  rw [configScoreWithPatterns_perm (h.map _)]

/-- One order-free summary tells one score. -/
theorem sameScore_of_orderFree (h : OrderFree N records) : SameScore N records := by
  have hfirst : ∀ a ∈ records, scoreOf N a = (aggregate N records).1.signalScore := by
    intro a ha
    have hp := (List.perm_cons_erase ha).symm
    rw [← (h _ hp).1, aggregate_signalScore]
  intro a ha b hb
  rw [hfirst a ha, hfirst b hb]

theorem zip_map_perm (h : records'.Perm records) (f : SignalRecord → SignalRecord) :
    (records'.zip (records'.map f)).Perm (records.zip (records.map f)) := by
  rw [← List.map_prod_left_eq_zip, ← List.map_prod_left_eq_zip]
  exact h.map _

theorem orderFree_of_sameScore (h : SameScore N records) : OrderFree N records := by
  intro records' hp
  cases records with
  | nil =>
    rw [List.perm_nil.mp hp]
    exact ⟨rfl, List.Perm.refl _⟩
  | cons first rest =>
    cases records' with
    | nil => exact absurd hp.symm (by simp)
    | cons first' rest' =>
      have hscore : scoreOf N first' = scoreOf N first :=
        h first' (hp.mem_iff.mp (by simp)) first (by simp)
      have hcfg := configOf_perm (N := N) hp
      refine ⟨?_, ?_⟩
      · have hscored : ((first' :: rest').map (signalScore N)).Perm
            ((first :: rest).map (signalScore N)) := hp.map _
        have hhead : (signalScore N first').signalScore = (signalScore N first).signalScore := by
          rw [signalScore_some, signalScore_some, hscore]
        simp only [aggregate, List.map_cons] at hscored ⊢
        simp only [configScoreWithPatterns_perm hscored, hscored.countP_eq, hscored.length_eq, hhead]
      · rw [aggregate_written, aggregate_written, hcfg, hscore]
        exact zip_map_perm hp _

/-- Records of one score have their own totals as far as `shown` does what the rounding does. -/
theorem ownTotals_iff (h : SameScore N records) (shown : ℚ → ℚ) : OwnTotals N shown records ↔
    ∀ rec ∈ records, ∀ c, configOf N records = some c →
      N.round 4 (6 / 10 * scoreOf N rec + 4 / 10 * c) =
        shown (6 / 10 * scoreOf N rec + 4 / 10 * c) := by
  cases records with
  | nil => exact iff_of_true (fun rec hrec => by cases hrec) (fun rec hrec => by cases hrec)
  | cons first rest =>
    obtain ⟨c, hc⟩ : ∃ c, configOf N (first :: rest) = some c := configOf_cons
    rw [OwnTotals, aggregate_written, hc]
    constructor
    · intro hown rec hrec c' hc'
      obtain rfl := Option.some.inj hc'
      obtain ⟨s, c', hs, hcfg, ht⟩ := hown _ (List.mem_map_of_mem hrec)
      obtain rfl : scoreOf N rec = s := Option.some.inj (signalScore_some.symm.trans hs)
      obtain rfl : c = c' := Option.some.inj hcfg
      have htotal : N.round 4 (6 / 10 * scoreOf N first + 4 / 10 * c) =
          shown (6 / 10 * scoreOf N rec + 4 / 10 * c) := Option.some.inj ht
      rwa [h first (by simp) rec hrec] at htotal
    · intro hshown rec hrec
      obtain ⟨r, hr, rfl⟩ := List.mem_map.mp hrec
      refine ⟨scoreOf N r, c, signalScore_some, rfl, ?_⟩
      rw [← hshown r hr c rfl, h r hr first (by simp)]
      rfl

/-- The totals are free of the order, and each record's own, exactly when all records have one
score; read without the rounding of the totals, when the rounding leaves that score's total. -/
theorem aggregate_order_iff (records : List SignalRecord) :
    (OrderFree N records ∧ OwnTotals N (N.round 4) records ↔ SameScore N records) ∧
    (OrderFree N records ∧ OwnTotals N id records ↔ SameScore N records ∧
      ∀ rec ∈ records, ∀ c, configOf N records = some c →
        N.round 4 (6 / 10 * scoreOf N rec + 4 / 10 * c) = 6 / 10 * scoreOf N rec + 4 / 10 * c) := by
  constructor
  · constructor
    · exact fun h => sameScore_of_orderFree h.1
    · intro h
      exact ⟨orderFree_of_sameScore h, (ownTotals_iff h _).mpr fun _ _ _ _ => rfl⟩
  · constructor
    · rintro ⟨hfree, hown⟩
      have h := sameScore_of_orderFree hfree
      exact ⟨h, (ownTotals_iff h id).mp hown⟩
    · rintro ⟨h, hround⟩
      exact ⟨orderFree_of_sameScore h, (ownTotals_iff h id).mpr hround⟩

/-! A record that won all the marks of its outcome, and one with none. -/

def wonRecord : SignalRecord :=
  { emptyRecord with outcome := some .tp3, netRr := some 3, stage3Score := some 50 }

def lostRecord : SignalRecord :=
  { emptyRecord with outcome := some .stoploss, netRr := some (-1), stage3Score := some 0 }

theorem won_lost : ((aggregate plainNumerics [wonRecord, lostRecord]).2.map fun r =>
    (r.signalScore, r.configScore, r.benchTotal)) =
      [(some 50, some (3132 / 100), some (42528 / 1000)),
        (some 0, some (3132 / 100), some (42528 / 1000))] := by
  decide +kernel

/-- Swapping the two records changes the summary, and the loser carries the winner's total. -/
theorem swapped_differ : ¬ OrderFree plainNumerics [wonRecord, lostRecord] ∧
    ¬ OwnTotals plainNumerics (plainNumerics.round 4) [wonRecord, lostRecord] ∧
    ¬ OwnTotals plainNumerics id [wonRecord, lostRecord] := by
  have hlost : ∀ shown : ℚ → ℚ, shown (12528 / 1000) ≠ 42528 / 1000 →
      ¬ OwnTotals plainNumerics shown [wonRecord, lostRecord] := by
    intro shown hne hown
    have hmem : (some (0 : ℚ), some (3132 / 100 : ℚ), some (42528 / 1000 : ℚ)) ∈
        (aggregate plainNumerics [wonRecord, lostRecord]).2.map fun r =>
          (r.signalScore, r.configScore, r.benchTotal) := by
      rw [won_lost]
      simp
    obtain ⟨rec, hrec, hview⟩ := List.mem_map.mp hmem
    obtain ⟨s, c, hs, hc, ht⟩ := hown rec hrec
    simp only [Prod.mk.injEq] at hview
    obtain rfl : s = 0 := Option.some.inj (hs.symm.trans hview.1)
    obtain rfl : c = 3132 / 100 := Option.some.inj (hc.symm.trans hview.2.1)
    refine hne (Option.some.inj (Eq.trans ?_ (ht.symm.trans hview.2.2)))
    norm_num
  refine ⟨?_, hlost _ (by decide +kernel), hlost _ (by norm_num)⟩
  intro hfree
  have hsame := (hfree [lostRecord, wonRecord] (List.Perm.swap _ _ _)).1
  have hscores : (aggregate plainNumerics [lostRecord, wonRecord]).1.signalScore ≠
      (aggregate plainNumerics [wonRecord, lostRecord]).1.signalScore := by decide +kernel
  exact hscores (congrArg AggregatorResult.signalScore hsame)

end Pyharmonics.Bench
