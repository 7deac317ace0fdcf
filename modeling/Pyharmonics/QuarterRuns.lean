import Pyharmonics.Checker

/-! Walk-forward validation: one run of a candidate for each quarter, and what they add up to. -/
namespace Pyharmonics.Loop

/-- The metrics of one quarter, with the `__candidate_id__` that the driver puts among them. -/
structure QuarterMetrics where
  metrics : Metrics ℚ
  candidateId : Option String := none

/-- Per-quarter metrics and aggregated scores. -/
structure WalkForwardAggregate where
  candidateId : String
  quarters : List String := []
  perQuarter : List (String × Metrics ℚ) := []
  meanSharpe : ℚ := 0
  meanCalmar : ℚ := 0
  meanTradeCount : ℚ := 0
  worstQuarterSharpe : ℚ := 0
  oosQuarter : Option String := none
  oosSharpe : Option ℚ := none
  oosTradeCount : ℤ := 0
  oosCollapse : Bool := false

/-- The metrics whose names do not start with an underscore. -/
def Metrics.listed (m : Metrics ℚ) : Metrics ℚ :=
  { m with keys := m.keys.filter fun k => k.toList.head? ≠ some '_' }

/-- Flag collapse if the sharpe is missing or negative or there are fewer than 15 trades. -/
def collapses (m : Metrics ℚ) : Bool :=
  match m.sharpe.join with
  | none => true
  | some sharpe => sharpe < 0 || m.tradesCount < 15

def mean (xs : List ℚ) : ℚ := xs.sum / xs.length

/-- `aggregate` -/
def aggregate (perQuarter : List (String × QuarterMetrics)) (oosQuarter : Option String) :
    WalkForwardAggregate :=
  match perQuarter with
  | [] => { candidateId := "?" }
  | first :: _ =>
    let sharpes := perQuarter.map fun p => p.2.metrics.sharpe.join.getD 0
    let calmars := perQuarter.map fun p => p.2.metrics.calmar.getD 0
    let counts := perQuarter.map fun p => (p.2.metrics.tradesCount : ℚ)
    let oosMetrics := oosQuarter.bind fun oos =>
      (perQuarter.find? fun p => p.1 = oos).map fun p => p.2.metrics
    { candidateId := first.2.candidateId.getD "?"
      quarters := perQuarter.map Prod.fst
      perQuarter := perQuarter.map fun p => (p.1, p.2.metrics.listed)
      meanSharpe := mean sharpes
      meanCalmar := mean calmars
      meanTradeCount := mean counts
      worstQuarterSharpe := sharpes.min?.getD 0
      oosQuarter := oosQuarter
      oosSharpe := oosMetrics.bind fun m => m.sharpe.join
      oosTradeCount := (oosMetrics.map Metrics.tradesCount).getD 0
      oosCollapse := (oosMetrics.map collapses).getD false }

/-- The metrics of a run as the driver collects them; errored quarters are skipped. -/
def collect (candidateId : String) (run : String × CandidateResult) :
    Option (String × QuarterMetrics) :=
  if run.2.decision = .error then none
  else some (run.1, ⟨run.2.metrics, some candidateId⟩)

/-- `walk_forward`, with what `run_candidate` has answered for each quarter. -/
def walkForward (candidateId : String) (runs : List (String × CandidateResult)) :
    WalkForwardAggregate :=
  aggregate (runs.filterMap (collect candidateId)) (runs.getLast?.map Prod.fst)

variable {runs earlier : List (String × CandidateResult)} {run : String × CandidateResult}
  {candidateId q : String} {r : CandidateResult} {m : Metrics ℚ}
  {perQuarter : List (String × QuarterMetrics)}

/-- The run is of this quarter and did not fail. -/
def Evaluates (q : String) (run : String × CandidateResult) : Prop :=
  run.1 = q ∧ run.2.decision ≠ .error

instance : DecidablePred (Evaluates q) := fun run =>
  inferInstanceAs (Decidable (run.1 = q ∧ run.2.decision ≠ .error))

/-- The metrics of a quarter: those of the first run of it that did not fail. -/
def quarterMetrics (runs : List (String × CandidateResult)) (q : String) : Option (Metrics ℚ) :=
  (runs.find? fun run => Evaluates q run).map fun run => run.2.metrics

/-- What the gate asks of the last quarter. -/
def Passes (m : Metrics ℚ) : Prop := (∃ sharpe ∈ m.sharpe.join, 0 ≤ sharpe) ∧ 15 ≤ m.tradesCount

theorem collapses_iff : collapses m = false ↔ Passes m := by
  unfold collapses Passes
  cases m.sharpe.join with
  | none => simp
  | some sharpe => simp

theorem aggregate_oosCollapse : (aggregate perQuarter (some q)).oosCollapse =
    (((perQuarter.find? fun p => p.1 = q).map fun p => p.2.metrics).map collapses).getD false := by
  cases perQuarter <;> rfl

theorem find_collected : ((runs.filterMap (collect candidateId)).find? fun p => p.1 = q).map
      (fun p => p.2.metrics) = quarterMetrics runs q := by
  induction runs with
  | nil => rfl
  | cons run runs ih =>
    unfold quarterMetrics at ih ⊢
    by_cases herror : run.2.decision = .error
    · have hnot : ¬ Evaluates q run := fun h => h.2 herror
      rw [List.filterMap_cons_none (by rw [collect, if_pos herror]), ih,
        List.find?_cons_of_neg (by simpa using hnot)]
    · rw [List.filterMap_cons_some (by rw [collect, if_neg herror])]
      by_cases hq : run.1 = q
      · have heval : Evaluates q run := ⟨hq, herror⟩
        rw [List.find?_cons_of_pos (by simpa using hq), List.find?_cons_of_pos (by simpa using heval)]
        rfl
      · have hnot : ¬ Evaluates q run := fun h => hq h.1
        rw [List.find?_cons_of_neg (by simpa using hq), List.find?_cons_of_neg (by simpa using hnot),
          ih]

/-- The flag is raised only by metrics of the last quarter that do not pass. -/
theorem walkForward_clear : (walkForward candidateId (earlier ++ [(q, r)])).oosCollapse = false ↔
    ∀ m ∈ quarterMetrics (earlier ++ [(q, r)]) q, Passes m := by
  rw [walkForward, List.getLast?_concat, Option.map_some, aggregate_oosCollapse, find_collected]
  cases quarterMetrics (earlier ++ [(q, r)]) q with
  | none => simp
  | some m => simp [collapses_iff]

theorem quarterMetrics_isSome :
    (∃ m, quarterMetrics runs q = some m) ↔ ∃ run ∈ runs, Evaluates q run := by
  rw [← Option.isSome_iff_exists, quarterMetrics, Option.isSome_map, List.find?_isSome]
  simp only [decide_eq_true_eq]

theorem quarterMetrics_last (hq : q ∉ earlier.map Prod.fst) :
    quarterMetrics (earlier ++ [(q, r)]) q =
      if r.decision = .error then none else some r.metrics := by
  have hnone : (earlier.find? fun run => Evaluates q run) = none := by
    rw [List.find?_eq_none]
    intro run hrun heval
    exact hq (List.mem_map.mpr ⟨run, hrun, (of_decide_eq_true heval).1⟩)
  rw [quarterMetrics, List.find?_append, hnone, Option.none_or]
  split_ifs with herror
  · rw [List.find?_cons_of_neg (by simp [Evaluates, herror])]
    rfl
  · rw [List.find?_cons_of_pos (by simp [Evaluates, herror])]
    rfl

/-- The run of the last quarter has failed. -/
def failedLast : List (String × CandidateResult) :=
  [("2024-Q1", { candidateId := "c-2024-Q1", paramsSha := "", decision := .accepted }),
    ("2024-Q2", { candidateId := "c-2024-Q2", paramsSha := "", decision := .error })]

end Pyharmonics.Loop
