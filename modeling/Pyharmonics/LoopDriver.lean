import Pyharmonics.History
import Pyharmonics.MakerChecker

/-! The driver of the search loop: batches of results into the journal and onto the Pareto front. -/
namespace Pyharmonics.Loop

open Machines Sorting

/-- What `json.dumps(..., sort_keys=True)` keeps of the order of metrics and regimes. -/
def Metrics.dumped {ν : Type*} (m : Metrics ν) : Metrics ν :=
  { m with
    keys := sortBy id m.keys
    byRegime := ⟨sortBy Prod.fst m.byRegime.entries,
      ((sortBy_perm Prod.fst m.byRegime.entries).map Prod.fst).nodup_iff.mpr m.byRegime.nodup⟩ }

/-- A line of the journal. -/
structure HistoryRecord where
  ts : ℚ
  gen : ℤ
  cluster : String
  candidateId : String
  paramsSha : String
  decision : Decision
  rejectionReason : Option String
  fitness : Option ℚ
  metrics : Metrics ℚ
  runDir : String
  error : Option String
  checker : CheckerVerdict
  strategyVersion : String

/-- The record as it is read back. -/
def HistoryRecord.dumped (rec : HistoryRecord) : HistoryRecord :=
  { rec with metrics := rec.metrics.dumped }

/-- The front point of an accepted record. -/
def HistoryRecord.point (rec : HistoryRecord) : ParetoPoint ℚ :=
  fromMetrics rec.metrics rec.paramsSha rec.gen rec.cluster rec.runDir (rec.fitness.getD 0)

/-- A `suspicious_to_human` payload. -/
structure PendingIssue where
  candidateId : String
  paramsSha : String
  fitness : Option ℚ
  gen : ℤ
  cluster : String
  verdict : CheckerVerdict

/-- The state directory: the journal, `PARETO.json` and the pending issues. -/
structure Disk where
  journal : Journal HistoryRecord
  pareto : List (ParetoPoint ℚ)
  pendingIssues : List PendingIssue

def Disk.empty : Disk := ⟨.empty, [], []⟩

/-- A worker's result, and when the driver records it. -/
structure Finished where
  result : CandidateResult
  ts : ℚ

/-- A candidates file with the results in the order the workers completed them. -/
structure Batch where
  gen : ℤ
  cluster : String
  results : List Finished
  runner : Option Runner
  strategyVersion : String

/-- The driver inside the loop over the results: the files, the front in memory, and what has
ended the program. -/
structure BatchState where
  disk : Disk
  pareto : ParetoSet ℚ
  raised : Option PyError

/-- A point that has moved the front, as its candidate and the candidate's final verdict. -/
structure Admission where
  candidate : CandidateResult
  verdict : CheckerVerdict

structure BatchEnd where
  admitted : List Admission
  raised : Option PyError

/-- `rotate_bytes` -/
def rotateBytes : ℤ := 10 * 1024 * 1024

namespace Batch

def record (b : Batch) (f : Finished) (verdict : CheckerVerdict) : HistoryRecord where
  ts := f.ts
  gen := b.gen
  cluster := b.cluster
  candidateId := f.result.candidateId
  paramsSha := f.result.paramsSha
  decision := f.result.decision
  rejectionReason := f.result.rejectionReason
  fitness := f.result.fitness
  metrics := f.result.metrics
  runDir := f.result.runDir
  error := f.result.error
  checker := verdict
  strategyVersion := b.strategyVersion

def point (b : Batch) (r : CandidateResult) : ParetoPoint ℚ :=
  fromMetrics r.metrics r.paramsSha b.gen b.cluster r.runDir (r.fitness.getD 0)

def issue (b : Batch) (r : CandidateResult) (verdict : CheckerVerdict) : PendingIssue where
  candidateId := r.candidateId
  paramsSha := r.paramsSha
  fitness := r.fitness
  gen := b.gen
  cluster := b.cluster
  verdict := verdict

/-- The files after one judged result: its record, and the issue of one for a human. -/
def written (bytes : HistoryRecord → ℕ) (b : Batch) (disk : Disk) (f : Finished)
    (verdict : CheckerVerdict) : Disk :=
  { disk with
    journal := (disk.journal.appendHistory bytes rotateBytes ⟨(b.record f verdict).dumped, f.ts⟩).1
    pendingIssues :=
      if verdict.decision = .suspiciousToHuman then
        disk.pendingIssues ++ [b.issue f.result verdict]
      else disk.pendingIssues }

/-- One result of the batch. A verdict that raises ends the program. -/
def processResult (bytes : HistoryRecord → ℕ) (b : Batch) (st : BatchState) (f : Finished) :
    BatchState × Option Admission :=
  match st.raised with
  | some _ => (st, none)
  | none =>
    match evaluateCandidate f.result b.runner none with
    | .error e => ({ st with raised := some e }, none)
    | .ok verdict =>
      let disk := b.written bytes st.disk f verdict
      -- the worker's decision admits, not the verdict
      if f.result.decision = .accepted then
        let (pareto, moved) := st.pareto.add (b.point f.result)
        (⟨disk, pareto, none⟩, if moved then some ⟨f.result, verdict⟩ else none)
      else ({ st with disk := disk }, none)

end Batch

/-- `pareto_load` before the loop. -/
def BatchState.start (disk : Disk) : BatchState := ⟨disk, ⟨disk.pareto⟩, none⟩

/-- One run of the driver; `pareto_save` comes after the loop. -/
def Disk.runBatch (bytes : HistoryRecord → ℕ) (disk : Disk) (b : Batch) : Disk × BatchEnd :=
  let st := final (b.processResult bytes) (.start disk) b.results
  let admitted := (outputs (b.processResult bytes) (.start disk) b.results).filterMap id
  match st.raised with
  | some e => (st.disk, ⟨admitted, some e⟩)
  | none => ({ st.disk with pareto := st.pareto.points }, ⟨admitted, none⟩)

/-- The front that `from_metrics` and `ParetoSet.add` make of the accepted records of a history. -/
def rebuilt (history : List HistoryRecord) : ParetoSet ℚ :=
  final ParetoSet.add .empty
    ((history.filter fun rec => rec.decision = .accepted).map HistoryRecord.point)

variable {bytes : HistoryRecord → ℕ} {b : Batch} {st : BatchState} {f : Finished}
  {fs : List Finished} {disk : Disk} {batches : List Batch} {v : CheckerVerdict}
  {history : List HistoryRecord} {rec : HistoryRecord}

theorem worstRegimeSharpe_dumped {ν : Type*} [LinearOrder ν] (m : Metrics ν) :
    worstRegimeSharpe m.dumped = worstRegimeSharpe m :=
  min?_perm ((((sortBy_perm Prod.fst m.byRegime.entries).map Prod.snd).filter _).filterMap _)

/-- Sorting the keys of a record leaves its point. -/
theorem point_dumped (b : Batch) (f : Finished) (v : CheckerVerdict) :
    (b.record f v).dumped.point = b.point f.result := by
  simp only [HistoryRecord.point, HistoryRecord.dumped, Batch.record, Batch.point, fromMetrics,
    worstRegimeSharpe_dumped]
  rfl

/-- One more record is one more point if the worker accepted it. -/
theorem rebuilt_append : rebuilt (history ++ [(b.record f v).dumped]) =
    if f.result.decision = .accepted then ((rebuilt history).add (b.point f.result)).1
    else rebuilt history := by
  have hdecision : (b.record f v).dumped.decision = f.result.decision := rfl
  rw [rebuilt, List.filter_append, List.map_append, final_append]
  split
  · next h => simp [h, hdecision, rebuilt, point_dumped]
  · next h => simp [h, hdecision, rebuilt]

/-- What processing one result can do. -/
theorem processResult_cases (bytes : HistoryRecord → ℕ) (b : Batch) (st : BatchState)
    (f : Finished) :
    (st.raised ≠ none ∧ b.processResult bytes st f = (st, none)) ∨
    (st.raised = none ∧ ¬ Judgeable b.runner f.result ∧
      ∃ e, b.processResult bytes st f = ({ st with raised := some e }, none)) ∨
    (st.raised = none ∧ ∃ v, evaluateCandidate f.result b.runner none = .ok v ∧
      (f.result.decision ≠ .accepted ∧
        b.processResult bytes st f = ({ st with disk := b.written bytes st.disk f v }, none) ∨
      f.result.decision = .accepted ∧
        b.processResult bytes st f =
          (⟨b.written bytes st.disk f v, (st.pareto.add (b.point f.result)).1, none⟩,
            if (st.pareto.add (b.point f.result)).2 then some ⟨f.result, v⟩ else none))) := by
  cases hraised : st.raised with
  | some e => exact .inl ⟨by simp, by simp [Batch.processResult, hraised]⟩
  | none =>
    cases hv : evaluateCandidate f.result b.runner none with
    | error e =>
      refine .inr (.inl ⟨rfl, ?_, e, by simp [Batch.processResult, hraised, hv]⟩)
      have hjudge : (∃ v, evaluateCandidate f.result b.runner none = .ok v) ↔ Judgeable b.runner f.result :=
        evaluateCandidate_ok_iff
      rw [← hjudge, hv]
      simp
    | ok v =>
      refine .inr (.inr ⟨rfl, v, rfl, ?_⟩)
      by_cases hd : f.result.decision = .accepted
      · exact .inr ⟨hd, by simp [Batch.processResult, hraised, hv, hd]⟩
      · exact .inl ⟨hd, by simp [Batch.processResult, hraised, hv, hd]⟩

/-- No append has rotated. -/
def Unrotated (disk : Disk) : Prop := disk.journal.archives.entries = []

instance decidableUnrotated {disk : Disk} : Decidable (Unrotated disk) :=
  inferInstanceAs (Decidable (_ = []))

/-- Without a rotation the record is the last of the replay. -/
theorem written_unrotated (h : Unrotated (b.written bytes disk f v)) :
    Unrotated disk ∧ (b.written bytes disk f v).journal.replayFromHistory =
      disk.journal.replayFromHistory ++ [(b.record f v).dumped] := by
  rcases Journal.append_cases bytes rotateBytes disk.journal
    ⟨(b.record f v).dumped, f.ts⟩ with ⟨-, heq⟩ | ⟨hno, heq⟩
  · rw [Unrotated, Batch.written, heq] at h
    have hmem : (archiveName (trunc f.ts), disk.journal.written (b.record f v).dumped) ∈
        (disk.journal.archives.set (archiveName (trunc f.ts))
          (disk.journal.written (b.record f v).dumped)).entries :=
      Dict.mem_entries_set.mpr (.inl ⟨rfl, rfl⟩)
    simp only [Journal.rotate] at h
    simp [h] at hmem
  · constructor
    · rw [Unrotated, Batch.written, heq] at h
      exact h
    · exact Journal.replay_orderly (fun hrot => absurd hrot hno)

/-- Inside the loop: the front in memory is what the history so far makes, and nothing has raised. -/
def InStep (st : BatchState) : Prop :=
  st.raised = none ∧ rebuilt st.disk.journal.replayFromHistory = st.pareto

/-- A judged result goes into the journal and onto the front, or into the journal only. -/
theorem InStep.step (h : InStep st) (hj : Judgeable b.runner f.result)
    (hrot : Unrotated (b.processResult bytes st f).1.disk) :
    InStep (b.processResult bytes st f).1 := by
  rcases processResult_cases bytes b st f with ⟨hraised, -⟩ | ⟨-, hno, -⟩ | ⟨-, v, -, hcases⟩
  · exact absurd h.1 hraised
  · exact absurd hj hno
  · rcases hcases with ⟨hd, heq⟩ | ⟨hd, heq⟩
    · rw [heq] at hrot ⊢
      refine ⟨h.1, ?_⟩
      rw [(written_unrotated hrot).2, rebuilt_append, if_neg hd]
      exact h.2
    · rw [heq] at hrot ⊢
      refine ⟨rfl, ?_⟩
      rw [(written_unrotated hrot).2, rebuilt_append, if_pos hd, h.2]

/-- No result undoes a rotation. -/
theorem processResult_unrotated (hrot : Unrotated (b.processResult bytes st f).1.disk) :
    Unrotated st.disk := by
  rcases processResult_cases bytes b st f with ⟨-, heq⟩ | ⟨-, -, e, heq⟩ | ⟨-, v, -, hcases⟩
  · rw [heq] at hrot
    exact hrot
  · rw [heq] at hrot
    exact hrot
  · rcases hcases with ⟨-, heq⟩ | ⟨-, heq⟩
    all_goals
      rw [heq] at hrot
      exact (written_unrotated hrot).1

theorem processResults_unrotated (hrot : Unrotated (final (b.processResult bytes) st fs).disk) :
    Unrotated st.disk :=
  of_final (I := fun st : BatchState => Unrotated st.disk) (fun _ _ => processResult_unrotated) hrot

theorem InStep.final (h : InStep st) (hj : ∀ f ∈ fs, Judgeable b.runner f.result)
    (hrot : Unrotated (final (b.processResult bytes) st fs).disk) :
    InStep (final (b.processResult bytes) st fs) := by
  induction fs generalizing st with
  | nil => exact h
  | cons f fs ih =>
    have hfirst := h.step (hj f (by simp)) (processResults_unrotated hrot)
    exact ih hfirst (fun f hf => hj f (by simp [hf])) hrot

/-- The stored front is the one the history makes. -/
def Rebuildable (disk : Disk) : Prop :=
  (rebuilt disk.journal.replayFromHistory).points = disk.pareto

theorem runBatch_journal : (disk.runBatch bytes b).1.journal =
    (final (b.processResult bytes) (.start disk) b.results).disk.journal := by
  rw [Disk.runBatch]
  dsimp only
  split <;> rfl

theorem Rebuildable.runBatch (h : Rebuildable disk)
    (hj : ∀ f ∈ b.results, Judgeable b.runner f.result)
    (hrot : Unrotated (disk.runBatch bytes b).1) : Rebuildable (disk.runBatch bytes b).1 := by
  have hstart : InStep (.start disk) := ⟨rfl, by rw [BatchState.start, ← h]⟩
  rw [Unrotated, runBatch_journal] at hrot
  obtain ⟨hraised, hagree⟩ := hstart.final hj hrot
  rw [Rebuildable, runBatch_journal, hagree, Disk.runBatch]
  simp only [hraised]

theorem runBatch_unrotated (hrot : Unrotated (disk.runBatch bytes b).1) : Unrotated disk := by
  rw [Unrotated, runBatch_journal] at hrot
  exact processResults_unrotated hrot

/-- After any batches whose candidates the runner can judge, and no rotation, the accepted records
of the history make the very points of `PARETO.json`. -/
theorem pareto_rebuilt (hj : ∀ b ∈ batches, ∀ f ∈ b.results, Judgeable b.runner f.result)
    (hrot : Unrotated (final (Disk.runBatch bytes) .empty batches)) :
    (rebuilt (final (Disk.runBatch bytes) .empty batches).journal.replayFromHistory).points =
      (final (Disk.runBatch bytes) .empty batches).pareto := by
  have hrun : ∀ disk, Rebuildable disk → Unrotated (final (Disk.runBatch bytes) disk batches) →
      Rebuildable (final (Disk.runBatch bytes) disk batches) := by
    clear hrot
    induction batches with
    | nil => exact fun disk h _ => h
    | cons b batches ih =>
      intro disk h hrot
      have hfirst : Unrotated (disk.runBatch bytes b).1 :=
        of_final (I := Unrotated) (fun _ _ => runBatch_unrotated) hrot
      exact ih (fun b hb => hj b (by simp [hb])) _ (h.runBatch (hj b (by simp)) hfirst) hrot
  exact hrun .empty rfl hrot

/-- A result that moves the front is of a clean candidate. -/
def AdmitsClean (b : Batch) (st : BatchState) (f : Finished) : Prop :=
  st.raised = none → Judgeable b.runner f.result → f.result.decision = .accepted →
    (st.pareto.add (b.point f.result)).2 → Clean b.runner f.result none

theorem admission_passed_iff :
    (∀ a, (b.processResult bytes st f).2 = some a → a.verdict.decision.Passed) ↔
      AdmitsClean b st f := by
  rcases processResult_cases bytes b st f with
    ⟨hraised, heq⟩ | ⟨-, hno, e, heq⟩ | ⟨hraised, v, hv, hcases⟩
  · simp [heq, AdmitsClean, hraised]
  · simp [heq, AdmitsClean, hno]
  · have hj : Judgeable b.runner f.result := evaluateCandidate_ok_iff.mp ⟨v, hv⟩
    rcases hcases with ⟨hd, heq⟩ | ⟨hd, heq⟩
    · simp [heq, AdmitsClean, hd]
    · cases hmoved : (st.pareto.add (b.point f.result)).2 with
      | false => simp [heq, AdmitsClean, hmoved]
      | true => simp [heq, AdmitsClean, hmoved, hraised, hj, hd, passed_iff_clean hd hv]

theorem runBatch_admitted : (disk.runBatch bytes b).2.admitted =
    (outputs (b.processResult bytes) (.start disk) b.results).filterMap id := by
  rw [Disk.runBatch]
  dsimp only
  split <;> rfl

/-- In every run, the final verdicts of all points that moved the front pass exactly when every
candidate the worker accepted, as its point moved the front, was clean. -/
theorem admitted_passed_iff :
    (∀ e ∈ outputs (Disk.runBatch bytes) disk batches, ∀ a ∈ e.admitted,
      a.verdict.decision.Passed) ↔
    Along (Disk.runBatch bytes)
      (fun disk b => Along (b.processResult bytes) (AdmitsClean b) (.start disk) b.results)
      disk batches := by
  rw [forall_outputs_iff]
  refine along_congr (I := fun _ => True) ?_ trivial
  intro disk b _
  refine ⟨?_, trivial⟩
  have hadmitted : (∀ a ∈ (disk.runBatch bytes b).2.admitted, a.verdict.decision.Passed) ↔
      ∀ o ∈ outputs (b.processResult bytes) (.start disk) b.results, ∀ a, o = some a →
        a.verdict.decision.Passed := by
    rw [runBatch_admitted]
    constructor
    · rintro h o ho a rfl
      exact h a (List.mem_filterMap.mpr ⟨some a, ho, rfl⟩)
    · intro h a ha
      obtain ⟨o, ho, hoa⟩ := List.mem_filterMap.mp ha
      exact h o ho a hoa
  rw [hadmitted, forall_outputs_iff]
  exact along_congr (I := fun _ => True) (fun _ _ _ => ⟨admission_passed_iff, trivial⟩) trivial

section

/-! Two candidates and an LLM that accepts or rejects everything. -/

def backendAnswer (accept : Bool) : RawVerdict :=
  ⟨some (6 / 10), some (9 / 10), none, some .empty, some [], some accept, some "ok"⟩

/-- A runner whose LLM gives every candidate the same answer. -/
def constantRunner (accept : Bool) : Runner :=
  { backend := fun _ _ => .ok (some (backendAnswer accept)) }

def goodResult : Finished :=
  ⟨{ candidateId := "gen1-001", paramsSha := "a1", decision := .accepted, fitness := some 1,
      metrics := { sharpe := some (some 1), tradesCount := 40 } }, 5⟩

/-- The metrics of an empty backtest have a null sharpe. -/
def emptyResult : Finished :=
  ⟨{ candidateId := "gen1-002", paramsSha := "b2", decision := .rejected,
      metrics := { sharpe := some none } }, 6⟩

def exampleBatch (runner : Option Runner) (results : List Finished) : Batch :=
  ⟨1, "C3", results, runner, "v1"⟩

theorem pareto_rebuilt_one :
    (rebuilt (final (Disk.runBatch fun _ => 40) .empty
      [exampleBatch (some (constantRunner true)) [goodResult]]).journal.replayFromHistory).points =
    (final (Disk.runBatch fun _ => 40) .empty
      [exampleBatch (some (constantRunner true)) [goodResult]]).pareto :=
  pareto_rebuilt (by simp [exampleBatch, goodResult, Judgeable]) (by decide +kernel)

/-- The second candidate ends the program after the first is in the history and before the front
is saved. -/
theorem null_sharpe_leaves_front_behind :
    Unrotated (final (Disk.runBatch fun _ => 40) .empty
      [exampleBatch (some (constantRunner true)) [goodResult, emptyResult]]) ∧
    (rebuilt (final (Disk.runBatch fun _ => 40) .empty
      [exampleBatch (some (constantRunner true))
        [goodResult, emptyResult]]).journal.replayFromHistory).points.length = 1 ∧
    (final (Disk.runBatch fun _ => 40) .empty
      [exampleBatch (some (constantRunner true)) [goodResult, emptyResult]]).pareto = [] := by
  decide +kernel

/-- The LLM rejects the candidate, and its point is admitted. -/
theorem rejected_is_admitted :
    ¬ ∀ e ∈ outputs (Disk.runBatch fun _ => 40) .empty
        [exampleBatch (some (constantRunner false)) [goodResult]],
      ∀ a ∈ e.admitted, a.verdict.decision.Passed := by
  decide +kernel

end

end Pyharmonics.Loop
