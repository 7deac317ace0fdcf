import Pyharmonics.LoopWorker

/-! The driver with its directories: run directories, rejected ones, snapshots and `STATE.md`. -/
namespace Pyharmonics.Loop

open Machines

/-- The name of a run directory. -/
abbrev RunId := {s : String // '/' ∉ s.toList}

/-- `Path(path).name` -/
def pathName (path : String) : String :=
  String.ofList (path.toList.reverse.takeWhile (· ≠ '/')).reverse

def runPath (root : String) (run : RunId) : String := root ++ "/runs/" ++ run.val

def rejectedPath (root reason name : String) : String :=
  root ++ "/REJECTED/" ++ reason ++ "/" ++ name

def snapshotName (sha : String) : String := "pareto-" ++ sha ++ ".yaml"

/-- The run directories by their paths, wherever they are, and the files of `tuning_snapshots`. -/
structure Files where
  dirs : Dict String RunDir
  snapshots : Dict String String

namespace Files

/-- `os.rename` of a directory, whose failures are passed over: there is no such directory, or
there is one that is not empty in its place. -/
def rename (files : Files) (src dest : String) : Files :=
  match files.dirs.get? src with
  | none => files
  | some dir =>
    match files.dirs.get? dest with
    | some ⟨some _⟩ => files
    | _ => { files with dirs := (files.dirs.erase src).set dest dir }

def snapshot (files : Files) (sha payload : String) : Files :=
  { files with snapshots := files.snapshots.set (snapshotName sha) payload }

/-- The text of `tuning.yaml` in a run directory. -/
def readTuning (files : Files) (runDir : String) : Option String :=
  (files.dirs.get? runDir).bind RunDir.tuningYaml

end Files

/-- `(r.rejection_reason or "unknown").replace(" ", "_")` -/
def CandidateResult.reasonDir (r : CandidateResult) : String :=
  let reason := r.rejectionReason.getD ""
  (if reason = "" then "unknown" else reason).map fun c => if c = ' ' then '_' else c

/-- `r.fitness or 0` -/
def CandidateResult.fitnessOrZero (r : CandidateResult) : ℚ := r.fitness.getD 0

/-- The counts of the decisions and `best_so_far`. -/
structure Tally where
  accepted : ℕ := 0
  rejected : ℕ := 0
  errors : ℕ := 0
  best : Option CandidateResult := none

def Tally.offer (best : Option CandidateResult) (r : CandidateResult) : Option CandidateResult :=
  match best with
  | none => some r
  | some b => if b.fitnessOrZero < r.fitnessOrZero then some r else some b

/-- The driver inside the loop over the results, with its directories and counts. -/
structure LoopState where
  inner : BatchState
  files : Files
  tally : Tally

/-- One result of the batch: the record, the front, the snapshot of a point that moves it, and the
directory of a rejected or failed run. -/
def Batch.processFile (bytes : HistoryRecord → ℕ) (root : String) (b : Batch) (st : LoopState)
    (f : Finished) : LoopState × Option Admission :=
  match st.inner.raised with
  | some _ => (st, none)
  | none =>
    match evaluateCandidate f.result b.runner none with
    | .error e => ({ st with inner := { st.inner with raised := some e } }, none)
    | .ok verdict =>
      let r := f.result
      let disk := b.written bytes st.inner.disk f verdict
      let tally := st.tally
      match r.decision with
      | .accepted =>
        let (pareto, moved) := st.inner.pareto.add (b.point r)
        let tally := { tally with accepted := tally.accepted + 1 }
        let best := Tally.offer tally.best r
        if moved then
          match st.files.readTuning r.runDir with
          | none =>
            (⟨⟨disk, pareto, some (.other "FileNotFoundError: tuning.yaml")⟩, st.files, tally⟩, none)
          | some payload =>
            (⟨⟨disk, pareto, none⟩, st.files.snapshot r.paramsSha payload, { tally with best }⟩,
              some ⟨r, verdict⟩)
        else (⟨⟨disk, pareto, none⟩, st.files, { tally with best }⟩, none)
      | .rejected =>
        let dest := rejectedPath root r.reasonDir (pathName r.runDir)
        (⟨{ st.inner with disk }, st.files.rename r.runDir dest,
          { tally with rejected := tally.rejected + 1 }⟩, none)
      | .error =>
        let dest := rejectedPath root "errors" (pathName r.runDir)
        (⟨{ st.inner with disk }, st.files.rename r.runDir dest,
          { tally with errors := tally.errors + 1 }⟩, none)
      | .duplicate => ({ st with inner := { st.inner with disk } }, none)

/-- A candidate of the batch: the directory made for it, and what its worker comes to. -/
structure Job (τ : Type) where
  candidateId : String
  run : RunId
  work : Work τ
  ts : ℚ

/-- One run of the driver, its jobs in the order in which their workers complete. -/
structure DriverRun (τ : Type) where
  gen : ℤ
  cluster : String
  symbolSet : String
  quarter : Option String
  runner : Option Runner
  strategyVersion : String
  jobs : List (Job τ)

variable {τ : Type}

def Job.finished (W : Workers τ) (root : String) (j : Job τ) : Finished :=
  ⟨collected j.candidateId (runCandidate W j.candidateId (runPath root j.run) j.work), j.ts⟩

/-- `make_run_dir`, and what the worker writes into the directory. -/
def Files.make (W : Workers τ) (root : String) (files : Files) (j : Job τ) : Files :=
  let made := files.dirs.getD (runPath root j.run) ⟨none⟩
  let dir := if j.work.written.isSome then j.work.dir W else made
  { files with dirs := files.dirs.set (runPath root j.run) dir }

def DriverRun.batch (W : Workers τ) (root : String) (run : DriverRun τ) : Batch :=
  ⟨run.gen, run.cluster, run.jobs.map (Job.finished W root), run.runner, run.strategyVersion⟩

/-- The best candidate as `STATE.md` shows it. -/
structure Best where
  paramsSha : String
  gen : ℤ
  fitness : ℚ
  sharpe : ℚ
  calmar : ℚ
  profitFactor : ℚ
  tradeCount : ℤ
  deriving DecidableEq

def CandidateResult.toBest (gen : ℤ) (r : CandidateResult) : Best where
  paramsSha := r.paramsSha
  gen := gen
  fitness := r.fitnessOrZero
  sharpe := r.metrics.sharpe.join.getD 0
  calmar := r.metrics.calmar.getD 0
  profitFactor := r.metrics.profitFactor.getD 0
  tradeCount := r.metrics.tradesCount

/-- What `render_state_md` is given. -/
structure StateMd where
  best : Option Best
  paretoSize : ℕ
  accepted : ℕ
  rejected : ℕ
  errors : ℕ
  notes : List String
  deriving DecidableEq

def DriverRun.stateMd (run : DriverRun τ) (st : LoopState) : StateMd where
  best := st.tally.best.map (CandidateResult.toBest run.gen)
  paretoSize := st.inner.pareto.points.length
  accepted := st.tally.accepted
  rejected := st.tally.rejected
  errors := st.tally.errors
  notes := ["cluster: " ++ run.cluster, "symbol_set: " ++ run.symbolSet,
    "quarter: " ++ (if run.quarter.getD "" = "" then "full" else run.quarter.getD ""),
    "strategy_version: " ++ run.strategyVersion]

/-- The state root. -/
structure Tree where
  disk : Disk
  files : Files
  stateMd : Option StateMd

def Tree.empty : Tree := ⟨.empty, ⟨.empty, .empty⟩, none⟩

/-- One run of the driver; the front and `STATE.md` are saved after the loop. -/
def Tree.drive (W : Workers τ) (bytes : HistoryRecord → ℕ) (root : String) (tree : Tree)
    (run : DriverRun τ) : Tree × BatchEnd :=
  let b := run.batch W root
  let start : LoopState :=
    ⟨.start tree.disk, run.jobs.foldl (Files.make W root) tree.files, {}⟩
  let st := final (b.processFile bytes root) start b.results
  let admitted := (outputs (b.processFile bytes root) start b.results).filterMap id
  match st.inner.raised with
  | some e => ({ tree with disk := st.inner.disk, files := st.files }, ⟨admitted, some e⟩)
  | none =>
    (⟨{ st.inner.disk with pareto := st.inner.pareto.points }, st.files, some (run.stateMd st)⟩,
      ⟨admitted, none⟩)

end Pyharmonics.Loop
