import Pyharmonics.LoopDriver

/-! The worker of the search loop: one candidate's run directory and its result. -/
namespace Pyharmonics.Loop

/-- What a worker makes of a tuning: `params_sha`, and the text of its `tuning.yaml`. -/
structure Workers (τ : Type) where
  paramsSha : τ → String
  tuningYaml : τ → String

/-- The file the harness leaves: its experimental aggregate and the fitness in its meta data. -/
structure Summary where
  experimental : Metrics ℚ
  fitness : Option ℚ

/-- What a worker process comes to. -/
inductive Work (τ : Type)
  /-- An exception, before `tuning.yaml` was written or after it. -/
  | raised (written : Option τ) (exc : String)
  /-- `LOOP_WORKER_DRY_RUN=1` -/
  | dryRun (tuning : τ)
  | timedOut (tuning : τ) (timeoutSeconds : ℕ) (exc : String)
  /-- The harness has exited, and left a summary or none. -/
  | exited (tuning : τ) (returncode : ℤ) (summary : Option Summary)

/-- A directory `runs/<id>`, by the one of its files that is read again. -/
structure RunDir where
  tuningYaml : Option String
  deriving DecidableEq

variable {τ : Type}

/-- The tuning whose file the worker has written. -/
def Work.written : Work τ → Option τ
  | .raised written _ => written
  | .dryRun tuning | .timedOut tuning _ _ | .exited tuning _ _ => some tuning

def Work.dir (W : Workers τ) (work : Work τ) : RunDir := ⟨work.written.map W.tuningYaml⟩

/-- `int(sha[-1], 16)` of a hexadecimal digit, else 8 -/
def lastNibble (sha : String) : ℕ :=
  match sha.toList.getLast? with
  | some c =>
    if '0' ≤ c ∧ c ≤ '9' then c.toNat - '0'.toNat
    else if 'a' ≤ c ∧ c ≤ 'f' then c.toNat - 'a'.toNat + 10
    else 8
  | none => 8

/-- The synthetic metrics of `_dry_run_result`. -/
def dryRunMetrics (nibble : ℕ) : Metrics ℚ :=
  let trades := 30 + nibble
  { keys := ["trades_count", "sharpe", "calmar", "profit_factor", "by_regime"]
    tradesCount := trades
    sharpe := some (some (1 / 5 + nibble * (1 / 20)))
    calmar := some (1 / 2 + nibble * (1 / 10))
    profitFactor := some (6 / 5 + nibble * (1 / 20))
    byRegime := ((Dict.single "bull" { n := trades / 2, sharpe := some (3 / 10) }).set "bear"
      { n := trades / 3, sharpe := some (1 / 10) }).set "range"
      { n := max 1 (trades / 6), sharpe := some 0 } }

/-- `run_candidate`, which writes the run directory `Work.dir`. -/
def runCandidate (W : Workers τ) (candidateId runDir : String) : Work τ → Except String CandidateResult
  | .raised _ exc => .error exc
  | .dryRun tuning =>
    let sha := W.paramsSha tuning
    let nibble := lastNibble sha
    .ok { candidateId, paramsSha := sha, decision := .accepted, metrics := dryRunMetrics nibble
          fitness := some (1 / 2 + nibble / 15 * (3 / 2)), runDir }
  | .timedOut tuning timeoutSeconds exc =>
    .ok { candidateId, paramsSha := W.paramsSha tuning, decision := .error, runDir
          error := some ("subprocess timed out after " ++ toString timeoutSeconds ++ "s: " ++ exc) }
  | .exited tuning returncode summary =>
    let failed : CandidateResult :=
      { candidateId, paramsSha := W.paramsSha tuning, decision := .error, runDir
        error := some ("subprocess exit=" ++ toString returncode ++ ", metrics.json exists=" ++
          if summary.isSome then "True" else "False") }
    match summary with
    | none => .ok failed
    | some s =>
      if returncode ≠ 0 then .ok failed
      else
        let trades := s.experimental.tradesCount
        if trades < 30 then
          .ok { candidateId, paramsSha := W.paramsSha tuning, decision := .rejected
                rejectionReason := some ("trades_count=" ++ toString trades ++ " < 30")
                metrics := s.experimental, fitness := s.fitness, runDir }
        else
          .ok { candidateId, paramsSha := W.paramsSha tuning, decision := .accepted
                metrics := s.experimental, fitness := s.fitness, runDir }

/-- What the driver takes a worker for: an exception is a result without a run directory. -/
def collected (candidateId : String) : Except String CandidateResult → CandidateResult
  | .ok r => r
  | .error exc =>
    { candidateId, paramsSha := "?", decision := .error, error := some ("worker raised: " ++ exc) }

variable {W : Workers τ} {candidateId runDir : String} {work : Work τ}

/-- A result is of the written tuning and its run directory, or of an exception. -/
theorem collected_cases (W : Workers τ) (candidateId runDir : String) (work : Work τ) :
    (∃ written exc, work = .raised written exc ∧
      collected candidateId (runCandidate W candidateId runDir work) =
        { candidateId, paramsSha := "?", decision := .error
          error := some ("worker raised: " ++ exc) }) ∨
    ∃ tuning r, work.written = some tuning ∧ runCandidate W candidateId runDir work = .ok r ∧
      r.candidateId = candidateId ∧ r.paramsSha = W.paramsSha tuning ∧ r.runDir = runDir ∧
      (r.decision = .accepted ∨ r.decision = .rejected ∨ r.decision = .error) := by
  cases work with
  | raised written exc => exact .inl ⟨written, exc, rfl, rfl⟩
  | dryRun tuning => exact .inr ⟨tuning, _, rfl, rfl, rfl, rfl, rfl, .inl rfl⟩
  | timedOut tuning seconds exc => exact .inr ⟨tuning, _, rfl, rfl, rfl, rfl, rfl, .inr (.inr rfl)⟩
  | exited tuning returncode summary =>
    right
    cases summary with
    | none => exact ⟨tuning, _, rfl, rfl, rfl, rfl, rfl, .inr (.inr rfl)⟩
    | some s =>
      by_cases hcode : returncode ≠ 0
      · exact ⟨tuning, _, rfl, if_pos hcode, rfl, rfl, rfl, .inr (.inr rfl)⟩
      · have hran : runCandidate W candidateId runDir (.exited tuning returncode (some s)) = _ :=
          if_neg hcode
        by_cases hfew : s.experimental.tradesCount < 30
        · exact ⟨tuning, _, rfl, hran.trans (if_pos hfew), rfl, rfl, rfl, .inr (.inl rfl)⟩
        · exact ⟨tuning, _, rfl, hran.trans (if_neg hfew), rfl, rfl, rfl, .inl rfl⟩

end Pyharmonics.Loop
