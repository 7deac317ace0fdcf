import Mathlib.Data.String.Basic
import Pyharmonics.Checker
import Pyharmonics.Library.Sorting

/-! The maker-checker runner: the LLM's verdict, the arbiter's decision tree, and their adapter. -/
namespace Pyharmonics.Loop

/-- Checked fields of a `Verdict`. -/
structure VerdictFields where
  candidateId : String
  checkerScore : ℚ
  confidence : ℚ
  rawScore : ℚ
  components : Dict String ℚ
  flags : List Finding
  accept : Bool
  feedback : String

/-- `if not 0.0 <= v <= 1.0: raise ValueError` -/
def outsideUnit (name : String) (v : ℚ) : Option PyError :=
  if 0 ≤ v ∧ v ≤ 1 then none else some (.valueError (name ++ " must be in [0, 1]; got") [v])

def severities : List String := ["high", "medium", "low"]

/-- The first complaint of `Verdict.__post_init__`. -/
def VerdictFields.problem (v : VerdictFields) : Option PyError :=
  (((((outsideUnit "checker_score" v.checkerScore).or
    (outsideUnit "confidence" v.confidence)).or
    (outsideUnit "raw_score" v.rawScore)).or
    (v.components.entries.findSome? fun e => outsideUnit ("components['" ++ e.1 ++ "']") e.2)).or
    (v.flags.findSome? fun f => if f.severity ∈ severities then none
      else some (.valueError ("flag severity must be high|medium|low; got '" ++ f.severity ++ "'") []))).or
    (if v.feedback.length ≤ 200 then none
      else some (.valueError ("feedback too long (" ++ toString v.feedback.length ++ " > 200)") []))

/-- The LLM checker's opinion on one candidate, its fields checked. -/
structure Verdict extends VerdictFields where
  valid : toVerdictFields.problem = none

def makeVerdict (v : VerdictFields) : Except PyError Verdict :=
  match h : v.problem with
  | some e => .error e
  | none => .ok ⟨v, h⟩

theorem outsideUnit_none {name : String} {v : ℚ} : outsideUnit name v = none ↔ 0 ≤ v ∧ v ≤ 1 := by
  rw [outsideUnit]
  split <;> simp_all

theorem makeVerdict_ok {v : VerdictFields} (h : v.problem = none) : makeVerdict v = .ok ⟨v, h⟩ := by
  unfold makeVerdict
  split
  · next e he => simp [h] at he
  · rfl

namespace Verdict

variable (v : Verdict)

theorem unit : (0 ≤ v.checkerScore ∧ v.checkerScore ≤ 1) ∧ (0 ≤ v.confidence ∧ v.confidence ≤ 1) ∧
    0 ≤ v.rawScore ∧ v.rawScore ≤ 1 := by
  have h := v.valid
  simp only [VerdictFields.problem, Option.or_eq_none_iff, outsideUnit_none] at h
  exact ⟨h.1.1.1.1.1, h.1.1.1.1.2, h.1.1.1.2⟩

/-- The raw score of a valid verdict can stand for its score. -/
theorem problem_calibrated (accept : Bool) :
    ({ v.toVerdictFields with checkerScore := v.rawScore, accept := accept } :
      VerdictFields).problem = none := by
  have h := v.valid
  simp only [VerdictFields.problem, Option.or_eq_none_iff, outsideUnit_none] at h ⊢
  exact ⟨⟨⟨⟨⟨h.1.1.1.2, h.1.1.1.1.2⟩, h.1.1.1.2⟩, h.1.1.2⟩, h.1.2⟩, h.2⟩

end Verdict

/-- What the backend's answer holds; `none` for a field that is missing or of another type. -/
structure RawVerdict where
  checkerScore : Option ℚ
  confidence : Option ℚ
  rawScore : Option ℚ
  components : Option (Dict String ℚ)
  flags : Option (List Finding)
  accept : Option Bool
  feedback : Option String

/-- `_parse_verdict`: a verdict, or nothing. -/
def parseVerdict (candidateId : String) (raw : RawVerdict) : Option Verdict := do
  let score ← raw.checkerScore
  let confidence ← raw.confidence
  let components ← raw.components
  let flags ← raw.flags
  let accept ← raw.accept
  let feedback ← raw.feedback
  (makeVerdict
    { candidateId := candidateId
      checkerScore := score
      confidence := confidence
      rawScore := raw.rawScore.getD score
      components := components
      flags := flags.filter fun f => f.severity ∈ severities
      accept := accept
      feedback := (feedback.take 200).toString }).toOption

/-- A canonical "backend failed" verdict. -/
def lowConfidenceReject (candidateId : String) : Verdict where
  candidateId := candidateId
  checkerScore := 0
  confidence := 0
  rawScore := 0
  components := .empty
  flags := [⟨"high", "checker_backend_failure"⟩]
  accept := false
  feedback := "checker backend failure — defaulted to reject"
  valid := by
    simp only [VerdictFields.problem, Option.or_eq_none_iff, outsideUnit_none]
    decide

/-- `{sharpe:.3f}` of `metrics.get("sharpe", 0.0)`, which a null value cannot be formatted by. -/
def sharpeText (metrics : Metrics ℚ) : Except PyError String :=
  match metrics.sharpe.getD (some 0) with
  | some s => .ok (Rounding.fixedText 3 s)
  | none => .error (.typeError "unsupported format string passed to NoneType.__format__")

/-- `_build_prompt` -/
def buildPrompt (metrics : Metrics ℚ) : Except PyError String := do
  let sharpe ← sharpeText metrics
  pure ("checker|metrics_keys=" ++ ",".intercalate (Sorting.sortBy id metrics.keys) ++
    "|sharpe=" ++ sharpe ++ "|trades=" ++ toString metrics.tradesCount ++
    "|top_keys=candidate_id,decision,elapsed_seconds,fitness,metrics")

/-- Weights and thresholds, in the ranges `__post_init__` checks. -/
structure ArbiterConfig where
  makerWeight : ℚ := 4 / 10
  checkerWeight : ℚ := 6 / 10
  gapThreshold : ℚ := 4 / 10
  maker_unit : 0 ≤ makerWeight ∧ makerWeight ≤ 1 := by norm_num
  checker_unit : 0 ≤ checkerWeight ∧ checkerWeight ≤ 1 := by norm_num
  sum : |makerWeight + checkerWeight - 1| ≤ 1 / 100 := by norm_num
  gap_unit : 0 ≤ gapThreshold ∧ gapThreshold ≤ 1 := by norm_num

/-- The decisions of a `MergeResult`. -/
inductive FinalDecision
  | accepted | rejected | suspiciousToHuman
  deriving DecidableEq

def FinalDecision.toVerdict : FinalDecision → VerdictDecision
  | accepted => .accepted
  | rejected => .rejected
  | suspiciousToHuman => .suspiciousToHuman

/-- The arbiter's final decision on one candidate. -/
structure MergeResult where
  finalDecision : FinalDecision
  finalScore : ℚ
  m4Verdict : VerdictDecision
  triggerReasons : List String
  checkerConfidence : Option ℚ
  checkerFlags : List Finding
  agreement : Option Bool

/-- `MergeResult.__post_init__` -/
def makeMergeResult (m : MergeResult) : Except PyError MergeResult :=
  if ¬ (-10 ≤ m.finalScore ∧ m.finalScore ≤ 10) then
    .error (.valueError "final_score out of plausible range:" [m.finalScore])
  else if ∃ c ∈ m.checkerConfidence, ¬ (0 ≤ c ∧ c ≤ 1) then
    .error (.valueError "checker_confidence must be None or in [0, 1]; got" m.checkerConfidence.toList)
  else .ok m

/-- `Arbiter.resolve`; the maker gives a score of its own, or nothing. -/
def resolve (config : ArbiterConfig) (m4 : CheckerVerdict) (llm : Verdict) (maker : Option ℚ) :
    Except PyError MergeResult :=
  let gap := |maker.getD (1 / 2) - llm.checkerScore|
  let trigger := "m4_" ++ m4.decision.text
  let merge := fun (decision : FinalDecision) (triggers : List String) (agreement : Bool) =>
    makeMergeResult
      { finalDecision := decision
        finalScore := config.makerWeight * maker.getD (1 / 2) +
          config.checkerWeight * llm.checkerScore
        m4Verdict := m4.decision
        triggerReasons := trigger :: triggers
        checkerConfidence := some llm.confidence
        checkerFlags := llm.flags
        agreement := some agreement }
  let close := decide (gap ≤ config.gapThreshold)
  match m4.decision with
  | .rejected => merge .rejected ["m4_rejected_hard_constraint"] close
  | .promising =>
    if llm.accept then
      if config.gapThreshold < gap then
        merge .suspiciousToHuman ["llm_accept", "maker_checker_gap"] false
      else merge .accepted ["llm_accept"] true
    else merge .rejected ["llm_reject_overrides"] close
  | .suspicious =>
    if llm.accept then merge .suspiciousToHuman ["m4_suspicious", "llm_accept"] false
    else merge .rejected ["m4_suspicious", "llm_reject"] close
  | .accepted | .suspiciousToHuman =>
    .error (.valueError ("unknown m4 decision '" ++ m4.decision.text ++
      "'; expected one of ('promising', 'suspicious', 'rejected')") [])

/-- A runner as `make_runner` makes it: strict isolation and no calibration. The backend answers
the candidate's seed and the prompt with a verdict, with something else (`none`), or raises. -/
structure Runner where
  backend : String → String → Except PyError (Option RawVerdict)
  rejectionThreshold : ℚ := 3 / 10
  minConfidence : ℚ := 0
  arbiter : ArbiterConfig := {}
  enabled : Bool := true

/-- `CheckerAgent.verify` -/
def Runner.verify (runner : Runner) (candidateId : String) (metrics : Metrics ℚ) :
    Except PyError Verdict :=
  if candidateId = "" then
    .error (.valueError "strict isolation requires payload['candidate_id']" [])
  else do
    let prompt ← buildPrompt metrics
    match runner.backend candidateId prompt with
    | .error _ => .ok (lowConfidenceReject candidateId)
    | .ok raw =>
      match raw.bind (parseVerdict candidateId) with
      | none => .ok (lowConfidenceReject candidateId)
      | some v =>
        let accept := v.accept && decide (runner.rejectionThreshold ≤ v.rawScore) &&
          decide (runner.minConfidence ≤ v.confidence)
        makeVerdict { v.toVerdictFields with checkerScore := v.rawScore, accept := accept }

/-- `MakerCheckerRunner.evaluate` -/
def Runner.evaluate (runner : Runner) (candidate : CandidateResult)
    (parentMetrics : Option (Metrics ℚ)) : Except PyError MergeResult := do
  let m4 := checkCandidate candidate parentMetrics
  let llm ← runner.verify candidate.candidateId candidate.metrics
  resolve runner.arbiter m4 llm none

/-- The merged M4 and LLM result, or M4 only when there is no runner or it is disabled. -/
def evaluateCandidate (candidate : CandidateResult) (runner : Option Runner)
    (parentMetrics : Option (Metrics ℚ)) : Except PyError CheckerVerdict :=
  let m4 := checkCandidate candidate parentMetrics
  match runner with
  | none => .ok m4
  | some runner =>
    if runner.enabled then do
      let merged ← runner.evaluate candidate parentMetrics
      pure
        { candidateId := candidate.candidateId
          decision := merged.finalDecision.toVerdict
          confidence := merged.finalScore
          reasons := merged.triggerReasons
          flags := merged.checkerFlags.map .finding }
    else .ok m4

variable {config : ArbiterConfig} {m4 : CheckerVerdict} {llm : Verdict} {m : MergeResult}
  {runner : Runner} {r : CandidateResult} {parent : Option (Metrics ℚ)} {candidateId : String}
  {metrics : Metrics ℚ} {v : CheckerVerdict}

/-- Weighted scores of the unit range pass the checks of the result. -/
theorem makeMergeResult_weighted (config : ArbiterConfig) (llm : Verdict)
    (hscore : m.finalScore = config.makerWeight * (1 / 2) + config.checkerWeight * llm.checkerScore)
    (hconfidence : m.checkerConfidence = some llm.confidence) : makeMergeResult m = .ok m := by
  obtain ⟨⟨hs0, hs1⟩, hc, -⟩ := llm.unit
  obtain ⟨hm0, hm1⟩ := config.maker_unit
  obtain ⟨hw0, hw1⟩ := config.checker_unit
  have h0 : 0 ≤ config.checkerWeight * llm.checkerScore := mul_nonneg hw0 hs0
  have h1 : config.checkerWeight * llm.checkerScore ≤ 1 := mul_le_one₀ hw1 hs0 hs1
  have hrange : -10 ≤ m.finalScore ∧ m.finalScore ≤ 10 := by
    rw [hscore]
    constructor <;> linarith
  have hvalid : ¬ ∃ c ∈ m.checkerConfidence, ¬ (0 ≤ c ∧ c ≤ 1) := by
    rintro ⟨c, hmem, hno⟩
    rw [hconfidence, Option.mem_some_iff] at hmem
    exact hno (hmem ▸ hc)
  rw [makeMergeResult, if_neg (not_not.mpr hrange), if_neg hvalid]

/-- The arbiter accepts what the heuristics find promising and the LLM accepts, unless its score is
too far from one half. -/
theorem resolve_accepted_iff (hm4 : m4.decision ≠ .accepted ∧ m4.decision ≠ .suspiciousToHuman) :
    ∃ m, resolve config m4 llm none = .ok m ∧ (m.finalDecision = .accepted ↔
      m4.decision = .promising ∧ llm.accept ∧ |1 / 2 - llm.checkerScore| ≤ config.gapThreshold) := by
  rw [resolve]
  cases hd : m4.decision with
  | accepted => exact absurd hd hm4.1
  | suspiciousToHuman => exact absurd hd hm4.2
  | rejected => exact ⟨_, makeMergeResult_weighted config llm rfl rfl, by simp⟩
  | suspicious =>
    cases ha : llm.accept with
    | false => exact ⟨_, makeMergeResult_weighted config llm rfl rfl, by simp⟩
    | true => exact ⟨_, makeMergeResult_weighted config llm rfl rfl, by simp⟩
  | promising =>
    cases ha : llm.accept with
    | false => exact ⟨_, makeMergeResult_weighted config llm rfl rfl, by simp⟩
    | true =>
      by_cases hgap : config.gapThreshold < |1 / 2 - llm.checkerScore|
      · simp only [Option.getD_none, if_pos hgap, if_true]
        exact ⟨_, makeMergeResult_weighted config llm rfl rfl, by simpa using hgap⟩
      · simp only [Option.getD_none, if_neg hgap, if_true]
        exact ⟨_, makeMergeResult_weighted config llm rfl rfl, by simpa using hgap⟩

/-- The agent raises on a candidate without an id or with a null sharpe, whatever its backend does,
and on no other. -/
theorem verify_ok_iff : (∃ v, runner.verify candidateId metrics = .ok v) ↔
    candidateId ≠ "" ∧ metrics.sharpe ≠ some none := by
  rw [Runner.verify]
  by_cases hid : candidateId = ""
  · simp [hid]
  · rw [if_neg hid]
    cases hs : sharpeText metrics with
    | error e =>
      have hnull : metrics.sharpe = some none := by
        rw [sharpeText] at hs
        split at hs
        · cases hs
        · next hnone =>
          cases hsharpe : metrics.sharpe with
          | none => simp [hsharpe] at hnone
          | some s => simpa [hsharpe] using hnone
      simp [buildPrompt, hs, hnull]
    | ok text =>
      have hnull : metrics.sharpe ≠ some none := by
        intro hnull
        simp [sharpeText, hnull] at hs
      simp only [buildPrompt, hs, ok_bind, hid, hnull, ne_eq, not_false_iff, and_self, iff_true]
      change ∃ v, (match runner.backend candidateId _ with
        | .error _ => Except.ok (lowConfidenceReject candidateId)
        | .ok raw => _) = Except.ok v
      split
      · exact ⟨_, rfl⟩
      · split
        · exact ⟨_, rfl⟩
        · next v _ => exact ⟨_, makeVerdict_ok (v.problem_calibrated _)⟩

theorem evaluate_eq (hv : runner.verify r.candidateId r.metrics = .ok llm) :
    runner.evaluate r parent = resolve runner.arbiter (checkCandidate r parent) llm none := by
  rw [Runner.evaluate, hv, ok_bind]

theorem checkCandidate_valid (r : CandidateResult) (parent : Option (Metrics ℚ)) :
    (checkCandidate r parent).decision ≠ .accepted ∧
      (checkCandidate r parent).decision ≠ .suspiciousToHuman := by
  rcases checkCandidate_cases r parent with ⟨-, h⟩ | ⟨-, -, h⟩ | ⟨-, -, h⟩ <;> simp [h]

/-- An enabled runner can judge the candidate. -/
def Judgeable (runner : Option Runner) (r : CandidateResult) : Prop :=
  ∀ rn, runner = some rn → rn.enabled → r.candidateId ≠ "" ∧ r.metrics.sharpe ≠ some none

theorem evaluateCandidate_ok_iff {runner : Option Runner} :
    (∃ v, evaluateCandidate r runner parent = .ok v) ↔ Judgeable runner r := by
  cases runner with
  | none => simp [evaluateCandidate, Judgeable]
  | some rn =>
    cases he : rn.enabled with
    | false => simp [evaluateCandidate, Judgeable, he]
    | true =>
      have hjudge : Judgeable (some rn) r ↔ ∃ v, rn.verify r.candidateId r.metrics = .ok v := by
        simp [verify_ok_iff, Judgeable, he]
      rw [hjudge]
      constructor
      · rintro ⟨v, hv⟩
        simp only [evaluateCandidate, he, if_true] at hv
        obtain ⟨m, hm, -⟩ := bind_ok.mp hv
        obtain ⟨llm, hllm, -⟩ := bind_ok.mp hm
        exact ⟨llm, hllm⟩
      · rintro ⟨llm, hllm⟩
        obtain ⟨m, hm⟩ : ∃ m, resolve rn.arbiter (checkCandidate r parent) llm none = .ok m := by
          obtain ⟨m, hm, -⟩ := resolve_accepted_iff (checkCandidate_valid r parent)
          exact ⟨m, hm⟩
        rw [← evaluate_eq hllm] at hm
        exact ⟨_, by simp only [evaluateCandidate, he, if_true, hm, ok_bind]; rfl⟩

/-- Neither rejected nor sent to a human, nor merely suspicious. -/
def VerdictDecision.Passed (d : VerdictDecision) : Prop := d = .accepted ∨ d = .promising

instance decidablePassed {d : VerdictDecision} : Decidable d.Passed :=
  inferInstanceAs (Decidable (_ ∨ _))

/-- No red flag, and where the runner is enabled an accepting LLM with a score near one half. -/
def Clean (runner : Option Runner) (r : CandidateResult) (parent : Option (Metrics ℚ)) : Prop :=
  redFlags r.metrics parent = [] ∧
  ∀ rn, runner = some rn → rn.enabled → ∃ llm, rn.verify r.candidateId r.metrics = .ok llm ∧
    llm.accept ∧ |1 / 2 - llm.checkerScore| ≤ rn.arbiter.gapThreshold

/-- The verdict passes the candidates of the worker that are clean. -/
theorem passed_iff_clean {runner : Option Runner} (hr : r.decision = .accepted)
    (hv : evaluateCandidate r runner parent = .ok v) :
    v.decision.Passed ↔ Clean runner r parent := by
  have hpromising : (checkCandidate r parent).decision = .promising ↔
      r.decision = .accepted ∧ redFlags r.metrics parent = [] := checkCandidate_promising_iff
  have hm4 : ∀ v, evaluateCandidate r runner parent = .ok v → v = checkCandidate r parent →
      (v.decision.Passed ↔ redFlags r.metrics parent = []) := by
    rintro _ - rfl
    rw [VerdictDecision.Passed, or_iff_right (checkCandidate_valid r parent).1, hpromising]
    exact and_iff_right hr
  cases runner with
  | none =>
    rw [hm4 v hv (Except.ok.inj hv).symm]
    simp [Clean]
  | some rn =>
    cases he : rn.enabled with
    | false =>
      rw [hm4 v hv (by simpa [evaluateCandidate, he] using hv.symm)]
      simp [Clean, he]
    | true =>
      obtain ⟨llm, hllm⟩ := verify_ok_iff.mpr (evaluateCandidate_ok_iff.mp ⟨v, hv⟩ rn rfl he)
      obtain ⟨m, hm, haccepted⟩ : ∃ m, resolve rn.arbiter (checkCandidate r parent) llm none = .ok m ∧
          (m.finalDecision = .accepted ↔ (checkCandidate r parent).decision = .promising ∧ llm.accept ∧
            |1 / 2 - llm.checkerScore| ≤ rn.arbiter.gapThreshold) :=
        resolve_accepted_iff (checkCandidate_valid r parent)
      rw [← evaluate_eq hllm] at hm
      simp only [evaluateCandidate, he, if_true, hm, ok_bind] at hv
      cases hv
      have hfinal : m.finalDecision.toVerdict.Passed ↔ m.finalDecision = .accepted := by
        cases m.finalDecision <;> simp [FinalDecision.toVerdict, VerdictDecision.Passed]
      rw [hfinal, haccepted, hpromising]
      simp [Clean, he, hllm, hr]

end Pyharmonics.Loop
