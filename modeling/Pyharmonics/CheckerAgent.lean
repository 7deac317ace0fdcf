import Pyharmonics.Calibration
import Pyharmonics.JsonValues
import Pyharmonics.MakerChecker

/-! The checker agent: isolation of the results, the LLM's reply and the calibrated verdict. -/
namespace Pyharmonics.MakerChecker

open Json
open Loop (Elementary CalibrationParams severities)

inductive IsolationLevel
  | strict | moderate | minimal
  deriving DecidableEq

def baseStripped : List String := ["maker_intent", "reasoning", "self_score", "prompt_version"]

def strictExtra : List String :=
  ["clusters_touched", "diff", "expected_impact", "generation_id", "parent_id", "parent_metrics",
    "gen", "cluster", "fingerprint"]

def minimalExtra : List String := ["maker_intent", "reasoning"]

/-- `STRIPPED_FIELDS_V1` -/
def strippedFields : IsolationLevel → List String
  | .strict => baseStripped ++ strictExtra
  | .moderate => baseStripped
  | .minimal => minimalExtra

/-- `_salted_id`: sixteen hexadecimal digits. -/
def saltedId (B : Builtins) (rawId salt : String) : String :=
  let bytes := (B.sha256 (salt ++ "|" ++ rawId)).take 8
  String.ofList (bytes.flatMap fun b => [Nat.digitChar (b / 16), Nat.digitChar (b % 16)])

/-- `strip_maker_artifacts` -/
def stripMakerArtifacts (B : Builtins) (payload : Dict String Json) (level : IsolationLevel)
    (salt : String) : Except PyError (Dict String Json) :=
  let out := (strippedFields level).foldl Dict.erase payload
  if level = .strict then
    let rawId := payload.getD "candidate_id" (.str "")
    if rawId.truthy then do
      let text ← rawId.text B
      return out.set "candidate_id" (.str (saltedId B text salt))
    else .error (.valueError "strict isolation requires payload['candidate_id']" [])
  else .ok out

/-- `f"{v:.3f}"` -/
def fixedThree : Json → Except PyError String
  | .bool b => .ok (if b then "1.000" else "0.000")
  | .int n =>
    if |n| < floatLimit then .ok (Rounding.fixedText 3 n)
    else .error (.other "OverflowError: int too large to convert to float")
  | .float (.num x) => .ok (Rounding.fixedText 3 x)
  | .float .inf => .ok "inf"
  | .float .negInf => .ok "-inf"
  | .float .nan => .ok "nan"
  | .str _ => .error (.valueError "Unknown format code 'f' for object of type 'str'" [])
  | j => .error (.typeError ("unsupported format string passed to " ++ j.typeName ++ ".__format__"))

/-- `_build_prompt` -/
def buildPrompt (B : Builtins) (isolated : Dict String Json) : Except PyError String :=
  let keys := Sorting.sortBy id isolated.keys
  match isolated.getD "metrics" (.dict []) with
  | .dict metrics => do
    let sharpe ← fixedThree ((metrics.lookup "sharpe").getD (.float (.num 0)))
    let trades ← ((metrics.lookup "trades_count").getD (.int 0)).text B
    return "checker|metrics_keys=" ++
      ",".intercalate (Sorting.sortBy id (metrics.map Prod.fst)) ++
      "|sharpe=" ++ sharpe ++ "|trades=" ++ trades ++
      "|top_keys=" ++ ",".intercalate (keys.take 5)
  | j => .error (.attributeError ("'" ++ j.typeName ++ "' object has no attribute 'get'"))

/-- A number in `[0, 1]`. -/
abbrev Score := {x : ℚ // 0 ≤ x ∧ x ≤ 1}

/-- A flag names an issue and one of the severities. -/
def IsFlag (f : List (String × Json)) : Prop :=
  (f.lookup "issue").isSome ∧ (f.lookup "severity").any fun
    | .str s => s ∈ severities
    | _ => false

instance : DecidablePred IsFlag := fun _ => inferInstanceAs (Decidable (_ ∧ _))

/-- The opinion on one candidate. What is checked of it is in the types of its fields. -/
structure Verdict where
  candidateId : String
  checkerScore : Score
  confidence : Score
  components : List (String × Score)
  flags : List {f // IsFlag f}
  accept : Bool
  feedback : {s : String // s.length ≤ 200}
  rawScore : Score

/-- `if not 0.0 <= v <= 1.0: raise ValueError` -/
def checkScore (name : String) : PyFloat → Except PyError Score
  | .num x =>
    if h : 0 ≤ x ∧ x ≤ 1 then .ok ⟨x, h⟩
    else .error (.valueError (name ++ " must be in [0, 1]; got") [x])
  | .inf => .error (.valueError (name ++ " must be in [0, 1]; got inf") [])
  | .negInf => .error (.valueError (name ++ " must be in [0, 1]; got -inf") [])
  | .nan => .error (.valueError (name ++ " must be in [0, 1]; got nan") [])

def checkComponent (e : String × PyFloat) : Except PyError (String × Score) := do
  return (e.1, ← checkScore ("components['" ++ e.1 ++ "']") e.2)

def checkFlag (f : List (String × Json)) : Except PyError {f // IsFlag f} :=
  if h : IsFlag f then .ok ⟨f, h⟩
  else if (f.lookup "severity").isNone ∨ (f.lookup "issue").isNone then
    .error (.valueError "flag missing severity/issue" [])
  else .error (.valueError "flag severity must be high|medium|low" [])

def checkFeedback (feedback : String) : Except PyError {s : String // s.length ≤ 200} :=
  if h : feedback.length ≤ 200 then .ok ⟨feedback, h⟩
  else .error (.valueError ("feedback too long (" ++ toString feedback.length ++ " > 200)") [])

/-- `make_verdict` -/
def makeVerdict (candidateId : String) (checkerScore confidence : PyFloat)
    (components : List (String × PyFloat)) (flags : List (List (String × Json))) (accept : Bool)
    (feedback : String) (rawScore : PyFloat) : Except PyError Verdict := do
  let checkerScore ← checkScore "checker_score" checkerScore
  let confidence ← checkScore "confidence" confidence
  let rawScore ← checkScore "raw_score" rawScore
  let components ← components.mapM checkComponent
  let flags ← flags.mapM checkFlag
  let feedback ← checkFeedback feedback
  return { candidateId, checkerScore, confidence, components, flags, accept, feedback, rawScore }

/-- The fields of a reply that are of their types. -/
structure Reply where
  score : Json
  confidence : Json
  components : List (String × Json)
  flags : List Json
  accept : Bool
  feedback : String
  rawScore : Json

/-- The type checks of `_parse_verdict`. -/
def readReply : Json → Option Reply
  | .dict raw =>
    let score := get raw "checker_score"
    let confidence := get raw "confidence"
    let rawScore := (raw.lookup "raw_score").getD score
    let flags := get raw "flags"
    if ¬ score.isNumber then none
    else if ¬ confidence.isNumber then none
    else
      match get raw "components", if flags.truthy then flags else .list [], get raw "accept",
        (raw.lookup "feedback").getD (.str "") with
      | .dict components, .list flags, .bool accept, .str feedback =>
        some { score, confidence, components, flags, accept, feedback
               rawScore := if rawScore.isNumber then rawScore else score }
      | _, _, _, _ => none
  | _ => none

/-- The flags that are kept. -/
def cleanedFlags (flags : List Json) : List (List (String × Json)) :=
  flags.filterMap fun
    | .dict f => if IsFlag f then some f else none
    | _ => none

/-- The conversions of `_parse_verdict` and the verdict they are put in. -/
def Reply.toVerdict (B : Builtins) (candidateId : String) (r : Reply) : Except PyError Verdict := do
  let score ← r.score.toFloat B
  let confidence ← r.confidence.toFloat B
  let components ← floatValues B r.components
  let rawScore ← r.rawScore.toFloat B
  makeVerdict candidateId score confidence components (cleanedFlags r.flags) r.accept
    (r.feedback.take 200).toString rawScore

/-- `_parse_verdict` -/
def parseVerdict (B : Builtins) (candidateId : String) (raw : Json) :
    Except PyError (Option Verdict) :=
  match readReply raw with
  | none => .ok none
  | some r => caught (r.toVerdict B candidateId)

/-- `_low_confidence_reject` -/
def lowConfidenceReject (candidateId : String) : Except PyError Verdict :=
  makeVerdict candidateId (.num 0) (.num 0) []
    [[("severity", .str "high"), ("issue", .str "checker_backend_failure")]] false
    "checker backend failure — defaulted to reject" (.num 0)

theorem threeTenths_score : (0 : ℚ) ≤ 3 / 10 ∧ (3 / 10 : ℚ) ≤ 1 := by norm_num

theorem zero_score : (0 : ℚ) ≤ 0 ∧ (0 : ℚ) ≤ 1 := by norm_num

/-- `CheckerConfig`, in the ranges `__post_init__` checks. -/
structure CheckerConfig where
  isolationLevel : IsolationLevel := .strict
  calibrationParams : Option (CalibrationParams ℚ) := none
  rejectionThreshold : Score := ⟨3 / 10, threeTenths_score⟩
  minConfidence : Score := ⟨0, zero_score⟩

/-- A backend answers a prompt and a seed with parsed JSON, or raises. -/
structure CheckerAgent where
  backend : String → ℕ → Except PyError Json
  config : CheckerConfig := {}
  salt : String := ""

/-- `_seed_for` -/
def CheckerAgent.seedFor (B : Builtins) (agent : CheckerAgent) (candidateId : String) : ℕ :=
  ((B.sha256 (agent.salt ++ candidateId)).take 4).foldl (fun n b => 256 * n + b) 0

/-- The score a verdict is decided by. -/
def CheckerAgent.calibrated (E : Elementary ℚ) (agent : CheckerAgent) (verdict : Verdict) :
    Except PyError ℚ :=
  match agent.config.calibrationParams with
  | none => .ok verdict.rawScore
  | some params => params.apply E verdict.rawScore

/-- The verdict again, with the calibrated score. -/
def CheckerAgent.reemit (E : Elementary ℚ) (agent : CheckerAgent) (candidateId : String)
    (verdict : Verdict) : Except PyError Verdict := do
  let calibrated ← agent.calibrated E verdict
  let accept := verdict.accept && (agent.config.rejectionThreshold : ℚ) ≤ calibrated &&
    agent.config.minConfidence ≤ verdict.confidence
  makeVerdict candidateId (.num calibrated) (.num verdict.confidence)
    (verdict.components.map fun e => (e.1, .num e.2)) (verdict.flags.map Subtype.val) accept
    verdict.feedback (.num verdict.rawScore)

/-- What becomes of the backend's reply, or of its failure. -/
def CheckerAgent.judge (B : Builtins) (E : Elementary ℚ) (agent : CheckerAgent)
    (candidateId : String) (reply : Except PyError Json) : Except PyError Verdict :=
  match reply with
  | .error _ => lowConfidenceReject candidateId
  | .ok raw => do
    match ← parseVerdict B candidateId raw with
    | none => lowConfidenceReject candidateId
    | some verdict => agent.reemit E candidateId verdict

/-- `CheckerAgent.verify` -/
def CheckerAgent.verify (B : Builtins) (E : Elementary ℚ) (agent : CheckerAgent)
    (candidateId : String) (results : Dict String Json) : Except PyError Verdict := do
  let isolated ← stripMakerArtifacts B (results.set "candidate_id" (.str candidateId))
    agent.config.isolationLevel agent.salt
  let prompt ← buildPrompt B isolated
  agent.judge B E candidateId (agent.backend prompt (agent.seedFor B candidateId))

end Pyharmonics.MakerChecker
