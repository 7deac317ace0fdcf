import Pyharmonics.CheckerAgent
import Pyharmonics.Mutation

/-! The maker agent: proposals of the LLM and of the mutation code, in one batch. -/
namespace Pyharmonics.MakerChecker

open Json
open Loop (Member Rng defaultClusterMap mutateField clip)

/-- `abs(m) > limit` -/
def exceeds (limit : ℚ) : PyFloat → Bool
  | .num x => limit < |x|
  | .inf | .negInf => true
  | .nan => false

/-- One mutation operation. What `__post_init__` checks of it is carried. -/
structure Proposal where
  clustersTouched : List Json
  diff : List (String × PyFloat)
  makerIntent : String
  reasoning : String
  selfScore : Score
  proposalId : String
  touched : clustersTouched ≠ []
  changes : diff ≠ []
  bounded : ∀ e ∈ diff, exceeds 50 e.2 = false
  intent_short : makerIntent.length ≤ 64
  reasoning_short : reasoning.length ≤ 200

/-- `make_proposal` -/
def makeProposal (clustersTouched : List Json) (diff : List (String × PyFloat))
    (makerIntent reasoning : String) (selfScore : PyFloat) (proposalId : String) :
    Except PyError Proposal := do
  let selfScore ← checkScore "self_score" selfScore
  if touched : clustersTouched = [] then
    .error (.valueError "Proposal.clusters_touched must be non-empty" [])
  else if changes : diff = [] then .error (.valueError "Proposal.diff must be non-empty" [])
  else if bounded : ∃ e ∈ diff, exceeds 50 e.2 = true then
    .error (.valueError "diff magnitude exceeds ±50.0%" [])
  else if intent : 64 < makerIntent.length then
    .error (.valueError ("maker_intent too long (" ++ toString makerIntent.length ++ " > 64)") [])
  else if reason : 200 < reasoning.length then
    .error (.valueError ("reasoning too long (" ++ toString reasoning.length ++ " > 200)") [])
  else
    .ok { clustersTouched, diff, makerIntent, reasoning, selfScore, proposalId, touched, changes
          bounded := by simpa using bounded
          intent_short := not_lt.mp intent
          reasoning_short := not_lt.mp reason }

theorem sixTenths_score : (0 : ℚ) ≤ 6 / 10 ∧ (6 / 10 : ℚ) ≤ 1 := by norm_num

theorem fifty_limit : (0 : ℚ) < 50 ∧ (50 : ℚ) ≤ 50 := by norm_num

inductive RunMode
  | mix | llmOnly | tradOnly
  deriving DecidableEq

/-- `MakerConfig`, in the ranges `__post_init__` checks. -/
structure MakerConfig where
  runMode : RunMode := .mix
  llmRatio : Score := ⟨6 / 10, sixTenths_score⟩
  maxDiffPct : {x : ℚ // 0 < x ∧ x ≤ 50} := ⟨50, fifty_limit⟩
  seed : ℤ := 0

/-- `_split_count` -/
def splitCount (n : ℕ) (llmRatio : ℚ) : ℕ × ℕ :=
  let llm := (max 0 (min (n : ℤ) (Rounding.halfEven (n * llmRatio)))).toNat
  (llm, n - llm)

/-- The kinds of `mutate_field`. -/
def kind : Member → String
  | .absSmall _ _ _ => "abs_small"
  | .relLarge _ _ _ => "rel_large"
  | .intWindow _ _ _ => "int_window"
  | .intThreshold _ _ _ => "int_threshold"
  | .dictPerKey _ _ _ _ _ _ => "dict_per_key"

/-- The value of a field that is a number. -/
def numberOf (t : TuningFields) : TuningField → Option ℚ
  | .rat f => some (t.rat f)
  | .int f => some (t.int f)
  | _ => none

/-- The change in percent of the old value, clamped. -/
def magnitude (old new : ℚ) : ℚ :=
  max (min (if old = 0 then 0 else Rounding.roundTo 2 ((new - old) / |old| * 100)) 50) (-50)

/-- `cluster.replace(' ', '_').lower()` -/
def slug (cluster : String) : String :=
  String.ofList (cluster.toList.map fun c => if c = ' ' then '_' else c.toLower)

/-- Where the mutation code draws from: a generator for each seed. -/
structure Mutator (σ : Type) where
  rng : Rng σ
  start : ℤ → σ

variable {σ : Type}

/-- The slots of a cluster: its fields in turn. -/
def slotSpec (cluster : String) (i : ℕ) : Option Member :=
  let specs := defaultClusterMap.getD cluster []
  specs[i % specs.length]?

/-- What the mutation of a slot's field changes it by, if it is a number and changes. -/
def slotChange (M : Mutator σ) (parent : TuningConstants) (seed : ℤ) (spec : Member) (i : ℕ) :
    Option ℚ := do
  let mutated := (mutateField M.rng spec parent 1 (M.start (seed * 1000 + i))).1
  let old ← numberOf parent.toTuningFields spec.field
  let new ← numberOf mutated.toTuningFields spec.field
  if old = new then none else some (magnitude old new)

/-- `f"trad_{cluster.replace(' ', '_').lower()}_{i}"` -/
def slotIntent (cluster : String) (i : ℕ) : String := "trad_" ++ slug cluster ++ "_" ++ toString i

/-- One round of the loop of `traditional_proposals`. -/
def slotProposal (M : Mutator σ) (parent : TuningConstants) (cluster : String) (seed : ℤ) (i : ℕ) :
    Except PyError (Option Proposal) :=
  match slotSpec cluster i with
  | none => .ok none
  | some spec =>
    match slotChange M parent seed spec i with
    | none => .ok none
    | some change => do
      return some (← makeProposal [.str cluster] [(spec.field.name, .num change)]
        (slotIntent cluster i)
        ("traditional " ++ kind spec ++ " perturbation on " ++ spec.field.name) (.num (1 / 2))
         ("trad-" ++ slug cluster ++ "-" ++ toString i))

/-- `traditional_proposals` -/
def traditionalProposals (M : Mutator σ) (parent : TuningConstants) (n : ℕ) (cluster : String)
    (seed : ℤ) : Except PyError (List Proposal) :=
  if defaultClusterMap.getD cluster [] = [] then
    .error (.valueError ("unknown cluster '" ++ cluster ++ "'") [])
  else do
    let made ← (List.range n).mapM (slotProposal M parent cluster seed)
    return made.reduceOption

/-- The fields of a reply's proposal that are of their types, about the one cluster. -/
structure RawProposal where
  touched : List Json
  diff : List (String × Json)
  intent : String
  reasoning : String
  selfScore : Json
  proposalId : Json

/-- `c != cluster` -/
def otherCluster (cluster : String) : Json → Bool
  | .str c => c ≠ cluster
  | _ => true

/-- The type checks of `_parse_proposal`. -/
def readProposal (cluster : String) : Json → Option RawProposal
  | .dict raw =>
    match get raw "clusters_touched", get raw "diff", get raw "maker_intent",
      get raw "reasoning" with
    | .list touched, .dict diff, .str intent, .str reasoning =>
      let selfScore := get raw "self_score"
      if touched = [] ∨ diff = [] then none
      else if ¬ selfScore.isNumber then none
      else if touched.any (otherCluster cluster) then none
      else
        some { touched, diff, intent, reasoning, selfScore
               proposalId := (raw.lookup "proposal_id").getD (.str "") }
    | _, _, _, _ => none
  | _ => none

/-- The conversions of `_parse_proposal` and the proposal they are put in. -/
def RawProposal.toProposal (B : Builtins) (p : RawProposal) : Except PyError Proposal := do
  let diff ← floatValues B p.diff
  let selfScore ← p.selfScore.toFloat B
  let proposalId ← p.proposalId.text B
  makeProposal p.touched diff p.intent p.reasoning selfScore proposalId

/-- `_parse_proposal` -/
def parseProposal (B : Builtins) (cluster : String) (raw : Json) :
    Except PyError (Option Proposal) :=
  match readProposal cluster raw with
  | none => .ok none
  | some p => caught (p.toProposal B)

/-- What the loop over `raw.get("proposals") or []` runs through. -/
def repliedProposals : Json → Except PyError (List Json)
  | .dict raw =>
    let proposals := get raw "proposals"
    if proposals.truthy then
      match proposals with
      | .list items => .ok items
      | .dict entries => .ok (entries.map fun e => .str e.1)
      | .str s => .ok (s.toList.map fun c => .str (String.singleton c))
      | j => .error (.typeError ("'" ++ j.typeName ++ "' object is not iterable"))
    else .ok []
  | j => .error (.attributeError ("'" ++ j.typeName ++ "' object has no attribute 'get'"))

/-- A backend answers a prompt, the number of proposals, a seed and the cluster, or raises. -/
structure MakerAgent where
  backend : String → ℕ → ℤ → String → Except PyError Json
  config : MakerConfig := {}

/-- `_build_prompt` of the maker, for so many runs and front members. -/
def makerPrompt (n : ℕ) (cluster : String) (history paretoFront : ℕ) : String :=
  let fieldNames := (defaultClusterMap.getD cluster []).map fun m => m.field.name
  let parentKeys := (Sorting.sortBy id (TuningField.all.map TuningField.name)).take 5
  "maker|cluster=" ++ cluster ++ "|n=" ++ toString n ++ "|fields=" ++ ",".intercalate fieldNames ++
    "|parent=[" ++ ", ".intercalate (parentKeys.map fun k => "'" ++ k ++ "'") ++
    "]|history_len=" ++ toString history ++ "|pareto_len=" ++ toString paretoFront

/-- The backend's reply to the prompt. -/
def MakerAgent.reply (agent : MakerAgent) (n : ℕ) (cluster : String) (history paretoFront : ℕ) :
    Except PyError Json :=
  agent.backend (makerPrompt n cluster history paretoFront) n agent.config.seed cluster

/-- `_propose_via_llm` -/
def MakerAgent.proposeViaLlm (B : Builtins) (agent : MakerAgent) (n : ℕ) (cluster : String)
    (history paretoFront : ℕ) : Except PyError (List Proposal) :=
  match agent.reply n cluster history paretoFront with
  | .error _ => .ok []
  | .ok raw => do
    let proposals ← repliedProposals raw
    let parsed ← proposals.mapM (parseProposal B cluster)
    return parsed.reduceOption

/-- The LLM's slots: what falls short is topped up. -/
def MakerAgent.llmSlots (B : Builtins) (M : Mutator σ) (agent : MakerAgent)
    (parent : TuningConstants) (llmTarget : ℕ) (cluster : String) (history paretoFront : ℕ) :
    Except PyError (List Proposal) := do
  let llmOut ← agent.proposeViaLlm B llmTarget cluster history paretoFront
  let shortfall := llmTarget - llmOut.length
  if 0 < shortfall then
    let topUp ← traditionalProposals M parent shortfall cluster agent.config.seed
    return llmOut ++ topUp
  else return llmOut

/-- `propose_batch` -/
def MakerAgent.proposeBatch (B : Builtins) (M : Mutator σ) (agent : MakerAgent)
    (parent : TuningConstants) (n : ℤ) (cluster : String) (history paretoFront : ℕ) :
    Except PyError (List Proposal) :=
  if n ≤ 0 then .error (.valueError "n must be positive; got" [n])
  else if cluster ∉ defaultClusterMap.keys then
    .error (.valueError ("unknown cluster '" ++ cluster ++ "'") [])
  else if agent.config.runMode = .tradOnly then
    traditionalProposals M parent n.toNat cluster agent.config.seed
  else do
    let (llmN, tradN) := splitCount n.toNat agent.config.llmRatio
    let llmTarget := if agent.config.runMode = .llmOnly then n.toNat else llmN
    let out ← (if 0 < llmTarget then
        agent.llmSlots B M parent llmTarget cluster history paretoFront
      else .ok [])
    let trad ← (if agent.config.runMode = .mix ∧ 0 < tradN then
        traditionalProposals M parent tradN cluster agent.config.seed
      else .ok [])
    return (out ++ trad).take n.toNat

end Pyharmonics.MakerChecker
