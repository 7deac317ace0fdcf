import Mathlib.Data.List.MinMax
import Pyharmonics.Errors
import Pyharmonics.Library.Rounding
import Pyharmonics.Pareto

/-! The heuristic checker of the search loop: red flags in the metrics of a candidate. -/
namespace Pyharmonics.Loop

/-- What the worker makes of a candidate. -/
inductive Decision
  | accepted | rejected | duplicate | error
  deriving DecidableEq

/-- Serialisable outcome of one candidate run. -/
structure CandidateResult where
  candidateId : String
  paramsSha : String
  decision : Decision
  rejectionReason : Option String := none
  metrics : Metrics ℚ := {}
  fitness : Option ℚ := none
  runDir : String := ""
  error : Option String := none

/-- The decisions of the checker, and those of the arbiter that replace them. -/
inductive VerdictDecision
  | promising | suspicious | rejected | accepted | suspiciousToHuman
  deriving DecidableEq

def VerdictDecision.text : VerdictDecision → String
  | promising => "promising"
  | suspicious => "suspicious"
  | rejected => "rejected"
  | accepted => "accepted"
  | suspiciousToHuman => "suspicious_to_human"

/-- A structured finding of the LLM checker. -/
structure Finding where
  severity : String
  issue : String
  deriving DecidableEq

inductive Flag
  | signal (text : String)
  | finding (f : Finding)
  deriving DecidableEq

/-- The checker's opinion on one candidate. -/
structure CheckerVerdict where
  candidateId : String
  decision : VerdictDecision
  confidence : ℚ
  reasons : List String
  flags : List Flag
  deriving DecidableEq

/-- `max(counts, key=counts.get)` and its share: trades heavily skewed to one regime. -/
def flagRegimeImbalance (metrics : Metrics ℚ) : Option String :=
  let counts := (metrics.byRegime.entries.map fun e => (e.1, e.2.n)).filter fun e => e.2 ≠ 0
  let total := (counts.map Prod.snd).sum
  if total < 10 then none
  else
    (counts.argmax Prod.snd).bind fun top =>
      let dominant : ℚ := (top.2 : ℚ) / total
      if 85 / 100 < dominant then
        some ("regime_imbalance:" ++ top.1 ++ "=" ++ Rounding.percentText dominant)
      else none

def flagLowSample (metrics : Metrics ℚ) : Option String :=
  if metrics.tradesCount < 30 then some ("low_sample:" ++ toString metrics.tradesCount ++ "_trades")
  else none

/-- `f"{x:+.2f}"` -/
def signedText (x : ℚ) : String := (if x < 0 then "" else "+") ++ Rounding.fixedText 2 x

def flagBearRegimeSharpe (metrics : Metrics ℚ) : Option String :=
  let bear := ((metrics.byRegime.get? "bear").or (metrics.byRegime.get? "range")).getD {}
  if bear.n < 3 then none
  else
    match bear.sharpe with
    | none => some "bear_sharpe_missing"
    | some s => if s < -1 then some ("bear_sharpe_extreme:" ++ signedText s) else none

/-- The parent comparison: the fitness doubled, but the trade count dropped sharply. -/
def flagFitnessGain (metrics parent : Metrics ℚ) : Option (String × String) :=
  match metrics.fitness, parent.fitness with
  | some new, some old =>
    if new ≠ 0 ∧ old ≠ 0 ∧ 2 * old < new ∧
        (metrics.tradesCount : ℚ) < max 15 ((parent.tradesCount : ℚ) * (1 / 2)) then
      some ("fitness_gain_trade_drop",
        "fitness " ++ Rounding.fixedText 2 old ++ "→" ++ Rounding.fixedText 2 new ++ " but trades " ++
          toString parent.tradesCount ++ "→" ++ toString metrics.tradesCount ++
          " (likely overfit / cherry-picked)")
    else none
  | _, _ => none

/-- The flags of a candidate in the order of the checks, each with its reason. -/
def redFlags (metrics : Metrics ℚ) (parentMetrics : Option (Metrics ℚ)) : List (String × String) :=
  ((flagLowSample metrics).map fun low =>
    (low, "sample size " ++ toString metrics.tradesCount ++ " < 30")).toList ++
  ((flagRegimeImbalance metrics).map fun imb =>
    (imb, "trades skewed to one regime (" ++ imb ++ ")")).toList ++
  ((flagBearRegimeSharpe metrics).map fun bear =>
    (bear, "bear-regime sharpe suggests overfit to trending market")).toList ++
  (parentMetrics.bind (flagFitnessGain metrics)).toList

/-- Run the heuristic checker on `result`. -/
def checkCandidate (result : CandidateResult) (parentMetrics : Option (Metrics ℚ)) :
    CheckerVerdict :=
  let found := redFlags result.metrics parentMetrics
  let rolled : VerdictDecision × ℚ :=
    if result.decision ≠ .accepted then (.rejected, 9 / 10)
    else if found ≠ [] then (.suspicious, max 0 (7 / 10 - 15 / 100 * found.length))
    else (.promising, 7 / 10)
  { candidateId := result.candidateId
    decision := rolled.1
    confidence := rolled.2
    reasons := if found = [] then ["no red flags detected"] else found.map Prod.snd
    flags := found.map fun f => .signal f.1 }

variable {r : CandidateResult} {parent : Option (Metrics ℚ)}

/-- What the checker decides. -/
theorem checkCandidate_cases (r : CandidateResult) (parent : Option (Metrics ℚ)) :
    (r.decision ≠ .accepted ∧ (checkCandidate r parent).decision = .rejected) ∨
    (r.decision = .accepted ∧ redFlags r.metrics parent ≠ [] ∧
      (checkCandidate r parent).decision = .suspicious) ∨
    (r.decision = .accepted ∧ redFlags r.metrics parent = [] ∧
      (checkCandidate r parent).decision = .promising) := by
  by_cases hd : r.decision = .accepted
  · by_cases hf : redFlags r.metrics parent = []
    · exact .inr (.inr ⟨hd, hf, by simp [checkCandidate, hd, hf]⟩)
    · exact .inr (.inl ⟨hd, hf, by simp [checkCandidate, hd, hf]⟩)
  · exact .inl ⟨hd, by simp [checkCandidate, hd]⟩

theorem checkCandidate_promising_iff :
    (checkCandidate r parent).decision = .promising ↔
      r.decision = .accepted ∧ redFlags r.metrics parent = [] := by
  rcases checkCandidate_cases r parent with ⟨hd, h⟩ | ⟨-, hf, h⟩ | ⟨hd, hf, h⟩
  · simp [h, hd]
  · simp [h, hf]
  · simp [h, hd, hf]

end Pyharmonics.Loop
