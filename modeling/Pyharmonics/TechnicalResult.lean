import Pyharmonics.DetectPatterns
import Pyharmonics.SignalEngine

/-! The response schema of a detection, filled from the signal or from the raw position. -/
namespace Pyharmonics

variable {α β : Type} {N : Numerics} {w : Process}

def DirectionWord.text : DirectionWord → String
  | .long => "long"
  | .short => "short"
  | .bullish => "bullish"
  | .bearish => "bearish"

/-- `TechnicalResult`; the timestamp of the current price is left out. -/
structure TechnicalResult where
  patternFamily : Option String := none
  patternType : Option String := none
  direction : Option String := none
  entryPrice : Option ℚ := none
  stopLoss : Option ℚ := none
  targetPrice : Option ℚ := none
  riskRewardRatio : Option ℚ := none
  confidence : Option String := none
  divergences : List DivergenceItem := []
  rawPatterns : Option PatternSummary := none
  signal : Option Signal := none
  resolvedType : Option String := none
  currentPrice : Option ℚ := none

def lengthIn (least most : ℕ) (s : String) : Bool :=
  decide (least ≤ s.length ∧ s.length ≤ most)

def SignalTarget.schemaOk (t : SignalTarget) : Bool :=
  lengthIn 1 16 t.label && decide (0 < t.price) && lengthIn 0 64 t.fibBasis &&
    decide (0 ≤ t.closePct ∧ t.closePct ≤ 100) && lengthIn 0 32 t.moveStopTo

/-- The fields of the schema `Signal` that a signal can fail, with their checks. -/
def Signal.schemaChecks (s : Signal) : List (String × Bool) :=
  [("pattern_name", lengthIn 1 64 s.patternName),
    ("family", lengthIn 1 32 s.family),
    ("entry_reference", decide (0 < s.entryReference)),
    ("stop_loss", decide (0 < s.stopLoss)),
    ("stop_basis", lengthIn 0 128 s.stopBasis),
    ("stop_level", lengthIn 0 32 s.stopLevel),
    ("invalidation_point", decide (0 < s.invalidationPoint)),
    ("targets", s.targets.all SignalTarget.schemaOk),
    ("net_rr_tp1", decide (0 ≤ s.netRrTp1)),
    ("net_rr_tp2", decide (0 ≤ s.netRrTp2)),
    ("confluence_score", decide (0 ≤ s.confluenceScore ∧ s.confluenceScore ≤ 100)),
    ("reasoning", lengthIn 0 2048 s.reasoning),
    ("sharpe", decide (∀ x ∈ s.sharpe, -10 ≤ x ∧ x ≤ 10)),
    ("position_multiplier", decide (∀ x ∈ s.positionMultiplier, 0 ≤ x ∧ x ≤ 10)),
    ("stability_score", decide (∀ x ∈ s.stabilityScore, 0 ≤ x ∧ x ≤ 100)),
    ("trap_score", decide (∀ x ∈ s.trapScore, 0 ≤ x ∧ x ≤ 100))]

/-- `ValidationError` for the fields whose checks fail. -/
def validate (checks : List (String × Bool)) : Except PyError Unit :=
  match checks.filter fun c => !c.2 with
  | [] => .ok ()
  | failed => .error (.other ("ValidationError: " ++ ", ".intercalate (failed.map Prod.fst)))

/-- The constructor call of `technical_result_to_schema`. -/
def TechnicalResult.construct (r : DetectionResult) (signal : Option Signal) :
    Except PyError TechnicalResult := do
  let family := r.patterns.map PatternSummary.family
  let direction := r.patterns.map PatternSummary.direction
  validate ([("pattern_family", family.all (lengthIn 0 32)),
    ("direction", direction.all (lengthIn 0 16))] ++
      (signal.map Signal.schemaChecks).getD [])
  return {
    patternFamily := family
    patternType := some (if r.patterns.any PatternSummary.forming then "forming" else "formed")
    direction := direction
    divergences := r.divergences
    rawPatterns := r.patterns
    signal := signal }

/-- `float(x or 0) or None` -/
def orNone (x : Option ℚ) : Option ℚ := x.filter (· ≠ 0)

/-- `net_rr` of three levels that are all there and not zero. -/
def ratioOf (N : Numerics) (w : Process) (entry stop target : Option ℚ) :
    Except PyError (Option ℚ) :=
  match orNone entry, orNone stop, orNone target with
  | some entry, some stop, some target => netRr N w entry stop target
  | _, _, _ => .ok none

/-- `technical_result_to_schema` -/
def technicalResultToSchema (N : Numerics) (w : Process) (r : DetectionResult)
    (signal : Option Signal) : Except PyError TechnicalResult := do
  let result ← TechnicalResult.construct r signal
  match signal, r.position with
  | some s, _ =>
    let target := s.targets.head?.map SignalTarget.price
    let rr ← ratioOf N w (some s.entryReference) (some s.stopLoss) target
    return { result with
      patternFamily := if s.family = "" then result.patternFamily else some s.family
      patternType := some (if s.formed then "formed" else "forming")
      direction := some (match s.direction with
        | .long => "bullish"
        | .short => "bearish"
        | word => word.text)
      entryPrice := some s.entryReference
      stopLoss := some s.stopLoss
      targetPrice := target
      riskRewardRatio := rr
      confidence := some "validated-signal" }
  | none, some p =>
    let entry := orNone (some p.strike)
    let stop := orNone p.stop
    let rr ← ratioOf N w entry stop p.targets.head?
    return { result with
      entryPrice := entry
      stopLoss := stop
      targetPrice := p.targets.head?
      riskRewardRatio := rr
      confidence := some "raw-position" }
  | none, none => return result

/-- An `AppError`, which the endpoints turn into an error response. -/
def PyError.IsApp : PyError → Prop
  | .appError .. => True
  | _ => False

/-- Whatever the call raises is no `AppError`. -/
def Internal (x : Except PyError α) : Prop := ∀ e, x = .error e → ¬ e.IsApp

theorem internal_ok {a : α} : Internal (.ok a) := by
  simp [Internal]

theorem internal_bind {x : Except PyError α} {k : α → Except PyError β} (hx : Internal x)
    (hk : ∀ a, Internal (k a)) : Internal (x >>= k) := by
  cases x with
  | error e =>
    intro e' he
    obtain rfl := Except.error.inj he
    exact hx e rfl
  | ok a => exact hk a

theorem internal_require {p : Prop} [Decidable p] {message : String} :
    Internal (require p message) := by
  intro e he
  unfold require at he
  split_ifs at he
  obtain rfl := Except.error.inj he
  exact id

theorem internal_netRr {entry stop target : ℚ} : Internal (netRr N w entry stop target) :=
  internal_bind internal_require fun _ => internal_bind internal_require fun _ =>
    internal_bind internal_require fun _ => internal_bind internal_require fun _ => internal_ok

theorem internal_ratioOf {entry stop target : Option ℚ} :
    Internal (ratioOf N w entry stop target) := by
  unfold ratioOf
  split
  · exact internal_netRr
  · exact internal_ok

theorem internal_validate {checks : List (String × Bool)} : Internal (validate checks) := by
  unfold validate
  split
  · exact internal_ok
  · intro e he
    obtain rfl := Except.error.inj he
    exact id

/-- The schema conversion raises contract violations and validation errors only. -/
theorem internal_technicalResultToSchema {r : DetectionResult} {signal : Option Signal} :
    Internal (technicalResultToSchema N w r signal) := by
  refine internal_bind (internal_bind internal_validate fun _ => internal_ok) ?_
  intro result
  split
  · exact internal_bind internal_ratioOf fun _ => internal_ok
  · exact internal_bind internal_ratioOf fun _ => internal_ok
  · exact internal_ok

end Pyharmonics
