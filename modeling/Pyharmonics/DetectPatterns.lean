import Pyharmonics.Confluence
import Pyharmonics.Extraction

/-! The adapter over the pattern library, and what the signal engine reads of its result. -/
namespace Pyharmonics

inductive AnalysisType
  | auto | forming | formed | divergence
  deriving DecidableEq

structure CandleData where
  df : Frame
  symbol : String
  interval : String

/-- A divergence object of the library; an attribute it lacks is `none`. -/
structure DivergencePattern where
  divType : Option String
  symbol : Option String
  interval : Option String
  /-- `to_dict()` -/
  toDict : Divergence

/-- What `get_patterns` returns after the searches. -/
structure Findings where
  formed : Dict String (List Pattern)
  forming : Dict String (List Pattern)
  divergences : Dict String (List DivergencePattern)

/-- The keyword arguments of `detect_patterns`. -/
structure DetectOptions where
  limitTo : ℕ := 10
  percentComplete : ℚ := 4 / 5
  analysisType : AnalysisType := .forming
  fibTolerance : ℚ := 1 / 10

/-- The pattern library; `none` is an exception it raises. -/
structure PatternLibrary where
  /-- The searches of a frame, the forming one up to a completion ratio when it is run. -/
  search : CandleData → ℚ → ℕ → Option ℚ → Option Findings
  /-- `Position(pattern, strike)`: its stop and its targets. -/
  position : Pattern → ℚ → Option (Option ℚ × List ℚ)

variable {lib : PatternLibrary} {cd : CandleData} {o : DetectOptions} {found : Findings}
  {closeTimes : Option (List ℤ)}

/-- `_PatternPosition` -/
structure PatternPosition where
  symbol : String
  interval : String
  forming : Bool
  family : String
  strike : ℚ
  stop : Option ℚ
  targets : List ℚ
  direction : String
  htfTrend : Option String
  deriving DecidableEq

/-- `_compute_strike`: the middle of the zone, its upper price for the ABC family. -/
def computeStrike (p : Pattern) (family : String) : ℚ :=
  match p.completionMinPrice, p.completionMaxPrice with
  | some cMin, some cMax =>
    if family = "ABC" then (if 0 < cMax then cMax else 0)
    else if 0 < cMin ∧ 0 < cMax then (cMin + cMax) / 2
    else 0
  | _, _ => 0

/-- The constructor of `_PatternPosition`; a failing `Position` leaves no stop and no targets. -/
def PatternPosition.ofPattern (lib : PatternLibrary) (cd : CandleData) (family : String)
    (forming : Bool) (p : Pattern) : PatternPosition :=
  let strike := computeStrike p family
  let (stop, targets) := (lib.position p strike).getD (none, [])
  let side := if p.bullish.getD false then "bullish" else "bearish"
  { symbol := cd.symbol, interval := cd.interval, forming := forming, family := family
    strike := strike, stop := stop.filter (0 < ·), targets := targets
    direction := match p.direction with
      | some d => if d = "" then side else d
      | none => side
    htfTrend := p.htfTrend }

/-- `result["patterns"]` of a detected pattern. -/
structure PatternSummary where
  symbol : String
  family : String
  direction : String
  entry : ℚ
  stop : Option ℚ
  targets : List ℚ
  forming : Bool
  deriving DecidableEq

structure DivergenceItem where
  type : String
  symbol : String
  interval : String
  deriving DecidableEq

/-- The dict `detect_patterns` returns; a key it does not set is `none`. -/
structure DetectionResult where
  position : Option PatternPosition := none
  patterns : Option PatternSummary := none
  divergences : List DivergenceItem := []
  htfTrend : Option String := none
  rawAssessment : Option RawAssessment := none

/-- The families in the order of preference. -/
def families : List String := ["XABCD", "ABCD", "ABC"]

def firstPattern (groups : Dict String (List Pattern)) : Option (String × Pattern) :=
  families.findSome? fun fam => (groups.getD fam []).head?.map (fam, ·)

/-- The pattern of the position: formed before forming. -/
def Findings.best (found : Findings) : Option (String × Bool × Pattern) :=
  match firstPattern found.formed, firstPattern found.forming with
  | some (family, p), _ => some (family, false, p)
  | none, some (family, p) => some (family, true, p)
  | none, none => none

def Findings.divergenceItems (found : Findings) (cd : CandleData) (limitTo : ℕ) :
    List DivergenceItem :=
  found.divergences.entries.flatMap fun e => (e.2.take limitTo).map fun d =>
    ⟨d.divType.getD e.1, d.symbol.getD cd.symbol, d.interval.getD cd.interval⟩

/-- The result for what the searches found. -/
def Findings.result (lib : PatternLibrary) (cd : CandleData) (o : DetectOptions)
    (found : Findings) : DetectionResult :=
  let divergences := found.divergenceItems cd o.limitTo
  match found.best with
  | none => { divergences := divergences }
  | some (family, forming, p) =>
    let position := PatternPosition.ofPattern lib cd family forming p
    { position := some position
      patterns := some {
        symbol := cd.symbol, family := family, direction := position.direction
        entry := position.strike, stop := position.stop, targets := position.targets
        forming := forming }
      divergences := divergences
      htfTrend := position.htfTrend }

/-- The completion ratio of the forming scan, which `formed` and `divergence` leave out. -/
def DetectOptions.scan (o : DetectOptions) : Option ℚ :=
  if o.analysisType = .forming ∨ o.analysisType = .auto then some o.percentComplete else none

/-- `detect_patterns`: any exception of the library is a detection error. -/
def detectPatterns (lib : PatternLibrary) (cd : CandleData) (o : DetectOptions) :
    Except PyError DetectionResult :=
  match lib.search cd o.fibTolerance o.limitTo o.scan with
  | some found => .ok (found.result lib cd o)
  | none => .error (.appError .detectionError "形态检测失败，请稍后重试。" true)

/-- The findings under the keys `extract_candidates` reads. -/
def Findings.assessment (found : Findings) : RawAssessment :=
  { patterns := some (found.formed.mapValues some), forming := some (found.forming.mapValues some) }

/-- Whatever the searches find, `extract_candidates` makes one candidate of each pattern. -/
def PipelineAgrees (lib : PatternLibrary) (cd : CandleData) (o : DetectOptions)
    (closeTimes : Option (List ℤ)) : Prop :=
  ∀ found, lib.search cd o.fibTolerance o.limitTo o.scan = some found →
    ∃ r cs, detectPatterns lib cd o = .ok r ∧
      extractCandidates r.rawAssessment closeTimes = .ok cs ∧ Agrees found.assessment.found cs

/-- No result of the adapter has a raw assessment. -/
theorem result_rawAssessment : (found.result lib cd o).rawAssessment = none := by
  unfold Findings.result
  cases found.best <;> rfl

theorem detectPatterns_of_search
    (h : lib.search cd o.fibTolerance o.limitTo o.scan = some found) :
    detectPatterns lib cd o = .ok (found.result lib cd o) := by
  rw [detectPatterns, h]

/-- The engine extracts nothing of what the searches found. -/
theorem extracts_nothing (h : lib.search cd o.fibTolerance o.limitTo o.scan = some found)
    {r : DetectionResult} (hr : detectPatterns lib cd o = .ok r) :
    extractCandidates r.rawAssessment closeTimes = .ok [] := by
  obtain rfl := Except.ok.inj ((detectPatterns_of_search h).symm.trans hr)
  rw [result_rawAssessment, extractCandidates_none]

/-- The engine sees the patterns of the adapter only when there are none to see. -/
theorem pipelineAgrees_iff : PipelineAgrees lib cd o closeTimes ↔
    ∀ found, lib.search cd o.fibTolerance o.limitTo o.scan = some found →
      ∀ f ∈ found.assessment.found, f.key? = none := by
  refine forall₂_congr ?_
  intro found hs
  rw [← agrees_nil_iff]
  constructor
  · rintro ⟨r, cs, hr, hc, hagree⟩
    obtain rfl := Except.ok.inj ((extracts_nothing hs hr).symm.trans hc)
    exact hagree
  · intro hagree
    exact ⟨_, [], detectPatterns_of_search hs, extracts_nothing hs (detectPatterns_of_search hs),
      hagree⟩

/-! One formed pattern, which the adapter positions and the engine never sees. -/

def bat : Pattern :=
  { y := some [97, 111, 102, 107, 100], completionMinPrice := some (199 / 2)
    completionMaxPrice := some (201 / 2), name := some "bat", bullish := some true }

/-- A library that finds the pattern in every frame. -/
def batLibrary : PatternLibrary :=
  { search := fun _ _ _ _ => some
      { formed := .single "XABCD" [bat], forming := .empty, divergences := .empty }
    position := fun _ _ => some (some 96, [104]) }

def emptyCandles : CandleData :=
  { df := frameOf [], symbol := "BTCUSDT", interval := "4h" }

theorem bat_not_extracted : ¬ PipelineAgrees batLibrary emptyCandles {} none := by
  intro h
  obtain ⟨r, cs, hr, hc, hagree⟩ := h _ rfl
  obtain rfl := Except.ok.inj ((extracts_nothing rfl hr).symm.trans hc)
  have hnone := agrees_nil_iff.mp hagree ⟨"XABCD", true, bat⟩ (List.mem_singleton_self _)
  exact absurd hnone (by decide +kernel)

end Pyharmonics
