import Pyharmonics.DisciplineFilters
import Pyharmonics.Grading
import Pyharmonics.Library.Calls
import Pyharmonics.MacroBias
import Pyharmonics.TechnicalResult

/-! The analysis of one request: cache, market data, detection, signal, interpretation. -/
namespace Pyharmonics.Analysis

open Calls Discipline Macro

inductive Market
  | binance | futures | yahoo
  deriving DecidableEq

def Market.value : Market → String
  | .binance => "binance"
  | .futures => "futures"
  | .yahoo => "yahoo"

inductive Interval
  | m1 | m5 | m15 | h1 | h4 | d1 | w1
  deriving DecidableEq

def Interval.value : Interval → String
  | .m1 => "1m"
  | .m5 => "5m"
  | .m15 => "15m"
  | .h1 => "1h"
  | .h4 => "4h"
  | .d1 => "1d"
  | .w1 => "1w"

def analysisTypeValue : AnalysisType → String
  | .auto => "auto"
  | .forming => "forming"
  | .formed => "formed"
  | .divergence => "divergence"

/-- A request that has passed its schema. -/
structure AnalyzeRequest where
  market : Market := .futures
  symbol : String
  interval : Interval
  analysisType : AnalysisType := .forming
  limitTo : ℕ := 10
  percentComplete : ℚ := 4 / 5
  candles : ℕ := 1000
  symbol_length : symbol.length ≤ 20
  limitTo_mem : 1 ≤ limitTo ∧ limitTo ≤ 100
  percentComplete_mem : 1 / 10 ≤ percentComplete ∧ percentComplete ≤ 1
  candles_mem : 100 ≤ candles ∧ candles ≤ 5000
  candles_cover : 2 * limitTo ≤ candles

/-- Who asks, and the key that makes a request idempotent. -/
structure Caller where
  userId : Option String := none
  idempotencyKey : Option String := none

inductive RunStatus
  | completed | noResult
  deriving DecidableEq

structure Interpretation where
  sentiment : Option String := none
  summary : Option String := none
  rawResponse : Option String := none

/-- `AnalysisData`, without identifiers, timings and the echo of the request. No row of
`forming_candidates` is ever built, so the list is left out with them. -/
structure AnalysisData where
  status : RunStatus
  symbol : String
  technicalResult : TechnicalResult
  interpretation : Interpretation

/-- The services behind the orchestrator; `none` is an exception other than an `AppError`. -/
structure Services where
  /-- `cache.get`: the payload of a key, `none` inside where it is no valid `AnalysisData`. -/
  cacheGet : String → Option (Option AnalysisData)
  fetchMarketData : Market → String → Interval → ℕ → Except PyError CandleData
  detectPatterns : CandleData → DetectOptions → Except PyError DetectionResult
  queryOpenai : String → String → Option String
  technicalJson : TechnicalResult → Option String
  dataJson : AnalysisData → Option String
  /-- `prompt_context.get("technical_analysis", "")` -/
  prompt : String

variable {N : Numerics} {w : Process} {sv : Services} {req : AnalyzeRequest} {caller : Caller}
  {cd : CandleData} {r : DetectionResult} {cs view : List Candidate} {c : Candidate}

/-- `except AppError: raise`, any other exception becomes an `AppError` of its own. -/
def asAppError {α : Type} (code : ErrorCode) (message : String) :
    Except PyError α → Except PyError α
  | .ok a => .ok a
  | .error (.appError code message retryable) => .error (.appError code message retryable)
  | .error _ => .error (.appError code message true)

/-- A dirty entry has an entry price and no stop. -/
def AnalysisData.dirty (data : AnalysisData) : Bool :=
  data.technicalResult.entryPrice.isSome && data.technicalResult.stopLoss.isNone

/-- The cached answer of an idempotent request; an unreadable one raises. -/
def restoreCached (sv : Services) (caller : Caller) : Except PyError (Option AnalysisData) :=
  match caller.userId, caller.idempotencyKey with
  | some user, some key =>
    if user = "" ∨ key = "" then .ok none
    else
      match sv.cacheGet ("v2:" ++ user ++ ":" ++ key) with
      | none => .ok none
      | some none => .error (.other "ValidationError")
      | some (some data) => .ok (if data.dirty then none else some data)
  | _, _ => .ok none

/-- The last close, when there is one and it is positive. -/
def currentPrice (cd : CandleData) : Option ℚ :=
  (cd.df.rows.getLast?.map Row.close).filter (0 < ·)

/-! The calls of the signal step, bound as Python binds them. -/

/-- What the signal step passes to the functions it calls. -/
inductive Argument
  | candles (cd : CandleData)
  | frame (df : Frame)
  | candidate (c : Candidate)
  | candidates (cs : List Candidate)
  | number (x : ℚ)
  | integer (i : ℤ)
  | series (xs : List ℚ)
  | text (s : String)

def evaluateSignature : Signature :=
  ⟨"evaluate", ["df", "candidate", "current_price"], ["max_ttl", "c_idx"], by decide⟩

def computeSignature : Signature := ⟨"compute", ["daily_close", "signal_dir"], [], by decide⟩

def buildSignature : Signature :=
  ⟨"build_signal", ["df", "interval", "candidates"],
    ["divergences", "stability_detector", "stop_level", "stop_buffer_atr"], by decide⟩

/-- A call that binds runs the function; one that does not raises `TypeError`. -/
def call {α : Type} (s : Signature) (positional : List Argument)
    (keywords : List (String × Argument))
    (run : List (Option Argument) → Except PyError α) : Except PyError α :=
  match s.bind positional keywords with
  | .error _ => .error (.typeError (s.name ++ "() was called with other arguments than it takes"))
  | .ok slots => run slots

/-- Arguments of a type the function cannot use. -/
def unusable {α : Type} : Except PyError α := .error (.attributeError "unusable argument")

/-- `discipline_evaluate(c)` -/
def callEvaluate (N : Numerics) (w : Process) (c : Candidate) : Except PyError DisciplineResult :=
  call evaluateSignature [.candidate c] [] fun
    | [some (.frame df), some (.candidate c), some (.number price), none, none] =>
      Discipline.evaluate N w df c price none none
    | _ => unusable

/-- `macro_compute(candle_data, c)` -/
def callCompute (N : Numerics) (w : Process) (cd : CandleData) (c : Candidate) :
    Except PyError MacroOverlay :=
  call computeSignature [.candles cd, .candidate c] [] fun
    | [some (.series closes), some (.integer dir)] => Macro.compute N w (some closes) dir
    | [_, some (.candidate _)] => .error (.violation "signal_dir must be -1, 0, or +1")
    | _ => unusable

/-- `build_signal(top, market=…, interval=…, symbol=…, htf_trend=…)` -/
def callBuildSignal (N : Numerics) (w : Process) (req : AnalyzeRequest) (trend : Option String)
    (top : Candidate) : Except PyError (Option Signal) :=
  call buildSignature [.candidate top]
    [("market", .text req.market.value), ("interval", .text req.interval.value),
      ("symbol", .text req.symbol), ("htf_trend", .text (trend.getD ""))] fun
    | some (.frame df) :: some (.text interval) :: some (.candidates cs) :: _ =>
      buildSignal N w { df := some df, interval := interval, candidates := cs }
    | _ => unusable

/-- The fields and properties of a `Candidate`. -/
def candidateAttributes : List String :=
  ["family", "name", "bullish", "formed", "points", "completion_min", "completion_max", "times",
    "indices", "direction", "x_price", "a_price", "prz_low", "prz_high"]

/-- Reading an attribute a candidate may lack. -/
def readAttribute (name : String) : Except PyError Unit :=
  if name ∈ candidateAttributes then .ok ()
  else .error (.attributeError ("'Candidate' object has no attribute '" ++ name ++ "'"))

abbrev Scored := Candidate × DisciplineResult × MacroOverlay

/-- The loop over the view: what it appended, and the exception that ended it. -/
def scoreView (N : Numerics) (w : Process) (cd : CandleData) :
    List Candidate → List Scored → List Scored × Option PyError
  | [], scored => (scored, none)
  | c :: cs, scored =>
    match callEvaluate N w c with
    | .error e => (scored, some e)
    | .ok disc =>
      match callCompute N w cd c with
      | .error e => (scored, some e)
      | .ok overlay => scoreView N w cd cs (scored ++ [(c, disc, overlay)])

/-- `scored.sort(key=…)`: the key reads `metrics` of each candidate. -/
def sortScored (scored : List Scored) : Except PyError (List Scored) := do
  scored.forM fun _ => readAttribute "metrics"
  return scored

/-- The local variables of step 4, which keep their values when its handler swallows an
exception. -/
structure SignalStep where
  formingView : List Candidate := []
  scored : List Scored := []
  signal : Option Signal := none

/-- Step 4 of a forming analysis. -/
def evaluateSignal (N : Numerics) (w : Process) (req : AnalyzeRequest) (cd : CandleData)
    (r : DetectionResult) : SignalStep :=
  match extractCandidates r.rawAssessment none with
  | .error _ => {}
  | .ok candidates =>
    let view := candidates.take req.limitTo
    match scoreView N w cd view [] with
    | (scored, some _) => { formingView := view, scored := scored }
    | (scored, none) =>
      match sortScored scored with
      | .error _ => { formingView := view, scored := scored }
      | .ok [] => { formingView := view }
      | .ok ((top, disc, overlay) :: rest) =>
        let scored := (top, disc, overlay) :: rest
        match callBuildSignal N w req r.htfTrend top with
        | .error _ => { formingView := view, scored := scored }
        | .ok signal => { formingView := view, scored := scored, signal := signal }

/-- `resolve_analysis_type` -/
def resolveAnalysisType (signal : Option Signal) : Option String :=
  signal.map fun s => if s.formed then "formed" else "forming"

/-- `_extract_sentiment` -/
def extractSentiment (text : String) : Option String :=
  let has (word : String) : Bool := 1 < (text.toLower.splitOn word).length
  if text = "" then none
  else if has "bull" || has "多" then some "bullish"
  else if has "bear" || has "空" then some "bearish"
  else if has "neutral" || has "中性" then some "neutral"
  else none

/-- `_generate_interpretation`: any failure is a model error. -/
def generateInterpretation (sv : Services) (json : String) : Except PyError Interpretation :=
  let failed := PyError.appError .modelError "模型解读生成失败，技术结果仍可查看。" true
  match sv.queryOpenai json sv.prompt with
  | none => .error failed
  | some raw =>
    if 8192 < raw.length then .error failed
    else .ok {
      sentiment := extractSentiment raw
      summary := if raw = "" then none else some (String.ofList (raw.toList.take 500))
      rawResponse := some raw }

/-- Step 5: a model error leaves the technical results. -/
def interpret (sv : Services) (technical : TechnicalResult) : Except PyError Interpretation :=
  match sv.technicalJson technical with
  | none => .error (.other "PydanticSerializationError")
  | some json =>
    if sv.prompt = "" then .ok {}
    else
      match generateInterpretation sv json with
      | .ok interpretation => .ok interpretation
      | .error (.appError .modelError _ _) =>
        .ok { summary := some "模型解读暂时不可用，请参考技术结果。" }
      | .error e => .error e

/-- The constructor of `AnalysisData`. -/
def AnalysisData.construct (status : RunStatus) (symbol : String) (technical : TechnicalResult)
    (interpretation : Interpretation) : Except PyError AnalysisData := do
  validate [("symbol", lengthIn 1 20 symbol)]
  return ⟨status, symbol, technical, interpretation⟩

/-- Steps 4 and 5 for a detection that found something. -/
def complete (N : Numerics) (w : Process) (sv : Services) (req : AnalyzeRequest)
    (symbol : String) (cd : CandleData) (r : DetectionResult) : Except PyError AnalysisData := do
  let step := if req.analysisType = .forming then evaluateSignal N w req cd r else {}
  -- the fallback dict of the top candidate starts with `top.targets`
  step.scored.head?.toList.forM fun _ => readAttribute "targets"
  let technical ← technicalResultToSchema N w r step.signal
  let technical := { technical with
    resolvedType := resolveAnalysisType step.signal
    currentPrice := currentPrice cd }
  let interpretation ← interpret sv technical
  (step.formingView.take 10).forM fun _ => readAttribute "to_dict"
  let data ← AnalysisData.construct .completed symbol technical interpretation
  match sv.dataJson data with
  | none => .error (.other "PydanticSerializationError")
  | some _ => return data

/-- `AnalysisOrchestrator.analyze` -/
def analyze (N : Numerics) (w : Process) (sv : Services) (req : AnalyzeRequest) (caller : Caller) :
    Except PyError AnalysisData := do
  let symbol := req.symbol.toUpper
  match ← restoreCached sv caller with
  | some data => return data
  | none =>
    let cd ← asAppError .marketDataUnavailable
      ("暂时无法获取 " ++ symbol ++ " 的行情数据，请稍后重试。")
      (sv.fetchMarketData req.market symbol req.interval req.candles)
    let r ← asAppError .detectionError (symbol ++ " 形态检测失败，请稍后重试。")
      (sv.detectPatterns cd { limitTo := req.limitTo, percentComplete := req.percentComplete
                              analysisType := req.analysisType })
    if r.position.isNone ∧ r.patterns.isNone then
      AnalysisData.construct .noResult symbol { currentPrice := currentPrice cd }
        { summary := some "未检测到明显的谐波形态。" }
    else complete N w sv req symbol cd r

end Pyharmonics.Analysis
