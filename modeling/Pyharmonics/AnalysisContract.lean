import Pyharmonics.Analysis

/-! What an analysis with candidates comes to. -/
namespace Pyharmonics.Analysis

open Calls

variable {N : Numerics} {w : Process} {sv : Services} {req : AnalyzeRequest} {caller : Caller}
  {cd : CandleData} {r : DetectionResult} {cs : List Candidate} {c : Candidate} {symbol : String}

/-- The technical result carries the levels of the signal. -/
structure Carries (t : TechnicalResult) (S : Signal) : Prop where
  direction : t.direction = some (if S.direction = .long then "bullish" else "bearish")
  entry : t.entryPrice = some S.entryReference
  stop : t.stopLoss = some S.stopLoss
  target : t.targetPrice = S.targets.head?.map SignalTarget.price
  family : t.patternFamily = some S.family

/-- A completed analysis carries the signal the engine builds from the extracted candidates; a
failed one raises an `AppError`. -/
def MeetsContract (N : Numerics) (w : Process) (cd : CandleData) (interval : Interval)
    (cs : List Candidate) : Except PyError AnalysisData → Prop
  | .ok data => data.status = .completed ∧ ∀ S,
      buildSignal N w { df := some cd.df, interval := interval.value, candidates := cs } =
        .ok (some S) → Carries data.technicalResult S
  | .error e => e.IsApp

/-- One positional argument never binds to the three required parameters. -/
theorem callEvaluate_error : ∃ e, callEvaluate N w c = .error e := by
  unfold callEvaluate call
  split
  · exact ⟨_, rfl⟩
  · next slots h =>
    have hlt := Signature.bind_positional h "current_price" (by decide)
    have hidx : evaluateSignature.params.idxOf "current_price" = 2 := by decide
    simp [hidx] at hlt

theorem scoreView_cons : ∃ e, scoreView N w cd (c :: cs) [] = ([], some e) := by
  have hcall : ∃ e, callEvaluate N w c = .error e := callEvaluate_error
  obtain ⟨e, he⟩ := hcall
  exact ⟨e, by rw [scoreView, he]⟩

theorem take_limitTo (c : Candidate) (rest : List Candidate) :
    (c :: rest).take req.limitTo = c :: rest.take (req.limitTo - 1) := by
  obtain ⟨k, hk⟩ := Nat.exists_eq_add_of_le' req.limitTo_mem.1
  rw [hk]
  rfl

/-- The step scores nothing and keeps the view. -/
theorem evaluateSignal_cons {rest : List Candidate}
    (hcs : extractCandidates r.rawAssessment none = .ok (c :: rest)) :
    evaluateSignal N w req cd r = { formingView := c :: rest.take (req.limitTo - 1) } := by
  have hscore : ∃ e, scoreView N w cd (c :: rest.take (req.limitTo - 1)) [] = ([], some e) :=
    scoreView_cons
  obtain ⟨e, he⟩ := hscore
  simp only [evaluateSignal, hcs, take_limitTo, he]

theorem generateInterpretation_error {json : String} {e : PyError}
    (h : generateInterpretation sv json = .error e) :
    e = .appError .modelError "模型解读生成失败，技术结果仍可查看。" true := by
  unfold generateInterpretation at h
  split at h
  · exact (Except.error.inj h).symm
  · split_ifs at h
    exact (Except.error.inj h).symm

/-- The only `AppError` of the interpretation is caught. -/
theorem internal_interpret {t : TechnicalResult} : Internal (interpret sv t) := by
  unfold interpret
  split
  · intro e he
    obtain rfl := Except.error.inj he
    exact id
  · next json hjson =>
    split_ifs
    · exact internal_ok
    · match hg : generateInterpretation sv json with
      | .ok i => exact internal_ok
      | .error e =>
        obtain rfl := generateInterpretation_error hg
        exact internal_ok

/-- The call raises something that is no `AppError`. -/
def Fails {α : Type} (x : Except PyError α) : Prop := ∃ e, x = .error e ∧ ¬ e.IsApp

theorem fails_bind {α β : Type} {x : Except PyError α} {k : α → Except PyError β}
    (hx : Internal x) (hk : ∀ a, Fails (k a)) : Fails (x >>= k) := by
  cases x with
  | error e => exact ⟨e, rfl, hx e rfl⟩
  | ok a => exact hk a

/-- A forming analysis with candidates fails at the latest when it lists them. -/
theorem complete_fails (hf : req.analysisType = .forming) {rest : List Candidate}
    (hcs : extractCandidates r.rawAssessment none = .ok (c :: rest)) :
    Fails (complete N w sv req symbol cd r) := by
  unfold complete
  rw [if_pos hf, evaluateSignal_cons hcs]
  refine fails_bind (x := .ok ()) internal_ok ?_
  intro _
  refine fails_bind internal_technicalResultToSchema ?_
  intro t
  refine fails_bind internal_interpret ?_
  intro i
  exact ⟨_, rfl, id⟩

/-- The services answer a request up to the detection, and the cache does not. -/
structure Reaches (sv : Services) (req : AnalyzeRequest) (caller : Caller) (cd : CandleData)
    (r : DetectionResult) : Prop where
  cache : restoreCached sv caller = .ok none
  fetch : sv.fetchMarketData req.market req.symbol.toUpper req.interval req.candles = .ok cd
  detect : sv.detectPatterns cd { limitTo := req.limitTo, percentComplete := req.percentComplete
                                  analysisType := req.analysisType } = .ok r

theorem analyze_reached (h : Reaches sv req caller cd r) : analyze N w sv req caller =
    if r.position.isNone ∧ r.patterns.isNone then
      AnalysisData.construct .noResult req.symbol.toUpper { currentPrice := currentPrice cd }
        { summary := some "未检测到明显的谐波形态。" }
    else complete N w sv req req.symbol.toUpper cd r := by
  unfold analyze
  rw [h.cache]
  simp only [ok_bind, h.fetch, asAppError, h.detect]

theorem construct_status {status : RunStatus} {t : TechnicalResult} {i : Interpretation}
    {data : AnalysisData} (h : AnalysisData.construct status symbol t i = .ok data) :
    data.status = status := by
  obtain ⟨_, -, h⟩ := bind_ok.mp h
  obtain rfl := Except.ok.inj h
  rfl

/-- No forming analysis of a detection with candidates completes with the engine's signal. -/
theorem analyze_never_meets (h : Reaches sv req caller cd r) (hf : req.analysisType = .forming)
    (hcs : extractCandidates r.rawAssessment none = .ok cs) (hne : cs ≠ []) :
    ¬ MeetsContract N w cd req.interval cs (analyze N w sv req caller) := by
  obtain ⟨c, rest, rfl⟩ := List.exists_cons_of_ne_nil hne
  rw [analyze_reached h]
  split_ifs
  · match hd : AnalysisData.construct .noResult req.symbol.toUpper
        { currentPrice := currentPrice cd } { summary := some "未检测到明显的谐波形态。" } with
    | .ok data =>
      rintro ⟨hstatus, -⟩
      rw [construct_status hd] at hstatus
      simp at hstatus
    | .error e =>
      exact internal_bind internal_validate (fun _ => internal_ok) e hd
  · have hfail : Fails (complete N w sv req req.symbol.toUpper cd r) := complete_fails hf hcs
    obtain ⟨e, he, hi⟩ := hfail
    rw [he]
    exact hi

/-! A request whose detection carries one formed pattern. -/

def batResult : DetectionResult :=
  let position : PatternPosition :=
    { symbol := "BTCUSDT", interval := "4h", forming := false, family := "XABCD", strike := 100
      stop := some 96, targets := [104], direction := "bullish", htfTrend := none }
  { position := some position
    patterns := some {
      symbol := "BTCUSDT", family := "XABCD", direction := "bullish", entry := 100
      stop := some 96, targets := [104], forming := false }
    rawAssessment := some { patterns := some (.single "XABCD" (some [bat])) } }

def batRequest : AnalyzeRequest where
  symbol := "BTCUSDT"
  interval := .h4
  symbol_length := by decide
  limitTo_mem := by decide
  percentComplete_mem := by norm_num
  candles_mem := by decide
  candles_cover := by decide

/-- Services that answer every request and hold nothing in their cache. -/
def batServices : Services where
  cacheGet _ := none
  fetchMarketData _ _ _ _ := .ok ⟨alternatingFrame, "BTCUSDT", "4h"⟩
  detectPatterns _ _ := .ok batResult
  queryOpenai _ _ := none
  technicalJson _ := some "{}"
  dataJson _ := some "{}"
  prompt := ""

def batCandidate : Candidate :=
  { family := "XABCD", name := "bat", bullish := true, formed := true
    points := [97, 111, 102, 107, 100], completionMin := 199 / 2, completionMax := 201 / 2 }

theorem bat_extracted : extractCandidates batResult.rawAssessment none = .ok [batCandidate] := by
  decide +kernel

theorem bat_reached : Reaches batServices batRequest {} ⟨alternatingFrame, "BTCUSDT", "4h"⟩
    batResult := ⟨rfl, rfl, rfl⟩

/-- The analysis raises instead of completing. -/
theorem bat_analysis_fails : ¬ MeetsContract plainNumerics defaultProcess
    ⟨alternatingFrame, "BTCUSDT", "4h"⟩ batRequest.interval [batCandidate]
    (analyze plainNumerics defaultProcess batServices batRequest {}) := by
  have hfail : Fails (complete plainNumerics defaultProcess batServices batRequest
      batRequest.symbol.toUpper ⟨alternatingFrame, "BTCUSDT", "4h"⟩ batResult) :=
    complete_fails rfl bat_extracted
  obtain ⟨e, he, hi⟩ := hfail
  rw [analyze_reached bat_reached, if_neg (by simp [batResult]), he]
  exact hi

theorem bat_analysis_never_meets : ¬ MeetsContract plainNumerics defaultProcess
    ⟨alternatingFrame, "BTCUSDT", "4h"⟩ .h4 [batCandidate]
    (analyze plainNumerics defaultProcess batServices batRequest {}) :=
  analyze_never_meets bat_reached rfl bat_extracted (by simp)

end Pyharmonics.Analysis
