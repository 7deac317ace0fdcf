import Mathlib.Data.List.DropRight
import Pyharmonics.Library.Programs
import Pyharmonics.VibeContext

/-! The agent run of a chat message: its start, its job, the orchestrator's loop, and its calls. -/
namespace Pyharmonics.VibeAgent

open Programs Programs.Program
open VibeChat (Role splitContent chunkSize)

variable {J : Type}

/-- What a call can raise: an `Exception`, or something that `except Exception` lets pass, such as
the end of the worker. -/
inductive Raised
  | exception (message : String)
  | exit
  deriving DecidableEq

/-- A tool call requested by the LLM. -/
structure ToolCall (J : Type) where
  id : String
  name : String
  arguments : J

structure LlmResponse (J : Type) where
  content : Option String := none
  toolCalls : List (ToolCall J) := []
  inputTokens : ℕ := 0
  outputTokens : ℕ := 0
  error : Option String := none

structure ToolOutput (J : Type) where
  status : String
  data : Option J := none
  error : Option String := none
  summary : Option String := none

/-- What the run reads of its session. -/
structure Session where
  title : Option String := none
  defaultMarket : String := "binance"
  defaultSymbol : String := "BTCUSDT"

structure Card (J : Type) where
  type : String
  payload : J

/-- The events of `VibeStream`. -/
inductive StreamEvent (J : Type)
  | runStarted
  | toolCallStart (callId tool : String) (input : J)
  | toolCallEnd (callId tool : String) (output : Option J)
  | delta (content : String)
  | card (card : Card J)
  | done (inputTokens outputTokens : ℕ)
  | error (code message : String) (retryable : Bool)

inductive RunStatus
  | running | completed | completedWithLimit | failed | cancelled
  deriving DecidableEq

/-- A stored run, as far as a run or its cancellation changes it. -/
structure RunRecord where
  status : RunStatus
  userPrompt : String
  inputTokens : ℕ := 0
  outputTokens : ℕ := 0
  toolsCalled : List String := []
  error : Option String := none
  completedAt : Option String := none
  cancelledBy : Option String := none
  deriving DecidableEq

/-- The updates of a run record: at the end of a run, on a cancellation, and when no run starts. -/
inductive RunUpdate
  | finished (status : RunStatus) (userPrompt : String) (inputTokens outputTokens : ℕ)
      (toolsCalled : List String) (error completedAt : Option String)
  | cancelled (cancelledBy completedAt : String)
  | notStarted

/-- `run.update(updates)` -/
def RunRecord.update (run : RunRecord) : RunUpdate → RunRecord
  | .finished status userPrompt inputTokens outputTokens toolsCalled error completedAt =>
      { run with status, userPrompt, inputTokens, outputTokens, toolsCalled, error, completedAt }
  | .cancelled cancelledBy completedAt =>
      { run with
        status := .cancelled
        cancelledBy := some cancelledBy
        completedAt := some completedAt }
  | .notStarted => { run with status := .failed, error := some "无法启动运行" }

def RunUpdate.status : RunUpdate → RunStatus
  | .finished status _ _ _ _ _ _ => status
  | .cancelled _ _ => .cancelled
  | .notStarted => .failed

@[simp] theorem update_status {run : RunRecord} {updates : RunUpdate} :
    (run.update updates).status = updates.status := by
  cases updates with
  | finished => rfl
  | cancelled => rfl
  | notStarted => rfl

/-- The trace of a run. -/
structure Trace (J : Type) where
  systemPrompt : String
  responses : List (Option String × List (String × J)) := []
  toolCalls : List (ToolCall J × ToolOutput J) := []

/-- The calls of a run, of the route that starts it and of the route that cancels it. -/
inductive VibeCall (J : Type)
  | reserveUserQuota | createRun (run : RunRecord) | enqueueOrRunSync
  | registerRun | createLlmProvider | analysisOrchestrator | createDefaultRegistry
  | sessionStore | eventStore | traceStore
  | publish (event : StreamEvent J)
  | getSession | loadPosition
  | createMessage (role : Role) (content : String) (cards : List (Card J))
  | getSchemas | getPromptDescription
  | listMessages (limit : ℕ)
  | isCancelled
  | chat (messages : List (ChatMessage J)) (tools : J)
  | executeTool (name : String) (input : J)
  | consumeLedgerQuota (inputTokens outputTokens : Option ℕ) | releaseLedgerQuota
  | loadRun | saveRun (run : RunRecord) | updateRow (updates : RunUpdate)
  | saveTrace (trace : Trace J) (finalStatus : RunStatus) (finalContent : String)
  | updateSessionTitle (title : String)
  | unregisterRun
  | getRun | fetchJob | cancelJob | sendStopJobCommand | signalCancelRun

/-- The status a call stores. -/
def VibeCall.storedStatus : VibeCall J → Option RunStatus
  | .saveRun run => some run.status
  | .updateRow updates => some updates.status
  | _ => none

/-- What a call returns. -/
@[reducible] def Answer (J : Type) : VibeCall J → Type
  | .reserveUserQuota => Bool × Option String
  | .enqueueOrRunSync | .isCancelled | .fetchJob => Bool
  | .getSession => Option Session
  | .loadPosition => Option String
  | .getSchemas => J
  | .getPromptDescription => String
  | .listMessages _ => List (StoredRow J)
  | .chat _ _ => LlmResponse J
  | .executeTool _ _ => ToolOutput J
  | .consumeLedgerQuota _ _ | .releaseLedgerQuota => Bool
  | .loadRun | .getRun => Option RunRecord
  | _ => Unit

abbrev VibeProgram (J α : Type) := Program (VibeCall J) (Answer J) Raised Raised α

abbrev VibeTrace (J : Type) := List (Event (VibeCall J) (Answer J) Raised)

/-- A call; what it raises is raised. -/
abbrev ask (c : VibeCall J) : VibeProgram J (Answer J c) := perform id c

/-- `except Exception: h` -/
def rescue {α : Type} (p : VibeProgram J α) (h : String → VibeProgram J α) : VibeProgram J α :=
  p.handle fun
    | .exception message => h message
    | .exit => raise .exit

/-- `except Exception`, logged and no more. -/
def ignore (p : VibeProgram J Unit) : VibeProgram J Unit := rescue p fun _ => pure ()

/-- What a computation without calls returns or raises. -/
def lift {α : Type} : Except Raised α → VibeProgram J α
  | .ok a => pure a
  | .error e => raise e

/-- The content of a tool message, read back. -/
structure ToolContent (J : Type) where
  status : Option String
  schemaVersion : String
  signal : Option J
  data : J

/-- The JSON texts and values that the run reads and makes, and the clock. -/
structure Codec (J : Type) where
  dumps : Option J → String
  dumpOutput : ToolOutput J → String
  toolCallsJson : List (ToolCall J) → J
  toolNames : J → Except Raised (List String)
  loads : String → Except Raised (Option (ToolContent J))
  fallbackSignal : J → J
  now : String

/-- The ways `update_run` reaches its record. -/
inductive RunBackend
  | redis | memory | supabase
  deriving DecidableEq

/-- A job: `run_vibe_agent` with its arguments. -/
structure Job (J : Type) where
  userPrompt : String
  ledgerId : Option String
  tokenGiven : Bool
  maxIterations : ℕ := 10
  backend : RunBackend
  codec : Codec J

/-- `if ledger_id` -/
def Job.hasLedger (job : Job J) : Bool := job.ledgerId.any (· ≠ "")

/-- `update_run` of the Redis key or the copy in memory; a save that fails is logged. -/
def updateKept (updates : RunUpdate) : VibeProgram J Unit := do
  let run : Option RunRecord ← ask .loadRun
  match run with
  | some run => ignore (ask (.saveRun (run.update updates)))
  | none => pure ()

/-- `update_run`: a row that cannot be updated leaves the copy in memory. -/
def updateRun (backend : RunBackend) (updates : RunUpdate) : VibeProgram J Unit :=
  if backend = .supabase then rescue (ask (.updateRow updates)) fun _ => updateKept updates
  else updateKept updates

def extractPositionSummary : Option String → String
  | none => "未设置"
  | some total => "总资金 " ++ total ++ " WU，已保存仓位配置"

/-- `_load_position`: the total capital of the config, when there is one. -/
def loadPosition : VibeProgram J (Option String) := rescue (ask .loadPosition) fun _ => pure none

/-- What a run has when its loop starts. -/
structure Prepared (J : Type) where
  session : Option Session
  tools : J
  systemPrompt : String
  messages : List (ChatMessage J)

/-- The calls of `run` before its `try`. -/
def prepare (job : Job J) : VibeProgram J (Prepared J) := do
  ask (.publish .runStarted)
  let session : Option Session ← ask .getSession
  let total ← loadPosition
  ask (.createMessage .user job.userPrompt [])
  let tools : J ← ask .getSchemas
  let toolDescriptions : String ← ask .getPromptDescription
  let rows : List (StoredRow J) ← ask (.listMessages 50)
  let systemPrompt := buildSystemPrompt
    { toolDescriptions
      defaultMarket := (session.getD {}).defaultMarket
      defaultSymbol := (session.getD {}).defaultSymbol
      positionSummary := some (extractPositionSummary total)
      now := job.codec.now }
  pure
    { session, tools, systemPrompt
      messages := .system systemPrompt :: compressMessages (rows.map (format job.codec.dumps)) 6 ++
        [.user job.userPrompt] }

/-- What the loop of a run has come to. -/
structure LoopState (J : Type) where
  messages : List (ChatMessage J)
  trace : Trace J
  inputTokens : ℕ := 0
  outputTokens : ℕ := 0
  finalContent : String := ""

/-- In the loop, what is raised leaves the state it was raised in. -/
abbrev LoopProgram (J α : Type) := Program (VibeCall J) (Answer J) Raised (Raised × LoopState J) α

abbrev during (s : LoopState J) (c : VibeCall J) : LoopProgram J (Answer J c) := perform (·, s) c

def cancelledMessage : String := "运行已被用户取消"

def limitMessage : String := "已达到最大迭代次数，以下是目前可获得的信息。"

/-- `if _is_cancelled(): raise RuntimeError(...)` -/
def checkCancelled (s : LoopState J) : LoopProgram J Unit := do
  let cancelled : Bool ← during s .isCancelled
  if cancelled then raise (.exception cancelledMessage, s) else pure ()

/-- `_execute_tool` -/
def executeTool (s : LoopState J) (tc : ToolCall J) : LoopProgram J (ToolOutput J) := do
  during s (.publish (.toolCallStart tc.id tc.name tc.arguments))
  let output : ToolOutput J ← during s (.executeTool tc.name tc.arguments)
  during s (.publish (.toolCallEnd tc.id tc.name output.data))
  pure output

def LoopState.addResponse (s : LoopState J) (response : LlmResponse J) : LoopState J :=
  { s with
    inputTokens := s.inputTokens + response.inputTokens
    outputTokens := s.outputTokens + response.outputTokens
    trace.responses := s.trace.responses ++
      [(response.content, response.toolCalls.map fun tc => (tc.name, tc.arguments))] }

def LoopState.addCalls (codec : Codec J) (s : LoopState J) (response : LlmResponse J) :
    LoopState J :=
  { s with messages := s.messages ++
      [.assistant (response.content.getD "") (some (codec.toolCallsJson response.toolCalls))] }

def LoopState.addOutput (codec : Codec J) (s : LoopState J) (tc : ToolCall J)
    (output : ToolOutput J) : LoopState J :=
  { s with
    messages := s.messages ++ [.tool (some tc.id) (codec.dumpOutput output)]
    trace.toolCalls := s.trace.toolCalls ++ [(tc, output)] }

/-- `for tc in response.tool_calls` -/
def callTools (codec : Codec J) : LoopState J → List (ToolCall J) → LoopProgram J (LoopState J)
  | s, [] => pure s
  | s, tc :: rest => do
    checkCancelled s
    let output ← executeTool s tc
    callTools codec (s.addOutput codec tc output) rest

/-- `for chunk in self._split_content(final_content)` -/
def streamDeltas (s : LoopState J) : List String → LoopProgram J Unit
  | [] => pure ()
  | chunk :: rest => do
    during s (.publish (.delta chunk))
    streamDeltas s rest

/-- `for iteration in range(MAX_ITERATIONS)`, with what is left of the range. -/
def converse (codec : Codec J) (tools : J) :
    ℕ → LoopState J → LoopProgram J (LoopState J × RunStatus)
  | 0, s => pure ({ s with finalContent := limitMessage }, .completedWithLimit)
  | n + 1, s => do
    checkCancelled s
    let response : LlmResponse J ← during s (.chat s.messages tools)
    let s := s.addResponse response
    match response.error with
    | some error => raise (.exception error, s)
    | none =>
      if response.toolCalls.isEmpty then
        let s := { s with finalContent := response.content.getD "" }
        streamDeltas s (splitContent s.finalContent chunkSize)
        pure (s, .completed)
      else
        let s ← callTools codec (s.addCalls codec response) response.toolCalls
        converse codec tools n s

/-- How the loop ended. -/
structure Outcome (J : Type) where
  state : LoopState J
  status : RunStatus
  error : Option String := none

/-- The handler of the loop. -/
def handler : Raised × LoopState J → VibeProgram J (Outcome J)
  | (.exception message, s) => do
    ask (.publish (.error "RUN_ERROR" message true))
    pure { state := s, status := .failed, error := some message }
  | (.exit, _) => raise .exit

/-- The loop and its handler. -/
def attempt (job : Job J) (prepared : Prepared J) : VibeProgram J (Outcome J) :=
  ((converse job.codec prepared.tools job.maxIterations
    { messages := prepared.messages, trace := { systemPrompt := prepared.systemPrompt } }).bind
      fun r => done { state := r.1, status := r.2 }).handle handler

/-- `status in ("completed", "completed_with_limit")` -/
def RunStatus.isCompleted (status : RunStatus) : Bool :=
  status = .completed ∨ status = .completedWithLimit

/-- `n or None` -/
def orNone (n : ℕ) : Option ℕ := if n = 0 then none else some n

def consume (s : LoopState J) : VibeProgram J Bool :=
  ask (.consumeLedgerQuota (orNone s.inputTokens) (orNone s.outputTokens))

def release : VibeProgram J Bool := do
  let _ : Bool ← ask .releaseLedgerQuota
  pure false

/-- Consume or release quota based on final status; returns `ledger_consumed`. -/
def settle (job : Job J) (out : Outcome J) : VibeProgram J Bool :=
  if job.hasLedger then
    if out.status.isCompleted then consume out.state else release
  else pure false

/-- `sub in text` -/
def Contains (sub text : String) : Prop := sub.toList <:+: text.toList

instance decidableContains (sub text : String) : Decidable (Contains sub text) :=
  inferInstanceAs (Decidable (_ <:+: _))

/-- The card of a tool result. -/
def ToolContent.card (codec : Codec J) (content : ToolContent J) : Option (Card J) :=
  if content.status ≠ some "completed" then none
  else if Contains "analyze_harmonic" content.schemaVersion then
    some ⟨"signal", content.signal.getD (codec.fallbackSignal content.data)⟩
  else if Contains "trade_signal" content.schemaVersion ∧ content.signal.isSome then
    content.signal.map fun signal => ⟨"signal", signal⟩
  else if Contains "position_check" content.schemaVersion then some ⟨"position_check", content.data⟩
  else if Contains "backtest_signal" content.schemaVersion then some ⟨"backtest", content.data⟩
  else none

/-- `_build_cards` -/
def buildCards (codec : Codec J) (messages : List (ChatMessage J)) : Except Raised (List (Card J)) :=
  messages.filterMapM fun
    | .tool _ text => do
      let content ← codec.loads text
      pure (content.bind (·.card codec))
    | _ => pure none

/-- `_build_decision_basis` -/
def buildDecisionBasis (codec : Codec J) (messages : List (ChatMessage J)) :
    Except Raised (List String) := do
  let names ← messages.mapM fun
    | .assistant _ (some toolCalls) => codec.toolNames toolCalls
    | _ => pure []
  pure names.flatten

def publishCards : List (Card J) → VibeProgram J Unit
  | [] => pure ()
  | card :: rest => do
    ask (.publish (.card card))
    publishCards rest

/-- The final assistant message, with its cards. -/
def answer (job : Job J) (out : Outcome J) : VibeProgram J Unit :=
  if out.status = .failed then pure ()
  else do
    let cards ← lift (buildCards job.codec out.state.messages)
    ask (.createMessage .assistant out.state.finalContent cards)
    publishCards cards

/-- The run metadata. -/
def saveMetadata (job : Job J) (out : Outcome J) : VibeProgram J Unit := do
  let toolsCalled ← lift (buildDecisionBasis job.codec out.state.messages)
  updateRun job.backend (.finished out.status job.userPrompt out.state.inputTokens
    out.state.outputTokens toolsCalled out.error
    (if out.status.isCompleted then some job.codec.now else none))

/-- The second attempt to consume, when the first has not. -/
def consumeAgain (job : Job J) (out : Outcome J) (ledgerConsumed : Bool) : VibeProgram J Bool :=
  if job.hasLedger ∧ !ledgerConsumed ∧ out.status.isCompleted then consume out.state
  else pure ledgerConsumed

/-- `str.isspace` of one character. -/
def isSpace (c : Char) : Bool :=
  let n := c.toNat
  (9 ≤ n ∧ n ≤ 13) ∨ (28 ≤ n ∧ n ≤ 32) ∨ n = 0x85 ∨ n = 0xa0 ∨ n = 0x1680 ∨
    (0x2000 ≤ n ∧ n ≤ 0x200a) ∨ n = 0x2028 ∨ n = 0x2029 ∨ n = 0x202f ∨ n = 0x205f ∨ n = 0x3000

/-- `_generate_title` -/
def generateTitle (userPrompt : String) : String :=
  let stripped := (userPrompt.toList.dropWhile isSpace).rdropWhile isSpace
  let title := String.ofList ((stripped.map fun c => if c = '\n' then ' ' else c).take 30)
  if 30 < userPrompt.length then title ++ "..." else title

/-- `if session and not session.get("title")` -/
def nameSession (job : Job J) (prepared : Prepared J) : VibeProgram J Unit :=
  if prepared.session.any (fun session => (session.title.getD "") = "") ∧
      generateTitle job.userPrompt ≠ "" then
    ask (.updateSessionTitle (generateTitle job.userPrompt))
  else pure ()

/-- What a run does when its quota is settled. -/
def finish (job : Job J) (prepared : Prepared J) (out : Outcome J) (ledgerConsumed : Bool) :
    VibeProgram J Unit := do
  answer job out
  saveMetadata job out
  ask (.saveTrace out.state.trace out.status out.state.finalContent)
  if out.status = .failed then pure ()
  else
    let _ ← consumeAgain job out ledgerConsumed
    ask (.publish (.done out.state.inputTokens out.state.outputTokens))
    nameSession job prepared

/-- `VibeOrchestrator.run` -/
def run (job : Job J) : VibeProgram J Unit := do
  let prepared ← prepare job
  let out ← attempt job prepared
  let ledgerConsumed ← settle job out
  finish job prepared out ledgerConsumed

/-- The cancellation token, when the caller has not provided one. -/
def register (job : Job J) : VibeProgram J Unit :=
  if job.tokenGiven then pure () else ask .registerRun

/-- The calls of `run_vibe_agent` before its `try`. -/
def buildDependencies (job : Job J) : VibeProgram J Unit := do
  register job
  ask .createLlmProvider
  ask .analysisOrchestrator
  ask .createDefaultRegistry
  ask .sessionStore
  ask .eventStore
  ask .traceStore

/-- RQ job entry point: execute a vibe agent run. -/
def runVibeAgent (job : Job J) : VibeProgram J Unit := do
  buildDependencies job
  (run job).always (ask .unregisterRun)

/-- A `POST` of a message, after its checks. -/
structure SendMessage where
  content : String
  localDevMode : Bool
  backend : RunBackend

/-- What becomes of it. -/
inductive Sent
  | notFound | quotaExceeded | internalError
  | running (ledgerId : Option String)
  deriving DecidableEq

/-- The release of a run that did not start. -/
def releaseUnstarted (ledgerId : Option String) : VibeProgram J Bool :=
  if ledgerId.any (· ≠ "") then ask .releaseLedgerQuota else pure false

/-- A run that cannot be handed over is marked and released. -/
def giveUp (req : SendMessage) (ledgerId : Option String) : VibeProgram J Sent := do
  updateRun req.backend .notStarted
  let _ ← releaseUnstarted ledgerId
  pure .internalError

/-- The run is recorded and handed over. -/
def launch (req : SendMessage) (ledgerId : Option String) : VibeProgram J Sent := do
  ask (.createRun { status := .running, userPrompt := req.content })
  let enqueued : Bool ← ask .enqueueOrRunSync
  if enqueued then pure (.running ledgerId) else giveUp req ledgerId

/-- Send a message and start an agent run. -/
def sendMessage (req : SendMessage) : VibeProgram J Sent := do
  let session : Option Session ← ask .getSession
  if session.isNone then pure .notFound
  else if req.localDevMode then launch req none
  else
    let reservation : Bool × Option String ← ask .reserveUserQuota
    if reservation.1 then launch req reservation.2 else pure .quotaExceeded

/-- The cancellation of a queued job. -/
def stopJob (found : Bool) : VibeProgram J Unit :=
  if found then do
    ask .cancelJob
    ignore (ask .sendStopJobCommand)
  else pure ()

/-- The signals of a cancellation, and its mark in the record. -/
def cancelSteps (backend : RunBackend) (userId now : String) : VibeProgram J Unit := do
  let found : Bool ← ask .fetchJob
  stopJob found
  ask .signalCancelRun
  updateRun backend (.cancelled userId now)

/-- Cancel a running vibe job. -/
def cancelRun (backend : RunBackend) (userId now : String) : VibeProgram J Unit := do
  let run : Option RunRecord ← ask .getRun
  if run.isSome then ignore (cancelSteps backend userId now) else pure ()

end Pyharmonics.VibeAgent
