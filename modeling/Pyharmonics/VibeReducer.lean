import Pyharmonics.Library.Chunks

/-! The chat state of the client: run events folded into messages. -/
namespace Pyharmonics.VibeChat

variable {J : Type*}

inductive Role
  | user | assistant | tool | system
  deriving DecidableEq

structure FunctionCall where
  name : String
  arguments : String
  deriving DecidableEq

structure ToolCall where
  id : String
  function : FunctionCall
  deriving DecidableEq

/-- A message of the transcript; `J` are the JSON objects. -/
structure VibeMessage (J : Type*) where
  id : String
  sessionId : String
  runId : Option String := none
  role : Role
  content : Option String := none
  toolCalls : Option (List ToolCall) := none
  toolCallId : Option String := none
  toolName : Option String := none
  toolInput : Option J := none
  toolOutputSummary : Option J := none
  eventId : Option String := none
  createdAt : String
  deriving DecidableEq

/-- The type of an event; `other` is a type the client does not know. -/
inductive EventType
  | runStarted | toolCallStart | toolCallEnd | delta | card | done | error
  | other (type : String)
  deriving DecidableEq

/-- A polled event; a field that is missing, or not of its type, is `none`. -/
structure VibeEvent (J : Type*) where
  eventId : String
  runId : String
  type : EventType
  content : Option String := none
  callId : Option String := none
  tool : Option String := none
  input : Option J := none
  output : Option J := none
  code : Option String := none
  message : Option String := none
  retryable : Option Bool := none

structure ApiError where
  code : String
  message : String
  retryable : Bool
  status : Option ℤ := none
  deriving DecidableEq

structure VibeChatState (J : Type*) where
  messages : List (VibeMessage J)
  loading : Bool
  error : Option ApiError
  currentRunId : Option String
  deriving DecidableEq

def initialState : VibeChatState J := ⟨[], false, none, none⟩

inductive VibeChatAction (J : Type*)
  | reset
  | addMessage (message : VibeMessage J)
  | setError (error : ApiError)
  | startRun (runId : String)
  | appendEvent (event : VibeEvent J)

def VibeChatState.append (state : VibeChatState J) (message : VibeMessage J) : VibeChatState J :=
  { state with messages := state.messages ++ [message] }

/-- `tool_calls` of a starting call; an empty id counts as none. -/
def startedCalls (stringify : J → String) (event : VibeEvent J) : Option (List ToolCall) :=
  match event.callId with
  | none | some "" => none
  | some id =>
    some [⟨id, ⟨event.tool.getD "", (event.input.map stringify).getD "\x7b\x7d"⟩⟩]

def toolCallStart (stringify : J → String) (now : String) (state : VibeChatState J)
    (event : VibeEvent J) : VibeChatState J :=
  state.append
    { id := "tool-" ++ event.eventId
      sessionId := ""
      runId := event.runId
      role := .tool
      toolCalls := startedCalls stringify event
      toolName := event.tool
      toolInput := event.input
      eventId := event.eventId
      createdAt := now }

/-- One of the message's calls has the id the event names. -/
def VibeMessage.started (m : VibeMessage J) (callId : Option String) : Bool :=
  (m.toolCalls.getD []).any fun tc => some tc.id = callId

def toolCallEnd (now : String) (state : VibeChatState J) (event : VibeEvent J) : VibeChatState J :=
  match state.messages.findIdx? fun m => m.started event.callId with
  | none =>
    state.append
      { id := "tool-" ++ event.eventId
        sessionId := ""
        runId := event.runId
        role := .tool
        toolCallId := event.callId
        toolName := event.tool
        toolOutputSummary := event.output
        eventId := event.eventId
        createdAt := now }
  | some idx =>
    { state with
      messages := state.messages.modify idx fun m =>
        { m with toolOutputSummary := event.output, eventId := event.eventId } }

/-- An assistant message that carries no tool calls. -/
def VibeMessage.plainAssistant (m : VibeMessage J) : Bool :=
  m.role = .assistant && m.toolCalls.isNone

/-- Extends the last message when it is a plain assistant one, else starts a new one. -/
def delta (now : String) (state : VibeChatState J) (event : VibeEvent J) : VibeChatState J :=
  match state.messages.getLast? with
  | some last =>
    if last.plainAssistant then
      { state with
        messages := state.messages.dropLast ++
          [{ last with content := some (last.content.getD "" ++ event.content.getD "") }] }
    else started
  | none => started
where
  started : VibeChatState J :=
    state.append
      { id := "assistant-" ++ event.eventId
        sessionId := ""
        runId := event.runId
        role := .assistant
        content := some (event.content.getD "")
        eventId := event.eventId
        createdAt := now }

def card (now : String) (state : VibeChatState J) (event : VibeEvent J) : VibeChatState J :=
  state.append
    { id := "card-" ++ event.eventId
      sessionId := ""
      runId := event.runId
      role := .assistant
      content := event.content
      eventId := event.eventId
      createdAt := now }

def appendEvent (stringify : J → String) (now : String) (state : VibeChatState J)
    (event : VibeEvent J) : VibeChatState J :=
  match event.type with
  | .runStarted => { state with currentRunId := event.runId, loading := true, error := none }
  | .toolCallStart => toolCallStart stringify now state event
  | .toolCallEnd => toolCallEnd now state event
  | .delta => delta now state event
  | .card => card now state event
  | .done => { state with loading := false, currentRunId := none }
  | .error =>
    { state with
      loading := false
      currentRunId := none
      error := some
        { code := event.code.getD "VIBE_ERROR"
          message := event.message.getD "vibe run failed"
          retryable := event.retryable.getD true } }
  | .other _ => state

/-- `vibeChatReducer`; `now` is the clock's reading, `stringify` is `JSON.stringify`. -/
def vibeChatReducer (stringify : J → String) (now : String) (state : VibeChatState J) :
    VibeChatAction J → VibeChatState J
  | .reset => initialState
  | .addMessage message => state.append message
  | .setError error => { state with error := some error, loading := false }
  | .startRun runId => { state with currentRunId := some runId, loading := true, error := none }
  | .appendEvent event => appendEvent stringify now state event

/-- The size of the chunks a final answer is streamed in. -/
def chunkSize : ℕ := 6

/-- `_split_content` -/
def splitContent (text : String) (size : ℕ) : List String :=
  (Chunks.chunks size text.toList).map String.ofList

/-- The polled events dispatched in order, each at its own time. -/
def receive (stringify : J → String) (state : VibeChatState J)
    (deliveries : List (VibeEvent J × String)) : VibeChatState J :=
  deliveries.foldl (fun s d => vibeChatReducer stringify d.2 s (.appendEvent d.1)) state

variable {stringify : J → String} {now : String} {state : VibeChatState J} {event : VibeEvent J}
  {deliveries : List (VibeEvent J × String)} {m : VibeMessage J} {text : String}

theorem join_splitContent (text : String) {size : ℕ} (h : 0 < size) : String.join (splitContent text size) = text := by
  apply String.toList_inj.mp
  rw [String.toList_join, splitContent, List.flatMap_map]
  simp only [String.toList_ofList, List.flatMap_id']
  exact Chunks.flatten_chunks h

theorem splitContent_ne_nil {size : ℕ} (h : 0 < size) (ht : text ≠ "") : splitContent text size ≠ [] := by
  intro hnil
  apply ht
  rw [← join_splitContent text h, hnil]
  rfl

/-- No plain assistant message stands last. -/
def Ready (state : VibeChatState J) : Prop :=
  ∀ m, state.messages.getLast? = some m → m.plainAssistant = false

theorem delta_starts (now : String) (event : VibeEvent J) (h : Ready state) : ∃ m : VibeMessage J, m.plainAssistant ∧
    m.content = some (event.content.getD "") ∧ delta now state event = state.append m := by
  refine ⟨
    { id := "assistant-" ++ event.eventId
      sessionId := ""
      runId := event.runId
      role := .assistant
      content := some (event.content.getD "")
      eventId := event.eventId
      createdAt := now }, rfl, rfl, ?_⟩
  rw [delta]
  split
  · next last hlast => rw [if_neg (by simp [h last hlast]), delta.started]
  · rw [delta.started]

theorem delta_merges (h : m.plainAssistant) : delta now (state.append m) event =
    state.append { m with content := some (m.content.getD "" ++ event.content.getD "") } := by
  simp [delta, VibeChatState.append, h]

/-- Deltas behind a plain assistant message extend it and nothing else. -/
theorem receive_merges (hm : m.plainAssistant) (hc : m.content = some text)
    (hd : ∀ d ∈ deliveries, d.1.type = .delta) :
    receive stringify (state.append m) deliveries = state.append { m with
      content := some (text ++ String.join (deliveries.map fun d => d.1.content.getD "")) } := by
  induction deliveries generalizing m text with
  | nil =>
    cases m
    subst hc
    simp [receive]
  | cons d deliveries ih =>
    have hfirst : vibeChatReducer stringify d.2 (state.append m) (.appendEvent d.1) =
        state.append { m with content := some (text ++ d.1.content.getD "") } := by
      rw [vibeChatReducer, appendEvent, hd d List.mem_cons_self]
      simp only [delta_merges hm, hc, Option.getD_some]
    rw [receive, List.foldl_cons, hfirst]
    refine (ih (m := { m with content := some (text ++ d.1.content.getD "") }) hm rfl
      fun d' hd' => hd d' (List.mem_cons_of_mem _ hd')).trans ?_
    rw [List.map_cons, String.join_cons, String.append_assoc]

/-- The deltas of a streamed answer add one assistant message that holds the answer, behind the
messages that were there. -/
theorem receive_answer (hready : Ready state) (htext : text ≠ "")
    (hdelta : ∀ d ∈ deliveries, d.1.type = .delta)
    (hchunks : deliveries.map (fun d => d.1.content) = (splitContent text chunkSize).map some) :
    ∃ m : VibeMessage J, m.role = .assistant ∧ m.content = some text ∧
      receive stringify state deliveries = state.append m := by
  have hjoin : String.join (deliveries.map fun d => d.1.content.getD "") = text := by
    have hmap : deliveries.map (fun d => d.1.content.getD "") = splitContent text chunkSize := by
      have h := congrArg (List.map fun c : Option String => c.getD "") hchunks
      simpa [Function.comp_def] using h
    rw [hmap, join_splitContent text (by decide)]
  cases deliveries with
  | nil =>
    rw [List.map_nil, eq_comm, List.map_eq_nil_iff] at hchunks
    exact absurd hchunks (splitContent_ne_nil (by decide) htext)
  | cons d deliveries =>
    obtain ⟨m, hplain, hcontent, hstart⟩ :=
      delta_starts d.2 d.1 hready
    have hfirst : vibeChatReducer stringify d.2 state (.appendEvent d.1) = state.append m := by
      rw [vibeChatReducer, appendEvent, hdelta d List.mem_cons_self]
      exact hstart
    rw [List.map_cons, String.join_cons] at hjoin
    refine ⟨{ m with content := some text }, ?_, rfl, ?_⟩
    · rw [VibeMessage.plainAssistant, Bool.and_eq_true, decide_eq_true_iff] at hplain
      exact hplain.1
    · rw [receive, List.foldl_cons, hfirst]
      refine (receive_merges hplain hcontent
        fun d' hd' => hdelta d' (List.mem_cons_of_mem _ hd')).trans ?_
      rw [hjoin]

/-! A short answer streamed after the user's question. -/

def question : VibeMessage Unit where
  id := "m1"
  sessionId := "s1"
  role := .user
  content := some "BTC?"
  createdAt := "2026-01-01T00:00:00.000Z"

def answerDelta (eventId content : String) : VibeEvent Unit where
  eventId := eventId
  runId := "run"
  type := .delta
  content := some content

theorem receive_twoChunks : ∃ m : VibeMessage Unit, m.role = .assistant ∧
    m.content = some "BTC is bullish" ∧
      receive (fun _ => "") (initialState.append question)
          [(answerDelta "e1" "BTC is", "2026-01-01T00:00:01.000Z"),
            (answerDelta "e2" " bulli", "2026-01-01T00:00:01.500Z"),
            (answerDelta "e3" "sh", "2026-01-01T00:00:02.000Z")] =
        (initialState.append question).append m := by
  refine receive_answer ?_ ?_ ?_ ?_
  · simp [Ready, initialState, VibeChatState.append, VibeMessage.plainAssistant, question]
  · decide
  · simp [answerDelta]
  · decide

end Pyharmonics.VibeChat
