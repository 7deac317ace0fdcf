import Pyharmonics.EventStore
import Pyharmonics.JsonValues
import Pyharmonics.Library.Dict
import Pyharmonics.Library.Noninterference
import Pyharmonics.Library.Sorting
import Mathlib.Data.String.Basic

/-! The session store in Redis behind the assistant's routes, shared by all users. -/
namespace Pyharmonics.VibeSessions

open Machines Sorting Vibe

variable {μ φ π : Type*}

structure VibeSession where
  id : String
  userId : String
  title : Option String
  context : List (String × Json)
  status : String
  messageCount : ℕ
  lastMessageAt : Option String
  createdAt : String
  updatedAt : String

/-- `s.get("updated_at") or s.get("created_at")` -/
def VibeSession.latest (x : VibeSession) : String :=
  if x.updatedAt = "" then x.createdAt else x.updatedAt

/-- A run record; what is not an id is kept together. -/
structure VibeRun where
  id : String
  sessionId : String
  userId : String
  fields : Dict String Json

/-- A job that has been enqueued, or started in a thread. -/
structure RunJob where
  sessionId : String
  runId : String
  userId : String
  content : String

/-- The keys of the stores, and the jobs. -/
structure Site (μ π : Type*) where
  sessions : Dict String VibeSession
  messages : Dict String (List μ)
  runs : Dict String VibeRun
  userSessions : Dict String (List String)
  events : Dict String (RunLog π)
  jobs : List RunJob

namespace Site

def empty : Site μ π := ⟨.empty, .empty, .empty, .empty, .empty, []⟩

variable (s : Site μ π)

def putSession (sessionId : String) (x : VibeSession) : Site μ π :=
  { s with sessions := s.sessions.set sessionId x }

def putMessages (sessionId : String) (messages : List μ) : Site μ π :=
  { s with messages := s.messages.set sessionId messages }

def putRun (runId : String) (r : VibeRun) : Site μ π := { s with runs := s.runs.set runId r }

def putIds (userId : String) (ids : List String) : Site μ π :=
  { s with userSessions := s.userSessions.set userId ids }

def putEvents (runId : String) (log : RunLog π) : Site μ π :=
  { s with events := s.events.set runId log }

def putJob (j : RunJob) : Site μ π := { s with jobs := s.jobs ++ [j] }

/-! The store. -/

def createSession (userId : String) (title : Option String)
    (context : Option (List (String × Json))) (sessionId now : String) : Site μ π × VibeSession :=
  let payload : VibeSession :=
    { id := sessionId
      userId := userId
      title := title
      context := context.getD []
      status := "active"
      messageCount := 0
      lastMessageAt := none
      createdAt := now
      updatedAt := now }
  let ids := s.userSessions.getD userId []
  (((s.putSession sessionId payload).putMessages sessionId []).putIds userId
    (if sessionId ∈ ids then ids else sessionId :: ids), payload)

def getSession (sessionId userId : String) : Option VibeSession :=
  (s.sessions.get? sessionId).filter fun x => x.userId = userId

/-- `sessions.sort(key=..., reverse=True)` leaves sessions of one time in their order. -/
def newestFirst (sessions : List VibeSession) : List VibeSession :=
  (sortBy VibeSession.latest sessions.reverse).reverse

def listSessions (userId : String) (limit offset : ℤ) (status : String) : List VibeSession :=
  Slices.slice (newestFirst (((s.userSessions.getD userId []).filterMap s.sessions.get?).filter
    fun x => x.status = status)) offset (offset + limit)

def updateSessionTitle (sessionId title now : String) : Site μ π :=
  match s.sessions.get? sessionId with
  | none => s
  | some x => s.putSession sessionId { x with title := some title, updatedAt := now }

def archiveSession (sessionId userId now : String) : Site μ π :=
  match s.sessions.get? sessionId with
  | none => s
  | some x =>
    if x.userId = userId then
      let s := s.putSession sessionId { x with status := "deleted", updatedAt := now }
      let ids := s.userSessions.getD userId []
      if sessionId ∈ ids then s.putIds userId (ids.erase sessionId) else s
    else s

/-- `_touch_session` -/
def touchSession (sessionId now : String) : Site μ π :=
  match s.sessions.get? sessionId with
  | none => s
  | some x =>
    s.putSession sessionId
      { x with
        updatedAt := now
        messageCount := (s.messages.getD sessionId []).length
        lastMessageAt := some now }

def createMessage (sessionId : String) (message : μ) (now : String) : Site μ π :=
  (s.putMessages sessionId (s.messages.getD sessionId [] ++ [message])).touchSession sessionId now

def listMessages (sessionId : String) (limit offset : ℤ) : List μ :=
  Slices.slice (s.messages.getD sessionId []) offset (offset + limit)

def getRun (runId userId : String) : Option VibeRun :=
  (s.runs.get? runId).filter fun r => r.userId = userId

def updateRun (runId : String) (updates : List (String × Json)) : Site μ π :=
  match s.runs.get? runId with
  | none => s
  | some r =>
    s.putRun runId { r with fields := updates.foldl (fun fields e => fields.set e.1 e.2) r.fields }

def cancelRun (runId cancelledBy now : String) : Site μ π :=
  s.updateRun runId
    [("status", .str "cancelled"), ("cancelled_by", .str cancelledBy), ("completed_at", .str now)]

def publish (validate : φ → Option π) (runId : String) (p : Publish φ) : Site μ π :=
  s.putEvents runId (Vibe.publish validate runId (s.events.getD runId .empty) p).1

end Site

/-- What a job asks of the stores. -/
inductive JobCall (μ φ : Type*)
  | getSession
  | createMessage (message : μ) (now : String)
  | listMessages (limit offset : ℤ)
  | updateRun (updates : List (String × Json))
  | updateSessionTitle (title now : String)
  | publish (p : Publish φ)

/-- A request with the ids generated for it and the clock's reading, or a call of the job of a run;
the quota may refuse a message, and its job may not start. -/
inductive Request (μ φ : Type*)
  | createSession (title : Option String) (context : Option (List (String × Json)))
      (sessionId now : String)
  | listSessions (limit offset : ℤ)
  | getSession (sessionId : String)
  | deleteSession (sessionId now : String)
  | sendMessage (sessionId content runId now : String) (reserved started : Bool)
  | getRun (runId : String)
  | getRunEvents (runId : String) (after : Option String) (limit : ℤ)
  | cancelRun (runId now : String)
  | work (runId : String) (call : JobCall μ φ)

inductive Response (μ π : Type*)
  | session (x : Option VibeSession)
  | sessions (items : List VibeSession)
  | deleted (sessionId : String)
  | running (runId : String)
  | run (r : VibeRun)
  | events (runId : String) (status : Option Json) (events : List (VibeEvent π))
  | cancelled (runId : String)
  | messages (messages : List μ)
  | done
  | noJob
  | error (code text : String)

namespace Site

variable (validate : φ → Option π) (s : Site μ π)

/-- A call of the job; its session, its run and its user are those of the message that started it. -/
def jobCall (j : RunJob) : JobCall μ φ → Site μ π × Response μ π
  | .getSession => (s, .session (s.getSession j.sessionId j.userId))
  | .createMessage message now => (s.createMessage j.sessionId message now, .done)
  | .listMessages limit offset => (s, .messages (s.listMessages j.sessionId limit offset))
  | .updateRun updates => (s.updateRun j.runId updates, .done)
  | .updateSessionTitle title now => (s.updateSessionTitle j.sessionId title now, .done)
  | .publish p => (s.publish validate j.runId p, .done)

def findJob (runId userId : String) : Option RunJob :=
  s.jobs.find? fun j => j.runId = runId ∧ j.userId = userId

/-- `send_message` behind the check of the session. -/
def sendMessage (userId sessionId content runId now : String) (reserved started : Bool) :
    Site μ π × Response μ π :=
  if ¬ reserved then (s, .error "QUOTA_EXCEEDED" "每日额度已用完")
  else
    let s := s.putRun runId
      { id := runId
        sessionId := sessionId
        userId := userId
        fields := (((Dict.empty.set "status" (.str "running")).set "user_prompt" (.str content)).set
          "created_at" (.str now)) }
    if started then (s.putJob ⟨sessionId, runId, userId, content⟩, .running runId)
    else
      (s.updateRun runId [("status", .str "failed"), ("error", .str "无法启动运行")],
        .error "INTERNAL_ERROR" "启动助手失败，请重试")

/-- The routes, called by a user. -/
def route (userId : String) : Request μ φ → Site μ π × Response μ π
  | .createSession title context sessionId now =>
    let (s, payload) := s.createSession userId title context sessionId now
    (s, .session (some payload))
  | .listSessions limit offset =>
    (s, .sessions (s.listSessions userId (min limit 100) offset "active"))
  | .getSession sessionId =>
    match s.getSession sessionId userId with
    | none => (s, .error "NOT_FOUND" "会话不存在")
    | some x => (s, .session (some x))
  | .deleteSession sessionId now =>
    match s.getSession sessionId userId with
    | none => (s, .error "NOT_FOUND" "会话不存在")
    | some _ => (s.archiveSession sessionId userId now, .deleted sessionId)
  | .sendMessage sessionId content runId now reserved started =>
    match s.getSession sessionId userId with
    | none => (s, .error "NOT_FOUND" "会话不存在")
    | some _ => s.sendMessage userId sessionId content runId now reserved started
  | .getRun runId =>
    match s.getRun runId userId with
    | none => (s, .error "NOT_FOUND" "运行记录不存在")
    | some r => (s, .run r)
  | .getRunEvents runId after limit =>
    match s.getRun runId userId with
    | none => (s, .error "NOT_FOUND" "运行记录不存在")
    | some r =>
      (s, .events runId (r.fields.get? "status") (getEvents .redis (s.events.getD runId .empty) after
        none none (min limit 200)))
  | .cancelRun runId now =>
    match s.getRun runId userId with
    | none => (s, .error "NOT_FOUND" "运行记录不存在")
    | some _ => (s.cancelRun runId userId now, .cancelled runId)
  | .work runId call =>
    match s.findJob runId userId with
    | none => (s, .noJob)
    | some j => s.jobCall validate j call

end Site

/-- One request of a user. -/
def step (validate : φ → Option π) (s : Site μ π) (x : String × Request μ φ) :
    Site μ π × Response μ π := s.route validate x.1 x.2

end Pyharmonics.VibeSessions
