import Pyharmonics.AnalysisContract
import Pyharmonics.QuotaLedger

/-! The analyze endpoint: the idempotency lookup, the record, the quota and the analysis. -/
namespace Pyharmonics.Analysis

open Machines Quota

/-- `analyses.status`, as far as the endpoint writes it. -/
inductive RecordStatus
  | created | completed | failedUpstream
  deriving DecidableEq

/-- A row of `analyses`; a column that holds null is `none`. -/
structure AnalysisRow where
  id : Uuid
  userId : String
  market : String
  symbol : String
  interval : String
  analysisType : String
  status : RecordStatus := .created
  technicalResult : Option TechnicalResult := none
  interpretation : Option Interpretation := none
  errorMessage : Option String := none
  durationMs : Option ℤ := none
  startedAt : Option String := none
  completedAt : Option String := none
  idempotencyKey : Option String := none

/-- An entry of `_idem_cache`: when it was looked up, and the row or the miss. -/
structure IdemEntry where
  userId : String
  key : String
  ts : ℚ
  found : Option AnalysisRow

/-- The limits of the cache, which come from the environment. -/
structure IdemLimits where
  ttl : ℚ
  maxEntries : ℕ
  maxEntries_pos : 0 < maxEntries

/-- The database and the memory of one server process. -/
structure Site where
  db : Tables
  rows : List AnalysisRow
  idemCache : List IdemEntry

/-- One request as it meets the site: what it asks, when, the ids that are made up for it and the
services behind it. -/
structure AnalyzeCall where
  userId : String
  request : AnalyzeRequest
  idempotencyKey : Option String := none
  now : ℚ
  day : ℤ
  analysisId : Uuid
  entryId : Uuid
  services : Services

inductive Response
  | replay (row : AnalysisRow)
  | analysis (analysisId : Uuid) (data : AnalysisData)
  | quotaExceeded (message : String)
  | failed (e : PyError)

/-- What a request gets, and whether it reserved quota. -/
structure Exchange where
  response : Response
  reserved : Bool

variable {lim : IdemLimits} {s : Site} {call : AnalyzeCall} {N : Numerics} {w : Process}
  {localDev : Bool} {calls : List AnalyzeCall} {db : Tables} {row : AnalysisRow}

/-- The newest row with the key; rows are appended as they are created. -/
def Site.newest (s : Site) (userId key : String) : Option AnalysisRow :=
  (s.rows.filter fun r => r.userId = userId ∧ r.idempotencyKey = some key).getLast?

/-- `_idem_cache` without its oldest entry when it is full. -/
def evict (lim : IdemLimits) (cache : List IdemEntry) : List IdemEntry :=
  if lim.maxEntries ≤ cache.length then
    match cache.argmin IdemEntry.ts with
    | some oldest => cache.filter fun e => (e.userId, e.key) ≠ (oldest.userId, oldest.key)
    | none => cache
  else cache

/-- The lookup behind the cache, which stores misses as well. -/
def Site.lookup (lim : IdemLimits) (s : Site) (now : ℚ) (userId key : String) :
    Site × Option AnalysisRow :=
  let found := s.newest userId key
  ({ s with idemCache := evict lim s.idemCache ++ [⟨userId, key, now, found⟩] }, found)

/-- `get_analysis_by_idem_key` -/
def Site.getAnalysisByIdemKey (lim : IdemLimits) (s : Site) (now : ℚ) (userId key : String) :
    Site × Option AnalysisRow :=
  if userId = "" ∨ key = "" then (s, none)
  else
    match s.idemCache.find? fun e => e.userId = userId ∧ e.key = key with
    | none => s.lookup lim now userId key
    | some e =>
      if now - e.ts < lim.ttl then (s, e.found)
      else
        let cache := s.idemCache.filter fun e => (e.userId, e.key) ≠ (userId, key)
        { s with idemCache := cache }.lookup lim now userId key

/-- The placeholder row, normalized to the checks of the table. -/
def AnalyzeCall.record (call : AnalyzeCall) : AnalysisRow where
  id := call.analysisId
  userId := call.userId
  market := if call.request.market = .futures then "binance" else call.request.market.value
  symbol := call.request.symbol
  interval := if call.request.interval = .m1 ∨ call.request.interval = .m5 then "15m"
    else call.request.interval.value
  analysisType := if call.request.analysisType = .auto then "forming"
    else analysisTypeValue call.request.analysisType
  idempotencyKey := call.idempotencyKey.filter (· ≠ "")

/-- `create_analysis_record`: the id is the primary key, the user has a profile and no two rows of
a user share a key. -/
def Site.createAnalysisRecord (s : Site) (row : AnalysisRow) : Site × Option Uuid :=
  if row.id ∈ s.rows.map AnalysisRow.id ∨ row.userId ∉ s.db.profiles.map Profile.id ∨
      (row.idempotencyKey.isSome ∧
        ∃ r ∈ s.rows, r.userId = row.userId ∧ r.idempotencyKey = row.idempotencyKey) then (s, none)
  else
    ({ s with rows := s.rows ++ [row], db := { s.db with analyses := row.id :: s.db.analyses } },
      some row.id)

/-- `delete_analysis_record` -/
def Site.deleteAnalysisRecord (s : Site) (id : Uuid) : Site :=
  { s with rows := Rows.delete AnalysisRow.id id s.rows, db := s.db.dropAnalysis id }

/-- `update_analysis_record` -/
def Site.updateAnalysisRecord (s : Site) (id : Uuid) (f : AnalysisRow → AnalysisRow) : Site :=
  { s with rows := Rows.update AnalysisRow.id id f s.rows }

/-- `reserve_user_quota`: any exception counts as refused. -/
def Site.reserveUserQuota (s : Site) (call : AnalyzeCall) (units : ℤ) :
    Site × Bool × ℤ × Option Uuid :=
  match s.db.reserveQuota call.day call.entryId call.userId call.analysisId units with
  | .error _ => (s, false, 0, none)
  | .ok (db, reserved, remaining) =>
    let mine := db.ledger.filter fun e =>
      e.userId = call.userId ∧ e.analysisId = some call.analysisId ∧ e.status = .reserved
    ({ s with db := db }, reserved, remaining, mine.getLast?.map LedgerEntry.id)

/-- The update of a finished request; null is no legal `analysis_type`, so a result without a
resolved type leaves the row as it was. It also writes `result_summary`, which nothing reads. -/
def Site.completeRecord (s : Site) (id : Uuid) (data : AnalysisData) : Site :=
  match data.technicalResult.resolvedType with
  | some resolved => s.updateAnalysisRecord id fun r =>
      { r with status := .completed, analysisType := resolved }
  | none => s

def Site.failRecord (s : Site) (id : Uuid) (message : String) : Site :=
  s.updateAnalysisRecord id fun r =>
    { r with status := .failedUpstream, errorMessage := some message }

def releaseIfAny (s : Site) (ledgerId : Option Uuid) : Site :=
  match ledgerId with
  | some id => { s with db := s.db.releaseQuota id }
  | none => s

def consumeIfAny (s : Site) (ledgerId : Option Uuid) : Site :=
  match ledgerId with
  | some id => { s with db := s.db.consumeQuota id none none none }
  | none => s

/-- The analysis of a request that has its record and its quota. -/
def Site.runAnalysis (N : Numerics) (w : Process) (s : Site) (call : AnalyzeCall)
    (recordId ledgerId : Option Uuid) : Site × Response :=
  let fail (s : Site) (message : String) : Site :=
    let s := releaseIfAny s ledgerId
    recordId.elim s fun id => s.failRecord id message
  match analyze N w call.services call.request { userId := some call.userId } with
  | .ok data =>
    let s := consumeIfAny s ledgerId
    (recordId.elim s fun id => s.completeRecord id data, .analysis call.analysisId data)
  | .error (.appError code message retryable) =>
    (fail s message, .failed (.appError code message retryable))
  | .error _ =>
    (fail s "Internal error",
      .failed (.appError .internalError "Analysis failed. Please try again." true))

/-- The row is an answer to a retry. -/
def AnalysisRow.replayable (r : AnalysisRow) : Bool :=
  r.status = .completed && r.technicalResult.isSome

/-- The part of a request behind the idempotency short-circuit. -/
def Site.runRequest (N : Numerics) (w : Process) (localDev : Bool) (s : Site)
    (call : AnalyzeCall) : Site × Exchange :=
  let (s, recordId) := s.createAnalysisRecord call.record
  let (s, reserved, remaining, ledgerId) :=
    if localDev then (s, true, 100, none) else s.reserveUserQuota call 1
  if reserved then
    let (s, response) := s.runAnalysis N w call recordId ledgerId
    (s, ⟨response, !localDev⟩)
  else
    (recordId.elim s fun id => s.deleteAnalysisRecord id,
      ⟨.quotaExceeded ("Daily quota exceeded. Remaining: " ++ toString remaining), false⟩)

/-- `POST /api/analyze` of a valid request. -/
def Site.analyze (lim : IdemLimits) (N : Numerics) (w : Process) (localDev : Bool) (s : Site)
    (call : AnalyzeCall) : Site × Exchange :=
  match call.idempotencyKey with
  | none => s.runRequest N w localDev call
  | some key =>
    if key = "" then s.runRequest N w localDev call
    else
      let (s, prior) := s.getAnalysisByIdemKey lim call.now call.userId key
      match prior.filter AnalysisRow.replayable with
      | some row => (s, ⟨.replay row, false⟩)
      | none => s.runRequest N w localDev call

/-- A site before its first request. -/
def Site.opening (db : Tables) : Site := ⟨db, [], []⟩

/-- No row, stored or cached, has a technical result. -/
structure Bare (s : Site) : Prop where
  rows : ∀ r ∈ s.rows, r.technicalResult = none
  cache : ∀ e ∈ s.idemCache, ∀ r ∈ e.found, r.technicalResult = none

theorem mem_of_mem_evict {cache : List IdemEntry} {e : IdemEntry} (h : e ∈ evict lim cache) :
    e ∈ cache := by
  unfold evict at h
  split at h
  · split at h
    · exact List.mem_of_mem_filter h
    · exact h
  · exact h

theorem Bare.newest (h : Bare s) {userId key : String} :
    ∀ r ∈ s.newest userId key, r.technicalResult = none := by
  intro r hr
  exact h.rows r (List.mem_of_mem_filter (List.mem_of_getLast? hr))

theorem Bare.lookup (h : Bare s) {now : ℚ} {userId key : String} :
    Bare (s.lookup lim now userId key).1 where
  rows := h.rows
  cache := by
    intro e he
    rcases List.mem_append.mp he with he | he
    · exact h.cache e (mem_of_mem_evict he)
    · obtain rfl := List.mem_singleton.mp he
      exact h.newest

theorem Bare.getAnalysisByIdemKey (h : Bare s) {now : ℚ} {userId key : String} :
    Bare (s.getAnalysisByIdemKey lim now userId key).1 ∧
      ∀ r ∈ (s.getAnalysisByIdemKey lim now userId key).2, r.technicalResult = none := by
  unfold Site.getAnalysisByIdemKey
  split
  · exact ⟨h, by simp⟩
  · split
    · exact ⟨h.lookup, h.newest⟩
    · next e he =>
      split
      · exact ⟨h, h.cache e (List.mem_of_find?_eq_some he)⟩
      · have hcut : Bare { s with idemCache := s.idemCache.filter fun e =>
            (e.userId, e.key) ≠ (userId, key) } :=
          ⟨h.rows, fun e he => h.cache e (List.mem_of_mem_filter he)⟩
        exact ⟨hcut.lookup, hcut.newest⟩

theorem Bare.withDb (h : Bare s) (db : Tables) : Bare { s with db := db } := ⟨h.rows, h.cache⟩

theorem Bare.update (h : Bare s) {id : Uuid} {f : AnalysisRow → AnalysisRow}
    (hf : ∀ r, (f r).technicalResult = r.technicalResult) : Bare (s.updateAnalysisRecord id f) where
  rows := by
    intro r hr
    rcases Rows.mem_update hr with ⟨hr, -⟩ | ⟨r', hr', -, rfl⟩
    · exact h.rows r hr
    · rw [hf]
      exact h.rows r' hr'
  cache := h.cache

theorem Bare.runAnalysis (h : Bare s) {recordId ledgerId : Option Uuid} :
    Bare (s.runAnalysis N w call recordId ledgerId).1 ∧
      ∀ row, (s.runAnalysis N w call recordId ledgerId).2 ≠ .replay row := by
  have hrelease : Bare (releaseIfAny s ledgerId) := by
    cases ledgerId with
    | none => exact h
    | some id => exact h.withDb _
  have hfail : ∀ message, Bare (recordId.elim (releaseIfAny s ledgerId) fun id =>
      (releaseIfAny s ledgerId).failRecord id message) := by
    intro message
    cases recordId with
    | none => exact hrelease
    | some id => exact hrelease.update fun _ => rfl
  unfold Site.runAnalysis
  match Analysis.analyze N w call.services call.request { userId := some call.userId } with
  | .ok data =>
    refine ⟨?_, by simp⟩
    have hconsume : Bare (consumeIfAny s ledgerId) := by
      cases ledgerId with
      | none => exact h
      | some id => exact h.withDb _
    cases recordId with
    | none => exact hconsume
    | some id =>
      simp only [Option.elim, Site.completeRecord]
      split
      · exact hconsume.update fun _ => rfl
      · exact hconsume
  | .error (.appError code message retryable) => exact ⟨hfail message, by simp⟩
  | .error (.violation _) => exact ⟨hfail _, by simp⟩
  | .error (.valueError _ _) => exact ⟨hfail _, by simp⟩
  | .error (.typeError _) => exact ⟨hfail _, by simp⟩
  | .error (.attributeError _) => exact ⟨hfail _, by simp⟩
  | .error .assertionError => exact ⟨hfail _, by simp⟩
  | .error (.other _) => exact ⟨hfail _, by simp⟩

theorem Bare.createAnalysisRecord (h : Bare s) (hrow : row.technicalResult = none) :
    Bare (s.createAnalysisRecord row).1 := by
  unfold Site.createAnalysisRecord
  split
  · exact h
  · constructor
    · intro r hr
      rcases List.mem_append.mp hr with hr | hr
      · exact h.rows r hr
      · obtain rfl := List.mem_singleton.mp hr
        exact hrow
    · exact h.cache

theorem Bare.runRequest (h : Bare s) :
    Bare (s.runRequest N w localDev call).1 ∧
      ∀ row, (s.runRequest N w localDev call).2.response ≠ .replay row := by
  have hcreate : Bare (s.createAnalysisRecord call.record).1 := h.createAnalysisRecord rfl
  unfold Site.runRequest
  dsimp only
  generalize s.createAnalysisRecord call.record = created at hcreate
  obtain ⟨s₁, recordId⟩ := created
  have hreserve : Bare (if localDev = true then (s₁, true, (100 : ℤ), (none : Option Uuid))
      else s₁.reserveUserQuota call 1).1 := by
    split
    · exact hcreate
    · unfold Site.reserveUserQuota
      split
      · exact hcreate
      · exact hcreate.withDb _
  dsimp only
  generalize (if localDev = true then (s₁, true, (100 : ℤ), (none : Option Uuid))
      else s₁.reserveUserQuota call 1) = quota at hreserve
  obtain ⟨s₂, reserved, remaining, ledgerId⟩ := quota
  dsimp only
  split
  · exact hreserve.runAnalysis
  · refine ⟨?_, by simp⟩
    cases recordId with
    | none => exact hreserve
    | some id => exact ⟨fun r hr => hreserve.rows r (List.mem_of_mem_filter hr), hreserve.cache⟩

/-- A request leaves no row with a technical result, and is never a replay. -/
theorem Bare.analyze (h : Bare s) : Bare (s.analyze lim N w localDev call).1 ∧
    ∀ row, (s.analyze lim N w localDev call).2.response ≠ .replay row := by
  unfold Site.analyze
  split
  · exact h.runRequest
  · next key _ =>
    split
    · exact h.runRequest
    · have hlookup : Bare (s.getAnalysisByIdemKey lim call.now call.userId key).1 ∧
          ∀ r ∈ (s.getAnalysisByIdemKey lim call.now call.userId key).2,
            r.technicalResult = none := h.getAnalysisByIdemKey
      obtain ⟨hs, hprior⟩ := hlookup
      have hnone : (s.getAnalysisByIdemKey lim call.now call.userId key).2.filter
          AnalysisRow.replayable = none := by
        rw [Option.filter_eq_none_iff]
        intro r hr
        simp [AnalysisRow.replayable, hprior r hr]
      dsimp only
      rw [hnone]
      exact hs.runRequest

/-- A later request of the same user repeats the key of an answered one. -/
structure Retries (lim : IdemLimits) (N : Numerics) (w : Process) (localDev : Bool) (s : Site)
    (first second : AnalyzeCall) (id : Uuid) (data : AnalysisData) : Prop where
  answered : (s.analyze lim N w localDev first).2.response = .analysis id data
  user : second.userId = first.userId
  key : ∃ key, key ≠ "" ∧ first.idempotencyKey = some key ∧ second.idempotencyKey = some key

/-- The stored analysis is returned and nothing is reserved. -/
def Replays (id : Uuid) (data : AnalysisData) (x : Exchange) : Prop :=
  x.reserved = false ∧ ∃ row, x.response = .replay row ∧ row.id = id ∧
    row.technicalResult = some data.technicalResult

/-- No retry of an answered request is ever a replay of it, whatever the requests between them
and the time that passes. -/
theorem analyze_never_replays {before between : List AnalyzeCall} {first second : AnalyzeCall}
    {id : Uuid} {data : AnalysisData}
    (_h : Retries lim N w localDev (final (Site.analyze lim N w localDev) (.opening db) before)
      first second id data) :
    ¬ Replays id data ((final (Site.analyze lim N w localDev) (.opening db)
      (before ++ first :: between)).analyze lim N w localDev second).2 := by
  have hopening : Bare (.opening db) := ⟨by simp [Site.opening], by simp [Site.opening]⟩
  have hbare : Bare (final (Site.analyze lim N w localDev) (.opening db)
      (before ++ first :: between)) := final_inv (I := Bare) (fun _ _ h => h.analyze.1) hopening
  rintro ⟨-, row, hrow, -⟩
  exact hbare.analyze.2 row hrow

/-! A request for the formed bat, answered once and asked again. -/

def retryLimits : IdemLimits := ⟨60, 1024, by decide⟩

def retryTables : Tables := .opening [{ id := "trader", active := true, dailyQuota := 5 }] []

def retryCall (now : ℚ) (analysisId entryId : Uuid) : AnalyzeCall where
  userId := "trader"
  request := { batRequest with analysisType := .formed }
  idempotencyKey := some "again"
  now := now
  day := 0
  analysisId := analysisId
  entryId := entryId
  services := batServices

/-- The id a request was answered under. -/
def Response.answeredId? : Response → Option Uuid
  | .analysis id _ => some id
  | _ => none

theorem exists_answered {r : Response} {id : Uuid} (h : r.answeredId? = some id) :
    ∃ data, r = .analysis id data := by
  unfold Response.answeredId? at h
  split at h
  · obtain rfl := Option.some.inj h
    exact ⟨_, rfl⟩
  · simp at h

theorem retry_retries : ∃ data, Retries retryLimits plainNumerics defaultProcess false
    (.opening retryTables) (retryCall 0 1 11) (retryCall 1000 2 12) 1 data := by
  have hanswered : ((Site.opening retryTables).analyze retryLimits plainNumerics defaultProcess
      false (retryCall 0 1 11)).2.response.answeredId? = some 1 := by
    decide +kernel
  obtain ⟨data, hdata⟩ := exists_answered hanswered
  exact ⟨data, hdata, rfl, "again", by decide, rfl, rfl⟩

/-- A thousand seconds later the retry is refused for lack of quota. -/
theorem retry_refused : ∃ data, Retries retryLimits plainNumerics defaultProcess false
    (.opening retryTables) (retryCall 0 1 11) (retryCall 1000 2 12) 1 data ∧
      ¬ Replays 1 data ((final (Site.analyze retryLimits plainNumerics defaultProcess false)
        (.opening retryTables) [retryCall 0 1 11]).analyze retryLimits plainNumerics
          defaultProcess false (retryCall 1000 2 12)).2 := by
  obtain ⟨data, hdata⟩ := retry_retries
  refine ⟨data, hdata, ?_⟩
  rintro ⟨-, row, hrow, -⟩
  have hrefused : (match ((final (Site.analyze retryLimits plainNumerics defaultProcess false)
      (.opening retryTables) [retryCall 0 1 11]).analyze retryLimits plainNumerics
        defaultProcess false (retryCall 1000 2 12)).2.response with
      | .quotaExceeded message => some message
      | _ => none) = some "Daily quota exceeded. Remaining: 0" := by
    decide +kernel
  rw [hrow] at hrefused
  simp at hrefused

theorem retry_never_replays : ∃ data, Retries retryLimits plainNumerics defaultProcess false
    (.opening retryTables) (retryCall 0 1 11) (retryCall 1000 2 12) 1 data ∧
      ¬ Replays 1 data ((final (Site.analyze retryLimits plainNumerics defaultProcess false)
        (.opening retryTables) ([] ++ retryCall 0 1 11 :: [])).analyze retryLimits plainNumerics
          defaultProcess false (retryCall 1000 2 12)).2 := by
  obtain ⟨data, hdata⟩ := retry_retries
  exact ⟨data, hdata, analyze_never_replays hdata⟩

end Pyharmonics.Analysis
