import Pyharmonics.EventStore

/-! The event stream of a run: the log is read page by page until an event ends the stream. -/
namespace Pyharmonics.Vibe

open Machines

variable {φ π : Type*}

/-- What `generate` does next, or how it has ended. -/
inductive StreamPhase
  | fetch | check | closed | timedOut
  deriving DecidableEq

/-- A stream with the log it reads; `sent` are the events of the frames it has yielded, and
`status` is what the session store answers about the run. -/
structure EventStream (π : Type*) where
  log : RunLog π
  status : Option String
  phase : StreamPhase
  seenCount : ℕ
  emptyPolls : ℕ
  sent : List (VibeEvent π)

def EventStream.start (status : Option String) : EventStream π := ⟨.empty, status, .fetch, 0, 0, []⟩

/-- What may happen between two steps of a stream, and its own next step. -/
inductive StreamAction (φ : Type*)
  | publish (p : Publish φ)
  | update (status : Option String)
  | advance

def StreamAction.isAdvance : StreamAction φ → Bool
  | .advance => true
  | _ => false

def pageLimit : ℤ := 50

def terminalStatus (status : Option String) : Prop :=
  ∃ s ∈ status, s = "completed" ∨ s = "failed" ∨ s = "cancelled"

instance (status : Option String) : Decidable (terminalStatus status) :=
  match status with
  | none => isFalse (by simp [terminalStatus])
  | some s => decidable_of_iff (s = "completed" ∨ s = "failed" ∨ s = "cancelled")
      (by simp [terminalStatus])

section

variable (type : π → String)

/-- The event after which the stream returns. -/
def Ends (e : VibeEvent π) : Prop := type e.payload = "done" ∨ type e.payload = "error"

instance : DecidablePred (Ends type) := fun _ => inferInstanceAs (Decidable (_ ∨ _))

/-- The loop over a page: the events sent, and whether the last of them ends the stream. -/
def emit : List (VibeEvent π) → List (VibeEvent π) × Bool
  | [] => ([], false)
  | e :: events =>
    if Ends type e then ([e], true)
    else
      let (sent, ended) := emit events
      (e :: sent, ended)

variable (b : Backend) (maxEmptyPolls : ℤ)

/-- From one suspension of `generate` to the next: a page read and sent, or a look at the run. -/
def EventStream.advance (c : EventStream π) : EventStream π :=
  match c.phase with
  | .fetch =>
    if (c.emptyPolls : ℤ) < maxEmptyPolls then
      let events := getEvents b c.log none none (some (c.seenCount : ℤ)) pageLimit
      let (sent, ended) := emit type events
      { c with
        sent := c.sent ++ sent
        seenCount := c.seenCount + sent.length
        phase := if ended then .closed else if events.isEmpty then .check else .fetch }
    else { c with phase := .timedOut }
  | .check =>
    { c with
      emptyPolls := if terminalStatus c.status then c.emptyPolls + 1 else 0
      phase := .fetch }
  | .closed | .timedOut => c

variable (validate : φ → Option π) (runId : String)

def EventStream.step (c : EventStream π) : StreamAction φ → EventStream π × Unit
  | .publish p => ({ c with log := (publish validate runId c.log p).1 }, ())
  | .update status => ({ c with status := status }, ())
  | .advance => (c.advance type b maxEmptyPolls, ())

end

variable {type : π → String} {b : Backend} {maxEmptyPolls : ℤ} {validate : φ → Option π}
  {runId : String} {c : EventStream π} {a : StreamAction φ} {acts more : List (StreamAction φ)}
  {events before after : List (VibeEvent π)} {e : VibeEvent π}

/-! What one page sends. -/

theorem emit_append : emit type (before ++ after) =
    if (emit type before).2 then emit type before
    else (before ++ (emit type after).1, (emit type after).2) := by
  induction before with
  | nil => simp [emit]
  | cons e before ih =>
    by_cases h : Ends type e
    · simp [emit, h]
    · simp only [List.cons_append, emit, if_neg h, ih]
      split <;> simp_all

theorem emit_prefix : (emit type events).1 <+: events := by
  induction events with
  | nil => exact List.prefix_rfl
  | cons e events ih =>
    rw [emit]
    split
    · exact ⟨events, rfl⟩
    · exact (List.prefix_cons_inj e).mpr ih

/-- A page that does not end the stream is sent as a whole. -/
theorem emit_of_open (h : (emit type events).2 = false) : (emit type events).1 = events := by
  induction events with
  | nil => rfl
  | cons e events ih =>
    rw [emit] at h ⊢
    split at h
    · cases h
    · rename_i hends
      rw [if_neg hends]
      exact congrArg _ (ih h)

theorem emit_emit : emit type (emit type events).1 = emit type events := by
  induction events with
  | nil => rfl
  | cons e events ih =>
    by_cases h : Ends type e
    · simp [emit, h]
    · simp [emit, h, ih]

/-! What has been sent at any time. -/

/-- What has been sent is a first part of the log, and the stream is closed when it ends there. -/
structure Mirrors (type : π → String) (c : EventStream π) : Prop where
  seen : c.seenCount = c.sent.length
  sent : c.sent <+: c.log.events
  once : (emit type c.sent).1 = c.sent
  closed : c.phase = .closed ↔ (emit type c.sent).2 = true

theorem Mirrors.start (status : Option String) : Mirrors type (.start status) :=
  ⟨rfl, List.prefix_rfl, rfl, by simp [EventStream.start, emit]⟩

theorem Mirrors.page (h : Mirrors type c) :
    getEvents b c.log none none (some (c.seenCount : ℤ)) pageLimit =
      (c.log.events.drop c.sent.length).take 50 := by
  rw [h.seen]
  exact fetchRange_of_nonneg (Int.natCast_nonneg _) (by decide)

/-- A read of the log while the stream is open. -/
theorem advance_fetch (h : Mirrors type c) (hphase : c.phase = .fetch)
    (hpolls : (c.emptyPolls : ℤ) < maxEmptyPolls) :
    ∃ page, page = (c.log.events.drop c.sent.length).take 50 ∧
      c.advance type b maxEmptyPolls =
        { c with
          sent := c.sent ++ (emit type page).1
          seenCount := c.seenCount + (emit type page).1.length
          phase := if (emit type page).2 then .closed else if page.isEmpty then .check
            else .fetch } := by
  refine ⟨_, rfl, ?_⟩
  rw [EventStream.advance, hphase]
  simp only
  rw [if_pos hpolls, h.page]

theorem Mirrors.advance (h : Mirrors type c) : Mirrors type (c.advance type b maxEmptyPolls) := by
  cases hphase : c.phase with
  | fetch =>
    by_cases hpolls : (c.emptyPolls : ℤ) < maxEmptyPolls
    · obtain ⟨page, hpage, hadvance⟩ := advance_fetch (b := b) h hphase hpolls
      have hopen : (emit type c.sent).2 = false := by
        rw [← Bool.not_eq_true, ← h.closed, hphase]
        decide
      have hsent : emit type (c.sent ++ (emit type page).1) =
          (c.sent ++ (emit type page).1, (emit type page).2) := by
        rw [emit_append, hopen, if_neg Bool.false_ne_true, emit_emit]
      rw [hadvance]
      refine ⟨by simp [h.seen], ?_, by rw [hsent], ?_⟩
      · have hfirst : (emit type page).1 <+: c.log.events.drop c.sent.length :=
          emit_prefix.trans (hpage ▸ List.take_prefix _ _)
        obtain ⟨rest, hrest⟩ := h.sent
        rw [← hrest, List.drop_left] at hfirst
        rw [← hrest]
        exact (List.prefix_append_right_inj _).mpr hfirst
      · simp only [hsent]
        split_ifs with hends <;> simp [hends]
    · have hadvance : c.advance type b maxEmptyPolls = { c with phase := .timedOut } := by
        rw [EventStream.advance, hphase]
        exact if_neg hpolls
      rw [hadvance]
      refine ⟨h.seen, h.sent, h.once, ?_⟩
      rw [← h.closed, hphase]
      simp
  | check =>
    rw [EventStream.advance, hphase]
    refine ⟨h.seen, h.sent, h.once, ?_⟩
    rw [← h.closed, hphase]
    simp
  | closed =>
    rw [EventStream.advance, hphase]
    exact h
  | timedOut =>
    rw [EventStream.advance, hphase]
    exact h

theorem Mirrors.step (h : Mirrors type c) (a : StreamAction φ) :
    Mirrors type (c.step type b maxEmptyPolls validate runId a).1 := by
  cases a with
  | publish p =>
    obtain ⟨new, hnew⟩ := events_publish validate runId c.log p
    refine ⟨h.seen, h.sent.trans ?_, h.once, h.closed⟩
    rw [EventStream.step, hnew]
    exact List.prefix_append _ _
  | update status => exact ⟨h.seen, h.sent, h.once, h.closed⟩
  | advance => exact h.advance

/-- The answer of the run so far: its events up to the first that ends the stream. -/
theorem Mirrors.answer (h : Mirrors type c) :
    c.sent <+: (emit type c.log.events).1 ∧
      (c.phase = .closed ↔
        c.sent = (emit type c.log.events).1 ∧ (emit type c.log.events).2 = true) := by
  obtain ⟨rest, hrest⟩ := h.sent
  rw [h.closed, ← hrest, emit_append]
  cases hends : (emit type c.sent).2 with
  | true => simp [hends, h.once]
  | false =>
    simp only [Bool.false_eq_true, if_false, false_iff, not_and]
    refine ⟨List.prefix_append _ _, ?_⟩
    intro hsame hrestEnds
    have hnone : (emit type rest).1 = [] := by simpa using hsame
    cases rest with
    | nil => cases hrestEnds
    | cons e rest =>
      rw [emit] at hnone
      split at hnone <;> cases hnone

/-! How long the stream goes on. -/

/-- What is published behind the end of an answer is no part of it. -/
theorem emit_publish {log : RunLog π} {p : Publish φ} (h : (emit type log.events).2 = true) :
    emit type (publish validate runId log p).1.events = emit type log.events := by
  obtain ⟨new, hnew⟩ := events_publish validate runId log p
  rw [hnew, emit_append, if_pos h]

theorem advance_log : (c.advance type b maxEmptyPolls).log = c.log := by
  unfold EventStream.advance
  split
  · split <;> rfl
  · rfl
  · rfl
  · rfl

theorem emit_run (h : (emit type c.log.events).2 = true) (more : List (StreamAction φ)) :
    emit type (final (EventStream.step type b maxEmptyPolls validate runId) c more).log.events =
      emit type c.log.events := by
  refine final_inv (I := fun d : EventStream π =>
    emit type d.log.events = emit type c.log.events) ?_ rfl
  intro d a hd
  cases a with
  | publish p => exact (emit_publish (by rw [hd]; exact h)).trans hd
  | update status => exact hd
  | advance => rwa [EventStream.step, advance_log]

/-- The stream reads the log at least once more, whatever the run's status is by then. -/
def Live (maxEmptyPolls : ℤ) (c : EventStream π) : Prop :=
  c.phase = .closed ∨ c.phase = .fetch ∧ (c.emptyPolls : ℤ) < maxEmptyPolls ∨
    c.phase = .check ∧ (c.emptyPolls : ℤ) + 1 < maxEmptyPolls

instance : Decidable (Live maxEmptyPolls c) := inferInstanceAs (Decidable (_ ∨ _ ∨ _))

/-- The stream's own steps among the actions. -/
def advances (acts : List (StreamAction φ)) : ℕ := acts.countP StreamAction.isAdvance

/-- The steps left to the end of a run's answer: a page each, and the look at the run before. -/
def stepsLeft (answer : List (VibeEvent π)) (c : EventStream π) : ℕ :=
  match c.phase with
  | .closed => 0
  | .check => (answer.length - c.sent.length + 49) / 50 + 1
  | _ => (answer.length - c.sent.length + 49) / 50

/-- The run has published the whole answer, and the stream will read it. -/
structure Delivering (type : π → String) (maxEmptyPolls : ℤ) (answer : List (VibeEvent π))
    (c : EventStream π) : Prop where
  mirrors : Mirrors type c
  answered : emit type c.log.events = (answer, true)
  live : Live maxEmptyPolls c

theorem Delivering.left {answer : List (VibeEvent π)}
    (h : Delivering type maxEmptyPolls answer c) (hopen : c.phase ≠ .closed) :
    c.sent.length < answer.length := by
  have hanswer := h.mirrors.answer
  rw [h.answered] at hanswer
  refine lt_of_le_of_ne hanswer.1.length_le fun hlen => hopen ?_
  exact hanswer.2.mpr ⟨hanswer.1.eq_of_length hlen, rfl⟩

/-- A page that does not end the stream is a full one. -/
theorem Delivering.page {answer page : List (VibeEvent π)}
    (h : Delivering type maxEmptyPolls answer c) (hopen : c.phase ≠ .closed)
    (hpage : page = (c.log.events.drop c.sent.length).take 50)
    (hends : (emit type page).2 = false) : page.length = 50 := by
  have hsentOpen : (emit type c.sent).2 = false := by
    rw [← Bool.not_eq_true, ← h.mirrors.closed]
    exact hopen
  obtain ⟨rest, hrest⟩ := h.mirrors.sent
  have hdrop : c.log.events.drop c.sent.length = rest := by rw [← hrest, List.drop_left]
  rw [hdrop] at hpage
  have hrestEnds : (emit type rest).2 = true := by
    have hall := h.answered
    rw [← hrest, emit_append, hsentOpen, if_neg Bool.false_ne_true] at hall
    exact (Prod.mk.inj hall).2
  rw [hpage, List.length_take]
  by_contra hshort
  rw [hpage, List.take_of_length_le (by omega), hrestEnds] at hends
  cases hends

theorem Delivering.advance {answer : List (VibeEvent π)}
    (h : Delivering type maxEmptyPolls answer c) :
    Delivering type maxEmptyPolls answer (c.advance type b maxEmptyPolls) ∧
      stepsLeft answer (c.advance type b maxEmptyPolls) ≤ stepsLeft answer c - 1 := by
  have hmirrors : Mirrors type (c.advance type b maxEmptyPolls) := h.mirrors.advance
  cases hphase : c.phase with
  | fetch =>
    have hpolls : (c.emptyPolls : ℤ) < maxEmptyPolls := by simpa [Live, hphase] using h.live
    have hopen : c.phase ≠ .closed := by simp [hphase]
    have hleft := h.left hopen
    obtain ⟨page, hpage, hadvance⟩ := advance_fetch (b := b) h.mirrors hphase hpolls
    rw [hadvance] at hmirrors ⊢
    cases hends : (emit type page).2 with
    | true =>
      rw [hends] at hmirrors
      exact ⟨⟨hmirrors, h.answered, .inl rfl⟩, Nat.zero_le _⟩
    | false =>
      have hfull : page.length = 50 := h.page hopen hpage hends
      have hne : page.isEmpty = false := by
        cases page with
        | nil => cases hfull
        | cons e page => rfl
      rw [hends, hne] at hmirrors
      rw [hne]
      refine ⟨⟨hmirrors, h.answered, .inr (.inl ⟨rfl, hpolls⟩)⟩, ?_⟩
      simp only [stepsLeft, hphase, emit_of_open hends, List.length_append, hfull,
        Bool.false_eq_true, if_false]
      omega
  | check =>
    have hpolls : (c.emptyPolls : ℤ) + 1 < maxEmptyPolls := by simpa [Live, hphase] using h.live
    have hadvance : c.advance type b maxEmptyPolls =
        { c with
          emptyPolls := if terminalStatus c.status then c.emptyPolls + 1 else 0
          phase := .fetch } := by
      rw [EventStream.advance, hphase]
    rw [hadvance] at hmirrors ⊢
    refine ⟨⟨hmirrors, h.answered, ?_⟩, ?_⟩
    · refine .inr (.inl ⟨rfl, ?_⟩)
      by_cases hstatus : terminalStatus c.status
      · simp only [if_pos hstatus]
        exact_mod_cast hpolls
      · simp only [if_neg hstatus]
        omega
    · simp only [stepsLeft, hphase]
      omega
  | closed =>
    have hadvance : c.advance type b maxEmptyPolls = c := by rw [EventStream.advance, hphase]
    rw [hadvance]
    refine ⟨h, ?_⟩
    simp [stepsLeft, hphase]
  | timedOut =>
    have hlive := h.live
    simp [Live, hphase] at hlive

theorem Delivering.step {answer : List (VibeEvent π)}
    (h : Delivering type maxEmptyPolls answer c) (a : StreamAction φ) :
    Delivering type maxEmptyPolls answer (c.step type b maxEmptyPolls validate runId a).1 ∧
      stepsLeft answer (c.step type b maxEmptyPolls validate runId a).1 ≤
        stepsLeft answer c - advances [a] := by
  have hmirrors : Mirrors type (c.step type b maxEmptyPolls validate runId a).1 :=
    h.mirrors.step a
  cases a with
  | publish p =>
    have hanswered : emit type (publish validate runId c.log p).1.events = (answer, true) := by
      rw [emit_publish (by rw [h.answered]), h.answered]
    exact ⟨⟨hmirrors, hanswered, h.live⟩, le_rfl⟩
  | update status => exact ⟨⟨hmirrors, h.answered, h.live⟩, le_rfl⟩
  | advance => exact h.advance

/-- A stream with no step left is closed. -/
theorem Delivering.closed {answer : List (VibeEvent π)}
    (h : Delivering type maxEmptyPolls answer c) (hnone : stepsLeft answer c = 0) :
    c.phase = .closed := by
  by_contra hopen
  have hleft := h.left hopen
  have hlive := h.live
  cases hphase : c.phase with
  | fetch =>
    simp only [stepsLeft, hphase] at hnone
    omega
  | check =>
    simp only [stepsLeft, hphase] at hnone
    omega
  | closed => exact hopen hphase
  | timedOut => simp [Live, hphase] at hlive

theorem Delivering.run {answer : List (VibeEvent π)}
    (h : Delivering type maxEmptyPolls answer c) (more : List (StreamAction φ))
    (henough : stepsLeft answer c ≤ advances more) :
    (final (EventStream.step type b maxEmptyPolls validate runId) c more).phase = .closed := by
  induction more generalizing c with
  | nil => exact h.closed (Nat.le_zero.mp henough)
  | cons a more ih =>
    obtain ⟨hnext, hsteps⟩ : Delivering type maxEmptyPolls answer
        (c.step type b maxEmptyPolls validate runId a).1 ∧ _ := h.step a
    refine ih hnext ?_
    have hcount : advances (a :: more) = advances [a] + advances more := by
      rw [advances, advances, advances, ← List.countP_append, List.singleton_append]
    omega

theorem timedOut_run (h : c.phase = .timedOut) (more : List (StreamAction φ)) :
    (final (EventStream.step type b maxEmptyPolls validate runId) c more).phase = .timedOut := by
  refine final_inv (I := fun d : EventStream π => d.phase = .timedOut) ?_ h
  intro d a hd
  cases a with
  | publish p => exact hd
  | update status => exact hd
  | advance =>
    have hsame : d.advance type b maxEmptyPolls = d := by rw [EventStream.advance, hd]
    rwa [EventStream.step, hsame]

/-- A stream that is on its last empty poll can be made to time out. -/
theorem timedOut_of_not_live (h : ¬ Live maxEmptyPolls c) (more : List (StreamAction φ)) :
    (final (EventStream.step type b maxEmptyPolls validate runId) c
      (.update (some "completed") :: .advance :: .advance :: more)).phase = .timedOut := by
  cases hphase : c.phase with
  | fetch =>
    have hpolls : ¬ (c.emptyPolls : ℤ) < maxEmptyPolls := by simpa [Live, hphase] using h
    refine timedOut_run ?_ (.advance :: more)
    simp [EventStream.step, EventStream.advance, hphase, hpolls]
  | check =>
    have hpolls : ¬ (c.emptyPolls : ℤ) + 1 < maxEmptyPolls := by simpa [Live, hphase] using h
    refine timedOut_run ?_ more
    simp [EventStream.step, EventStream.advance, hphase, hpolls, terminalStatus]
  | closed => simp [Live, hphase] at h
  | timedOut => exact timedOut_run hphase _

/-- In every interleaving of a stream's steps with publishes and changes of the run's status, the
events sent are a first part of the answer (the stored events up to the first `done` or `error`),
and the stream is closed when they are all of it; once the answer is stored, the stream delivers
it in every continuation that gives it the steps for the pages left exactly when it has not yet
counted its last empty poll. -/
theorem stream_delivers (status : Option String) (acts : List (StreamAction φ)) :
    ∀ c, c = final (EventStream.step type b maxEmptyPolls validate runId) (.start status) acts →
      (c.sent <+: (emit type c.log.events).1 ∧
        (c.phase = .closed ↔
          c.sent = (emit type c.log.events).1 ∧ (emit type c.log.events).2 = true)) ∧
      ((emit type c.log.events).2 = true →
        (Live maxEmptyPolls c ↔
          ∀ more, stepsLeft (emit type c.log.events).1 c ≤ advances more →
            (final (EventStream.step type b maxEmptyPolls validate runId) c more).sent =
              (emit type c.log.events).1)) := by
  rintro c rfl
  generalize hc : final (EventStream.step type b maxEmptyPolls validate runId) (.start status)
    acts = c
  have hmirrors : Mirrors type c := hc ▸ final_inv (fun _ a h => h.step a) (.start status)
  refine ⟨hmirrors.answer, fun hends => ?_⟩
  have hlater : ∀ more, emit type (final (EventStream.step type b maxEmptyPolls validate runId) c
      more).log.events = emit type c.log.events := emit_run hends
  have hfinal : ∀ more, Mirrors type
      (final (EventStream.step type b maxEmptyPolls validate runId) c more) :=
    fun more => final_inv (fun _ a h => h.step a) hmirrors
  constructor
  · intro hlive more henough
    have hdelivering : Delivering type maxEmptyPolls (emit type c.log.events).1 c :=
      ⟨hmirrors, Prod.ext rfl hends, hlive⟩
    have hclosed := (hfinal more).answer.2.mp (hdelivering.run more henough)
    rw [hclosed.1, hlater]
  · intro hall
    by_contra hlive
    have hsteps := hall (.update (some "completed") :: .advance :: .advance ::
      List.replicate (stepsLeft (emit type c.log.events).1 c) .advance) ?_
    · have hclosed := (hfinal _).answer.2.mpr ⟨hsteps.trans (by rw [hlater]), by rw [hlater, hends]⟩
      rw [timedOut_of_not_live hlive] at hclosed
      cases hclosed
    · simp only [advances, List.countP_cons, List.countP_replicate, StreamAction.isAdvance]
      simp only [if_true]
      omega

/-- A text fragment is streamed before the run is done. -/
def fragmentAndDone : List (StreamAction String) :=
  [.publish ⟨⟨"evt_1", none, none, "delta"⟩, "evt_0", "2026-01-01T00:00:00+00:00"⟩, .advance,
    .publish ⟨⟨"evt_2", none, none, "done"⟩, "evt_0", "2026-01-01T00:00:01+00:00"⟩]

theorem stream_delivers_fragmentAndDone :
    (final (EventStream.step id .redis 60 some "run")
      (final (EventStream.step id .redis 60 some "run") (.start (some "running")) fragmentAndDone)
      [.update (some "completed"), .advance]).sent.map VibeEvent.eventId = ["evt_1", "evt_2"] := by
  rw [((stream_delivers (some "running") fragmentAndDone _ rfl).2 (by decide)).mp (by decide) _
    (by decide)]
  decide

end Pyharmonics.Vibe
