import Pyharmonics.Library.Machines
import Pyharmonics.VibeSettlement

/-! A run and the requests that cancel it, interleaved call by call over the run's record. -/
namespace Pyharmonics.VibeAgent

open Programs Programs.Program Machines

variable {J : Type}

/-- What the processes share of a run: its record (the Redis key, or the row) and its signal. -/
structure Shared where
  record : Option RunRecord
  signalled : Bool := false

/-- A call on what is shared. A store's own memory is new with the store and holds no run. -/
def Shared.serve (backend : RunBackend) (s : Shared) :
    (c : VibeCall J) → Except Raised (Answer J c) → Shared × Except Raised (Answer J c)
  | .loadRun, .ok _ => (s, .ok (if backend = .redis then s.record else none))
  | .saveRun run, .ok _ => (if backend = .redis then { s with record := some run } else s, .ok ())
  | .updateRow updates, .ok _ => ({ s with record := s.record.map (·.update updates) }, .ok ())
  | .getRun, .ok _ => (s, .ok (if backend = .memory then none else s.record))
  | .isCancelled, .ok polled => (s, .ok (polled && s.signalled))
  | .signalCancelRun, .ok _ => ({ s with signalled := true }, .ok ())
  | .unregisterRun, .ok _ => ({ s with signalled := false }, .ok ())
  | _, reply => (s, reply)

/-- The run's job and the requests to cancel it, each with what it has left to do. -/
structure Site (J : Type) where
  shared : Shared
  agent : VibeProgram J Unit
  requests : ℕ → VibeProgram J Unit

/-- Who is next, the job or a request, and how the world answers. -/
structure Turn (J : Type) where
  party : Option ℕ
  reply : (c : VibeCall J) → Except Raised (Answer J c)

def Site.step (backend : RunBackend) (s : Site J) (turn : Turn J) : Site J × Unit :=
  match turn.party with
  | none =>
    let next := s.agent.advance (Shared.serve backend) s.shared turn.reply
    ({ s with shared := next.1, agent := next.2 }, ())
  | some i =>
    let next := (s.requests i).advance (Shared.serve backend) s.shared turn.reply
    ({ s with shared := next.1, requests := Function.update s.requests i next.2 }, ())

/-- The job and the requests of any users at any times, before any of them has begun. -/
def Site.opening (job : Job J) (userId now : ℕ → String) (shared : Shared) : Site J where
  shared
  agent := runVibeAgent job
  requests i := cancelRun job.backend (userId i) (now i)

/-- The stored status is `cancelled`. -/
def Shared.Cancelled (s : Shared) : Prop := s.record.map (·.status) = some .cancelled

instance decidableCancelled (s : Shared) : Decidable s.Cancelled :=
  inferInstanceAs (Decidable (_ = _))

/-- The call stores the run. -/
def VibeCall.Stores (backend : RunBackend) : VibeCall J → Prop
  | .saveRun _ => backend = .redis
  | .updateRow _ => True
  | _ => False

/-- The job is about to store its own end over a cancellation. -/
def Overwrites (backend : RunBackend) (s : Site J) (turn : Turn J) : Prop :=
  match turn.party, s.agent with
  | none, .call c _ => s.shared.Cancelled ∧ c.Stores backend ∧ (turn.reply c).isOk = true
  | _, _ => False

variable {job : Job J} {backend : RunBackend} {userId now : ℕ → String} {s : Site J}
  {shared : Shared} {turn : Turn J} {c : VibeCall J}
  {reply : Except Raised (Answer J c)} {out : Outcome J}

/-- A stored cancellation is kept by the calls that store no run or a cancelled one, and by no
others. -/
theorem cancelled_serve_iff (h : shared.Cancelled) : (shared.serve backend c reply).1.Cancelled ↔
    (c.Stores backend ∧ reply.isOk = true → c.storedStatus = some .cancelled) := by
  cases c with
  | saveRun run =>
    cases reply with
    | ok u =>
      by_cases hredis : backend = .redis
      · simp [Shared.serve, Shared.Cancelled, VibeCall.Stores, VibeCall.storedStatus, hredis,
          Except.isOk, Except.toBool]
      · simpa [Shared.serve, VibeCall.Stores, hredis] using h
    | error e => simpa [Shared.serve, Except.isOk, Except.toBool] using h
  | updateRow updates =>
    cases reply with
    | ok u =>
      obtain ⟨run, hrun, -⟩ := Option.map_eq_some_iff.mp h
      simp [Shared.serve, Shared.Cancelled, VibeCall.Stores, VibeCall.storedStatus, hrun,
        Except.isOk, Except.toBool]
    | error e => simpa [Shared.serve, Except.isOk, Except.toBool] using h
  | _ =>
    refine iff_of_true ?_ fun hs => hs.1.elim
    cases reply with
    | ok a => exact h
    | error e => exact h

/-- A party that never stores `cancelled` ends a cancellation with each run it stores. -/
theorem cancelled_serve_of_ne (h : shared.Cancelled) (hc : c.storedStatus ≠ some .cancelled) :
    (shared.serve backend c reply).1.Cancelled ↔ ¬ (c.Stores backend ∧ reply.isOk = true) := by
  rw [cancelled_serve_iff h]
  exact imp_iff_not hc

/-- A party that stores nothing but `cancelled` keeps a cancellation. -/
theorem cancelled_serve_of_eq (h : shared.Cancelled)
    (hc : c.storedStatus = none ∨ c.storedStatus = some .cancelled) :
    (shared.serve backend c reply).1.Cancelled := by
  rw [cancelled_serve_iff h]
  rintro ⟨hstores, -⟩
  rcases hc with hnone | hcancelled
  · cases c with
    | saveRun run => cases hnone
    | updateRow updates => cases hnone
    | _ => exact hstores.elim
  · exact hcancelled

/-- The job never stores `cancelled`, a request nothing else. -/
structure Site.Marked (s : Site J) : Prop where
  agent : s.agent.Only fun c => c.storedStatus ≠ some .cancelled
  requests : ∀ i, (s.requests i).Only fun c =>
    c.storedStatus = none ∨ c.storedStatus = some .cancelled

theorem Site.Marked.step (h : s.Marked) : (s.step backend turn).1.Marked := by
  obtain ⟨party, reply⟩ := turn
  cases party with
  | none => exact ⟨h.agent.advance, h.requests⟩
  | some i =>
    refine ⟨h.agent, ?_⟩
    intro j
    change (Function.update s.requests i _ j).Only _
    by_cases hj : j = i
    · subst hj
      rw [Function.update_self]
      exact (h.requests j).advance
    · rw [Function.update_of_ne hj]
      exact h.requests j

/-- A step keeps a stored cancellation exactly when the job does not store its end over it. -/
theorem keeps_cancelled_iff (h : s.Marked) :
    (s.shared.Cancelled → (s.step backend turn).1.shared.Cancelled) ↔
      ¬ Overwrites backend s turn := by
  obtain ⟨shared, agent, requests⟩ := s
  obtain ⟨party, reply⟩ := turn
  cases party with
  | none =>
    cases agent with
    | done a => simp [Site.step, advance, Overwrites]
    | raise x => simp [Site.step, advance, Overwrites]
    | call c next =>
      change (shared.Cancelled → (shared.serve backend c (reply c)).1.Cancelled) ↔
        ¬ (shared.Cancelled ∧ c.Stores backend ∧ (reply c).isOk = true)
      rw [not_and]
      refine imp_congr_right ?_
      intro hcancelled
      exact cancelled_serve_of_ne hcancelled h.agent.1
  | some i =>
    refine iff_of_true ?_ id
    intro hcancelled
    have hi := h.requests i
    change ((requests i).advance (Shared.serve backend) shared reply).1.Cancelled
    change (requests i).Only _ at hi
    cases hrequest : requests i with
    | done a => exact hcancelled
    | raise x => exact hcancelled
    | call c next =>
      rw [hrequest] at hi
      exact cancelled_serve_of_eq hcancelled hi.1

theorem storedStatus_eq_none (hc : c.stage ≠ .closing) : c.storedStatus = none := by
  cases c with
  | saveRun run => exact absurd rfl hc
  | updateRow updates => exact absurd rfl hc
  | _ => rfl

theorem yields_converse {codec : Codec J} {tools : J} {n : ℕ} {s : LoopState J} :
    (converse codec tools n s).Yields fun r => r.2 ≠ .cancelled := by
  induction n generalizing s with
  | zero => exact RunStatus.noConfusion
  | succ n ih =>
    refine Yields.seq fun _ => Yields.seq fun response => ?_
    split
    · trivial
    · split
      · exact Yields.seq fun _ => RunStatus.noConfusion
      · exact Yields.seq fun _ => ih

/-- No outcome of the loop is a cancellation: what is polled is raised, and fails. -/
theorem yields_attempt {prepared : Prepared J} :
    (attempt job prepared).Yields fun out => out.status ≠ .cancelled := by
  refine Yields.handle (yields_converse.map fun r hr => hr) ?_
  rintro ⟨x, s⟩
  cases x with
  | exception message => exact Yields.seq fun _ => RunStatus.noConfusion
  | exit => trivial

theorem ne_cancelled_of_none (hc : c.storedStatus = none) : c.storedStatus ≠ some .cancelled := by
  simp [hc]

theorem ne_cancelled_of_stage (hc : c.stage ≠ .closing) : c.storedStatus ≠ some .cancelled :=
  ne_cancelled_of_none (storedStatus_eq_none hc)

theorem only_setup {α : Type} {p : VibeProgram J α} (hp : SetupCovered p) :
    p.Only fun c => c.storedStatus ≠ some .cancelled := by
  refine hp.only.mono ?_
  intro c hc
  exact ne_cancelled_of_stage (by simp [hc])

theorem only_settle : (settle job out).Only fun c => c.storedStatus ≠ some .cancelled := by
  unfold settle
  split
  · split
    · exact only_perform.mpr (ne_cancelled_of_none rfl)
    · exact only_perform_bind.mpr ⟨ne_cancelled_of_none rfl, fun _ => only_pure⟩
  · exact only_pure

theorem only_consumeAgain {consumed : Bool} :
    (consumeAgain job out consumed).Only fun c => c.storedStatus ≠ some .cancelled := by
  unfold consumeAgain
  split
  · exact only_perform.mpr (ne_cancelled_of_none rfl)
  · exact only_pure

theorem only_run : (run job).Only fun c => c.storedStatus ≠ some .cancelled := by
  refine (only_setup covered_prepare).seq fun prepared => ?_
  have hattempt : (attempt job prepared).Only fun c => c.storedStatus ≠ some .cancelled :=
    only_attempt.mono fun c => ne_cancelled_of_stage
  refine hattempt.seq_of_yields yields_attempt fun out hout => ?_
  refine only_settle.seq fun consumed => only_finish ?_ only_consumeAgain
  rintro c ⟨-, -, hnone | hsome⟩
  · exact ne_cancelled_of_none hnone
  · simpa [hsome] using hout

theorem only_runVibeAgent : (runVibeAgent job).Only fun c => c.storedStatus ≠ some .cancelled := by
  refine (only_setup covered_buildDependencies).seq fun _ => ?_
  exact only_run.always (only_perform.mpr (ne_cancelled_of_none rfl))

theorem only_ignore {S : VibeCall J → Prop} {p : VibeProgram J Unit} (hp : p.Only S) :
    (ignore p).Only S :=
  only_rescue hp fun _ => only_pure

theorem only_stopJob {found : Bool} :
    (stopJob (J := J) found).Only (VibeCall.Reports .cancelled) := by
  cases found with
  | true =>
    refine only_perform_bind.mpr ⟨reports_of_none rfl rfl rfl, fun _ => ?_⟩
    exact only_ignore (only_perform.mpr (reports_of_none rfl rfl rfl))
  | false => exact only_pure

theorem only_cancelSteps {userId now : String} :
    (cancelSteps (J := J) backend userId now).Only (VibeCall.Reports .cancelled) := by
  refine only_perform_bind.mpr ⟨reports_of_none rfl rfl rfl, fun found => ?_⟩
  refine only_stopJob.seq fun _ => ?_
  exact only_perform_bind.mpr ⟨reports_of_none rfl rfl rfl, fun _ => reports_updateRun rfl⟩

theorem only_cancelRun {userId now : String} : (cancelRun (J := J) backend userId now).Only
    fun c => c.storedStatus = none ∨ c.storedStatus = some .cancelled := by
  refine only_perform_bind.mpr ⟨.inl rfl, fun run => ?_⟩
  split
  · exact only_ignore (only_cancelSteps.mono fun c hc => hc.2.2)
  · exact only_pure

theorem marked_opening {shared : Shared} : (Site.opening job userId now shared).Marked :=
  ⟨only_runVibeAgent, fun _ => only_cancelRun⟩

/-- A stored `cancelled` stays in every run of the job and of any requests that cancel it exactly
when the job never stores its own end over it. -/
theorem stays_cancelled_iff (job : Job J) (userId now : ℕ → String) (shared : Shared)
    (turns : List (Turn J)) :
    (∀ ys zs, ys ++ zs <+: turns →
      (final (Site.step job.backend) (.opening job userId now shared) ys).shared.Cancelled →
      (final (Site.step job.backend) (.opening job userId now shared) (ys ++ zs)).shared.Cancelled) ↔
    Along (Site.step job.backend) (fun s turn => ¬ Overwrites job.backend s turn)
      (.opening job userId now shared) turns := by
  rw [← along_iff_related (S := fun s s' : Site J => s.shared.Cancelled → s'.shared.Cancelled)
    (fun _ => id) fun _ _ _ hab hbc => hbc ∘ hab]
  refine along_congr (I := Site.Marked) ?_ marked_opening
  exact fun s turn h => ⟨keeps_cancelled_iff h, h.step⟩

/-- A world in which every call returns and a poll sees the signal. -/
def pollingReply : (c : VibeCall Unit) → Except Raised (Answer Unit c)
  | .isCancelled => .ok true
  | c => quietReply c

/-- A request cancels the run before its job has begun; then the job runs to its end. -/
def cancelledEarly : Site Unit :=
  .opening quietJob (fun _ => "trader") (fun _ => "2026-01-04T00:00:00+00:00")
    { record := some { status := .running, userPrompt := "BTC?" } }

/-- The job polls the cancellation, and stores its failure over it. -/
theorem cancelledEarly_fails : ¬ ∀ ys zs,
    ys ++ zs <+: List.replicate 5 ⟨some 0, pollingReply⟩ ++
      List.replicate 19 ⟨none, pollingReply⟩ →
    (final (Site.step quietJob.backend) cancelledEarly ys).shared.Cancelled →
    (final (Site.step quietJob.backend) cancelledEarly (ys ++ zs)).shared.Cancelled := by
  intro h
  have hstored : (final (Site.step quietJob.backend) cancelledEarly
      (List.replicate 5 ⟨some 0, pollingReply⟩)).shared.Cancelled := by
    decide +kernel
  have hfailed : (final (Site.step quietJob.backend) cancelledEarly
      (List.replicate 5 ⟨some 0, pollingReply⟩ ++
        List.replicate 19 ⟨none, pollingReply⟩)).shared.record.map (·.status) = some .failed := by
    decide +kernel
  have hkept : _ = _ := h _ _ List.prefix_rfl hstored
  rw [hfailed] at hkept
  cases hkept

end Pyharmonics.VibeAgent
