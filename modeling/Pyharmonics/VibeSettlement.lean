import Pyharmonics.VibeOrchestrator

/-! The quota of a run: what is settled on each way out of its job. -/
namespace Pyharmonics.VibeAgent

open Programs Programs.Program

variable {J : Type}

/-- The call consumes or releases the ledger entry. -/
def VibeCall.settles : VibeCall J → Bool
  | .consumeLedgerQuota _ _ | .releaseLedgerQuota => true
  | _ => false

/-- How often the ledger entry is consumed or released. -/
def settlements (t : VibeTrace J) : ℕ := t.countP fun v => v.call.settles

/-- A ledger call succeeds. -/
def Granted : Event (VibeCall J) (Answer J) Raised → Prop
  | ⟨.consumeLedgerQuota _ _, answer⟩ => answer = .ok true
  | ⟨.releaseLedgerQuota, answer⟩ => answer = .ok true
  | _ => True

/-- Where in a job a call is made: before the loop, in it, in its handler, or after it. -/
inductive Stage
  | setup | loop | handler | closing
  deriving DecidableEq

def VibeCall.stage : VibeCall J → Stage
  | .publish .runStarted => .setup
  | .publish (.toolCallStart _ _ _) | .publish (.toolCallEnd _ _ _) | .publish (.delta _) => .loop
  | .publish (.error _ _ _) => .handler
  | .createMessage .user _ _ => .setup
  | .registerRun | .createLlmProvider | .analysisOrchestrator | .createDefaultRegistry => .setup
  | .sessionStore | .eventStore | .traceStore => .setup
  | .getSession | .loadPosition | .getSchemas | .getPromptDescription | .listMessages _ => .setup
  | .isCancelled | .chat _ _ | .executeTool _ _ => .loop
  | _ => .closing

/-- The job goes on to its settlement, or is past it, when the call raises this. -/
def Survives (c : VibeCall J) (e : Raised) : Prop :=
  match c.stage with
  | .setup => c = .loadPosition ∧ e ≠ .exit
  | .loop => e ≠ .exit
  | .handler => False
  | .closing => True

/-- Whatever is raised, the job survives. -/
def Calm (t : VibeTrace J) : Prop := ∀ v ∈ t, ∀ e, v.Raised e → Survives v.call e

variable {job : Job J} {prepared : Prepared J} {out : Outcome J} {s : LoopState J}
  {t t' : VibeTrace J} {α η : Type} {p : Program (VibeCall J) (Answer J) Raised η α} {o : Except η α}
  {c : VibeCall J} {e : Raised}

@[simp] theorem settlements_append : settlements (t ++ t') = settlements t + settlements t' :=
  List.countP_append

@[simp] theorem calm_append : Calm (t ++ t') ↔ Calm t ∧ Calm t' := List.forall_mem_append

theorem survives_loop (hc : c.stage = .loop) : Survives c e ↔ e ≠ .exit := by
  rw [Survives, hc]

theorem survives_closing (hc : c.stage = .closing) : Survives c e := by
  rw [Survives, hc]
  trivial

theorem settlements_quiet (hp : p.Only fun c => c.settles = false) (h : Path p t o) :
    settlements t = 0 := by
  rw [settlements, List.countP_eq_zero]
  intro v hv
  simp [hp.on_path h v hv]

theorem calm_closing (hp : p.Only fun c => c.stage = .closing) (h : Path p t o) : Calm t := by
  intro v hv e _
  exact survives_closing (hp.on_path h v hv)

theorem only_rescue {S : VibeCall J → Prop} {p : VibeProgram J α} {h : String → VibeProgram J α}
    (hp : p.Only S) (hh : ∀ m, (h m).Only S) : (rescue p h).Only S := by
  refine hp.handle ?_
  intro x
  cases x with
  | exception message => exact hh message
  | exit => trivial

theorem only_lift {S : VibeCall J → Prop} {r : Except Raised α} :
    (lift r : VibeProgram J α).Only S := by
  cases r with
  | ok a => trivial
  | error e => trivial

/-- What is raised before the loop ends the job, but for what `_load_position` catches. -/
abbrev Breaks (c : VibeCall J) (e : Raised) : Prop := ¬ Survives c e

theorem breaks_setup (hc : c.stage = .setup) (hne : c ≠ .loadPosition) (e : Raised) :
    Breaks c e := by
  rw [Breaks, Survives, hc]
  exact fun h => hne h.1

/-- A set-up program raises what breaks the job, and nothing else. -/
abbrev SetupCovered (p : VibeProgram J α) : Prop :=
  Covered (fun c => c.stage = .setup) Breaks (fun _ => False) id p

/-- The set-up is survived exactly when it returns. -/
theorem calm_iff_returns {p : VibeProgram J α} {o : Except Raised α}
    (hp : SetupCovered p) (h : Path p t o) : Calm t ↔ ∃ a, o = .ok a := by
  cases o with
  | ok a =>
    refine iff_of_true ?_ ⟨a, rfl⟩
    intro v hv e he
    by_contra hbreaks
    obtain ⟨x, hx, -⟩ := hp.passes _ _ h v hv e he hbreaks
    cases hx
  | error x =>
    refine iff_of_false ?_ ?_
    · intro hcalm
      rcases hp.raises _ _ h with hfalse | ⟨v, hv, he, hbreaks⟩
      · exact hfalse
      · exact hbreaks (hcalm v hv _ he)
    · rintro ⟨a, ha⟩
      cases ha

theorem covered_ask (hc : c.stage = .setup) (hne : c ≠ .loadPosition) :
    SetupCovered (ask c) :=
  covered_perform hc (breaks_setup hc hne) fun _ => rfl

/-- The paths through one rescued call. -/
theorem path_rescue_ask {h : String → VibeProgram J (Answer J c)} {o : Except Raised (Answer J c)}
    (hpath : Path (rescue (ask c) h) t o) :
    (∃ a, t = [⟨c, .ok a⟩] ∧ o = .ok a) ∨ (t = [⟨c, .error .exit⟩] ∧ o = .error .exit) ∨
      ∃ m t', t = ⟨c, .error (.exception m)⟩ :: t' ∧ Path (h m) t' o := by
  obtain ⟨r, t', rfl, hnext⟩ := path_call.mp hpath
  cases r with
  | ok a =>
    obtain ⟨rfl, rfl⟩ := path_done.mp hnext
    exact .inl ⟨a, rfl, rfl⟩
  | error e =>
    cases e with
    | exception m => exact .inr (.inr ⟨m, t', rfl, hnext⟩)
    | exit =>
      obtain ⟨rfl, rfl⟩ := path_raise.mp hnext
      exact .inr (.inl ⟨rfl, rfl⟩)

theorem covered_loadPosition : SetupCovered (J := J) loadPosition := by
  constructor
  · exact only_rescue (only_perform.mpr rfl) fun _ => only_pure
  · intro t o h v hv e he hbreaks
    rcases path_rescue_ask h with ⟨a, rfl, rfl⟩ | ⟨rfl, rfl⟩ | ⟨m, t', rfl, hpure⟩
    · rw [List.mem_singleton] at hv
      subst hv
      cases he
    · rw [List.mem_singleton] at hv
      subst hv
      cases he
      exact ⟨_, rfl, rfl⟩
    · obtain ⟨rfl, rfl⟩ := path_done.mp hpure
      rw [List.mem_singleton] at hv
      subst hv
      cases he
      exact absurd ⟨rfl, by simp⟩ hbreaks
  · intro t x h
    rcases path_rescue_ask h with ⟨a, -, hx⟩ | ⟨rfl, hx⟩ | ⟨m, t', rfl, hpure⟩
    · cases hx
    · cases hx
      exact .inr ⟨_, List.mem_singleton.mpr rfl, rfl, fun hs => hs.2 rfl⟩
    · cases (path_done.mp hpure).2

theorem covered_register : SetupCovered (register job) := by
  by_cases htoken : job.tokenGiven
  · rw [register, if_pos htoken]
    exact covered_pure
  · rw [register, if_neg htoken]
    exact covered_ask rfl (by simp)

theorem covered_buildDependencies : SetupCovered (buildDependencies job) := by
  refine covered_register.seq fun _ => ?_
  refine (covered_ask rfl (by simp)).seq fun _ => ?_
  refine (covered_ask rfl (by simp)).seq fun _ => ?_
  refine (covered_ask rfl (by simp)).seq fun _ => ?_
  refine (covered_ask rfl (by simp)).seq fun _ => ?_
  refine (covered_ask rfl (by simp)).seq fun _ => ?_
  exact covered_ask rfl (by simp)

theorem covered_prepare : SetupCovered (prepare job) := by
  refine (covered_ask rfl (by simp)).seq fun _ => ?_
  refine (covered_ask rfl (by simp)).seq fun _ => ?_
  refine covered_loadPosition.seq fun _ => ?_
  refine (covered_ask rfl (by simp)).seq fun _ => ?_
  refine (covered_ask rfl (by simp)).seq fun _ => ?_
  refine (covered_ask rfl (by simp)).seq fun _ => ?_
  refine (covered_ask rfl (by simp)).seq fun _ => ?_
  exact covered_pure

/-- A program of the loop raises what its calls raise, and exceptions. -/
abbrev LoopCovered (p : LoopProgram J α) : Prop :=
  Covered (fun c => c.stage = .loop) (fun _ _ => True) (· ≠ .exit) Prod.fst p

theorem covered_during (hc : c.stage = .loop) : LoopCovered (during s c) :=
  covered_perform hc (fun _ => trivial) fun _ => rfl

theorem covered_checkCancelled : LoopCovered (checkCancelled s) := by
  refine (covered_during rfl).seq fun cancelled => ?_
  cases cancelled with
  | true => exact covered_raise (by simp)
  | false => exact covered_pure

theorem covered_executeTool {tc : ToolCall J} : LoopCovered (executeTool s tc) := by
  refine (covered_during rfl).seq fun _ => ?_
  refine (covered_during rfl).seq fun _ => ?_
  refine (covered_during rfl).seq fun _ => ?_
  exact covered_pure

theorem covered_callTools {codec : Codec J} {calls : List (ToolCall J)} :
    LoopCovered (callTools codec s calls) := by
  induction calls generalizing s with
  | nil => exact covered_pure
  | cons tc rest ih =>
    refine covered_checkCancelled.seq fun _ => ?_
    exact covered_executeTool.seq fun output => ih

theorem covered_streamDeltas {chunks : List String} : LoopCovered (streamDeltas s chunks) := by
  induction chunks with
  | nil => exact covered_pure
  | cons chunk rest ih => exact (covered_during rfl).seq fun _ => ih

theorem covered_converse {codec : Codec J} {tools : J} {n : ℕ} :
    LoopCovered (converse codec tools n s) := by
  induction n generalizing s with
  | zero => exact covered_pure
  | succ n ih =>
    refine covered_checkCancelled.seq fun _ => ?_
    refine (covered_during rfl).seq fun response => ?_
    split
    · exact covered_raise (by simp)
    · split
      · exact covered_streamDeltas.seq fun _ => covered_pure
      · exact covered_callTools.seq fun _ => ih

theorem settles_eq_false (hc : c.stage ≠ .closing) : c.settles = false := by
  cases c with
  | consumeLedgerQuota inputTokens outputTokens => exact absurd rfl hc
  | releaseLedgerQuota => exact absurd rfl hc
  | _ => rfl

/-- The loop is survived exactly when the worker is. -/
theorem calm_converse {codec : Codec J} {tools : J} {n : ℕ}
    {o : Except (Raised × LoopState J) (LoopState J × RunStatus)}
    (h : Path (converse codec tools n s) t o) : Calm t ↔ ∀ s', o ≠ .error (.exit, s') := by
  have hcov : LoopCovered (converse codec tools n s) := covered_converse
  constructor
  · rintro hcalm s' rfl
    rcases hcov.raises _ _ h with hexit | ⟨v, hv, he, -⟩
    · exact hexit rfl
    · exact (survives_loop (hcov.only.on_path h v hv)).mp (hcalm v hv _ he) rfl
  · intro hno v hv e he
    refine (survives_loop (hcov.only.on_path h v hv)).mpr ?_
    rintro rfl
    obtain ⟨⟨x, s'⟩, rfl, rfl⟩ := hcov.passes _ _ h v hv _ he trivial
    exact hno s' rfl

theorem only_attempt : (attempt job prepared).Only fun c => c.stage ≠ .closing := by
  refine Only.handle (Only.bind (covered_converse.only.mono ?_) fun _ => only_done) ?_
  · intro c hc
    simp [hc]
  · rintro ⟨x, s⟩
    cases x with
    | exception message => exact only_perform_bind.mpr ⟨by simp [VibeCall.stage], fun _ => only_pure⟩
    | exit => exact only_raise

theorem calm_handler {x : Raised × LoopState J} {o : Except Raised (Outcome J)}
    (h : Path (handler x) t o) : Calm t ∧ x.1 ≠ .exit ↔ ∃ out, o = .ok out := by
  obtain ⟨x, s⟩ := x
  cases x with
  | exception message =>
    rcases path_perform_bind.mp h with ⟨u, t', rfl, hpure⟩ | ⟨e, rfl, rfl⟩
    · obtain ⟨rfl, rfl⟩ := path_done.mp hpure
      refine iff_of_true ⟨?_, by simp⟩ ⟨_, rfl⟩
      intro v hv e he
      rw [List.mem_singleton] at hv
      subst hv
      cases he
    · refine iff_of_false ?_ ?_
      · rintro ⟨hcalm, -⟩
        exact hcalm _ (List.mem_singleton.mpr rfl) e rfl
      · rintro ⟨out, hout⟩
        cases hout
  | exit =>
    obtain ⟨rfl, rfl⟩ := path_raise.mp h
    refine iff_of_false (fun hx => hx.2 rfl) ?_
    rintro ⟨out, hout⟩
    cases hout

/-- The loop and its handler are survived exactly when they return. -/
theorem calm_attempt {o : Except Raised (Outcome J)} (h : Path (attempt job prepared) t o) :
    Calm t ↔ ∃ out, o = .ok out := by
  rcases path_handle.mp h with ⟨out, rfl, hloop⟩ | ⟨x, t₁, t₂, rfl, h₁, h₂⟩
  · refine iff_of_true ?_ ⟨out, rfl⟩
    rcases path_bind.mp hloop with ⟨r, t₁, t₂, rfl, h₁, h₂⟩ | ⟨x, hx, -⟩
    · rw [(path_done.mp h₂).1, List.append_nil]
      exact (calm_converse h₁).mpr fun s' hs => by cases hs
    · cases hx
  · rw [calm_append, ← calm_handler h₂]
    rcases path_bind.mp h₁ with ⟨r, s₁, s₂, -, -, hdone⟩ | ⟨x', hx, h₁⟩
    · cases (path_done.mp hdone).2
    · cases hx
      rw [calm_converse h₁, and_comm]
      refine and_congr_right fun _ => ?_
      constructor
      · rintro hno hexit
        exact hno x.2 (by rw [← hexit])
      · rintro hne s' hs
        cases hs
        exact hne rfl

theorem granted_consume {s : LoopState J} {o : Except Raised Bool} (h : Path (consume s) t o)
    (hgranted : ∀ v ∈ t, Granted v) : o = .ok true ∧ settlements t = 1 ∧ Calm t := by
  rcases path_perform.mp h with ⟨a, rfl, rfl⟩ | ⟨e, rfl, rfl⟩
  · have hok : (Except.ok a : Except Raised Bool) = .ok true :=
      hgranted _ (List.mem_singleton.mpr rfl)
    refine ⟨hok, rfl, ?_⟩
    exact calm_closing (only_perform.mpr rfl) h
  · cases hgranted _ (List.mem_singleton.mpr rfl)

theorem granted_release {o : Except Raised Bool} (h : Path release t o)
    (hgranted : ∀ v ∈ t, Granted v) : o = .ok false ∧ settlements t = 1 ∧ Calm t := by
  have hcalm : Calm t := calm_closing (only_perform_bind.mpr ⟨rfl, fun _ => only_pure⟩) h
  rcases path_perform_bind.mp h with ⟨a, t', rfl, hpure⟩ | ⟨e, rfl, rfl⟩
  · obtain ⟨rfl, rfl⟩ := path_done.mp hpure
    exact ⟨rfl, rfl, hcalm⟩
  · cases hgranted _ (List.mem_singleton.mpr rfl)

/-- When its call succeeds, the settlement settles once, and says whether it consumed. -/
theorem settle_once {o : Except Raised Bool} (hledger : job.hasLedger)
    (h : Path (settle job out) t o) (hgranted : ∀ v ∈ t, Granted v) :
    o = .ok out.status.isCompleted ∧ settlements t = 1 ∧ Calm t := by
  rw [settle, if_pos hledger] at h
  by_cases hcompleted : out.status.isCompleted
  · rw [if_pos hcompleted] at h
    rw [hcompleted]
    exact granted_consume h hgranted
  · rw [if_neg hcompleted] at h
    rw [Bool.not_eq_true] at hcompleted
    rw [hcompleted]
    exact granted_release h hgranted

/-- A closing call that does not settle, and stores the run with this status if it does. -/
def VibeCall.Reports (status : RunStatus) (c : VibeCall J) : Prop :=
  c.stage = .closing ∧ c.settles = false ∧ (c.storedStatus = none ∨ c.storedStatus = some status)

theorem reports_of_none {status : RunStatus} (hstage : c.stage = .closing)
    (hsettles : c.settles = false) (hstored : c.storedStatus = none) : c.Reports status :=
  ⟨hstage, hsettles, .inl hstored⟩

theorem reports_publishCards {status : RunStatus} {cards : List (Card J)} :
    (publishCards cards).Only (VibeCall.Reports status) := by
  induction cards with
  | nil => exact only_pure
  | cons card rest ih => exact only_perform_bind.mpr ⟨reports_of_none rfl rfl rfl, fun _ => ih⟩

theorem reports_answer {status : RunStatus} : (answer job out).Only (VibeCall.Reports status) := by
  unfold answer
  split
  · exact only_pure
  refine only_lift.seq fun cards => ?_
  exact only_perform_bind.mpr ⟨reports_of_none rfl rfl rfl, fun _ => reports_publishCards⟩

theorem reports_updateKept {updates : RunUpdate} :
    (updateKept (J := J) updates).Only (VibeCall.Reports updates.status) := by
  refine only_perform_bind.mpr ⟨reports_of_none rfl rfl rfl, fun run => ?_⟩
  cases run with
  | none => exact only_pure
  | some run =>
    refine only_rescue (only_perform.mpr ?_) fun _ => only_pure
    exact ⟨rfl, rfl, .inr (congrArg some update_status)⟩

theorem reports_updateRun {backend : RunBackend} {updates : RunUpdate} {status : RunStatus}
    (h : updates.status = status) :
    (updateRun (J := J) backend updates).Only (VibeCall.Reports status) := by
  subst h
  unfold updateRun
  split
  · exact only_rescue (only_perform.mpr ⟨rfl, rfl, .inr rfl⟩) fun _ => reports_updateKept
  · exact reports_updateKept

theorem reports_saveMetadata : (saveMetadata job out).Only (VibeCall.Reports out.status) :=
  only_lift.seq fun _ => reports_updateRun rfl

theorem reports_nameSession {status : RunStatus} :
    (nameSession job prepared).Only (VibeCall.Reports status) := by
  unfold nameSession
  split
  · exact only_perform.mpr (reports_of_none rfl rfl rfl)
  · exact only_pure

/-- The calls after the settlement report the outcome, but for the second attempt to consume. -/
theorem only_finish {S : VibeCall J → Prop} {consumed : Bool}
    (hS : ∀ c, c.Reports out.status → S c) (hagain : (consumeAgain job out consumed).Only S) :
    (finish job prepared out consumed).Only S := by
  refine (reports_answer.mono hS).seq fun _ => ?_
  refine (reports_saveMetadata.mono hS).seq fun _ => ?_
  refine only_perform_bind.mpr ⟨hS _ (reports_of_none rfl rfl rfl), fun _ => ?_⟩
  split
  · exact only_pure
  refine hagain.seq fun _ => ?_
  refine only_perform_bind.mpr ⟨hS _ (reports_of_none rfl rfl rfl), fun _ => ?_⟩
  exact reports_nameSession.mono hS

/-- A run whose quota is settled settles it no more. -/
theorem reports_finish :
    (finish job prepared out out.status.isCompleted).Only (VibeCall.Reports out.status) := by
  refine only_finish (fun _ h => h) ?_
  rw [consumeAgain, if_neg (by simp)]
  exact only_pure

/-- The program settles nothing, and is survived exactly when it returns. -/
def Preliminary (p : VibeProgram J α) : Prop :=
  ∀ t o, Path p t o → settlements t = 0 ∧ (Calm t ↔ ∃ a, o = .ok a)

/-- The program settles once when it is survived, and else never. -/
def SettlesOnce (p : VibeProgram J α) : Prop :=
  ∀ t o, Path p t o → (∀ v ∈ t, Granted v) →
    (Calm t → settlements t = 1) ∧ (¬ Calm t → settlements t = 0)

theorem preliminary_setup {p : VibeProgram J α} (hp : SetupCovered p) : Preliminary p := by
  intro t o h
  refine ⟨settlements_quiet (hp.only.mono ?_) h, calm_iff_returns hp h⟩
  intro c hc
  exact settles_eq_false (by simp [hc])

theorem preliminary_attempt : Preliminary (attempt job prepared) := by
  intro t o h
  exact ⟨settlements_quiet (only_attempt.mono fun c => settles_eq_false) h, calm_attempt h⟩

theorem Preliminary.seq {β : Type} {p : VibeProgram J α} {f : α → VibeProgram J β}
    (hp : Preliminary p) (hf : ∀ a, SettlesOnce (f a)) : SettlesOnce (p >>= f) := by
  intro t o h hgranted
  rcases path_bind.mp h with ⟨a, t₁, t₂, rfl, h₁, h₂⟩ | ⟨x, rfl, h₁⟩
  · obtain ⟨hzero, hcalm⟩ := hp _ _ h₁
    have hgranted₂ : ∀ v ∈ t₂, Granted v := fun v hv => hgranted v (List.mem_append_right _ hv)
    rw [settlements_append, calm_append, hzero, zero_add, and_iff_right (hcalm.mpr ⟨a, rfl⟩)]
    exact hf a _ _ h₂ hgranted₂
  · obtain ⟨hzero, hcalm⟩ := hp _ _ h₁
    rw [hzero, hcalm]
    simp

/-- What follows the settlement reports. -/
theorem settlesOnce_settle (hledger : job.hasLedger) :
    SettlesOnce (settle job out >>= finish job prepared out) := by
  intro t o h hgranted
  rcases path_bind.mp h with ⟨consumed, t₁, t₂, rfl, h₁, h₂⟩ | ⟨x, rfl, h₁⟩
  · obtain ⟨hok, hone, hcalm⟩ :=
      settle_once hledger h₁ fun v hv => hgranted v (List.mem_append_left _ hv)
    cases hok
    have hzero : settlements t₂ = 0 :=
      settlements_quiet (reports_finish.mono fun c hc => hc.2.1) h₂
    have hcalm₂ : Calm t₂ := calm_closing (reports_finish.mono fun c hc => hc.1) h₂
    simp [hone, hzero, hcalm, hcalm₂]
  · cases (settle_once hledger h₁ hgranted).1

theorem settlesOnce_run (hledger : job.hasLedger) : SettlesOnce (run job) := by
  refine (preliminary_setup covered_prepare).seq fun prepared => ?_
  exact preliminary_attempt.seq fun out => settlesOnce_settle hledger

theorem SettlesOnce.always {p : VibeProgram J α} {q : VibeProgram J Unit} (hp : SettlesOnce p)
    (hq : q.Only (VibeCall.Reports .failed)) : SettlesOnce (p.always q) := by
  intro t o h hgranted
  obtain ⟨t₁, t₂, o₁, o₂, rfl, h₁, h₂⟩ := path_always h
  have hzero : settlements t₂ = 0 := settlements_quiet (hq.mono fun c hc => hc.2.1) h₂
  have hcalm : Calm t₂ := calm_closing (hq.mono fun c hc => hc.1) h₂
  rw [settlements_append, calm_append, hzero, add_zero, and_iff_left hcalm]
  exact hp _ _ h₁ fun v hv => hgranted v (List.mem_append_left _ hv)

theorem settlesOnce_runVibeAgent (hledger : job.hasLedger) : SettlesOnce (runVibeAgent job) := by
  refine (preliminary_setup covered_buildDependencies).seq fun _ => ?_
  exact (settlesOnce_run hledger).always (only_perform.mpr (reports_of_none rfl rfl rfl))

theorem giveUp_ne_running {req : SendMessage} {ledgerId started : Option String}
    (h : Path (giveUp (J := J) req ledgerId) t (.ok (.running started))) : False := by
  rcases path_bind.mp h with ⟨_, _, _, -, -, h₁⟩ | ⟨x, hx, -⟩
  · rcases path_bind.mp h₁ with ⟨_, _, _, -, -, h₂⟩ | ⟨x, hx, -⟩
    · cases (path_done.mp h₂).2
    · cases hx
  · cases hx

theorem settlements_launch {req : SendMessage} {ledgerId started : Option String}
    (h : Path (launch (J := J) req ledgerId) t (.ok (.running started))) : settlements t = 0 := by
  rcases path_perform_bind.mp h with ⟨_, t₁, rfl, h₁⟩ | ⟨e, rfl, ⟨⟩⟩
  rcases path_perform_bind.mp h₁ with ⟨enqueued, t₂, rfl, h₂⟩ | ⟨e, rfl, ⟨⟩⟩
  cases enqueued with
  | true =>
    rw [(path_done.mp h₂).1]
    rfl
  | false => exact (giveUp_ne_running h₂).elim

/-- A route that starts a run leaves its ledger entry to the job. -/
theorem settlements_sendMessage {req : SendMessage} {started : Option String}
    (h : Path (sendMessage (J := J) req) t (.ok (.running started))) : settlements t = 0 := by
  rcases path_perform_bind.mp h with ⟨session, t₁, rfl, h₁⟩ | ⟨e, rfl, ⟨⟩⟩
  change settlements t₁ = 0
  split at h₁
  · cases (path_done.mp h₁).2
  split at h₁
  · exact settlements_launch h₁
  rcases path_perform_bind.mp h₁ with ⟨reservation, t₂, rfl, h₂⟩ | ⟨e, rfl, ⟨⟩⟩
  change settlements t₂ = 0
  split at h₂
  · exact settlements_launch h₂
  · cases (path_done.mp h₂).2

theorem settled_at_most_once {o : Except Raised Unit} (hledger : job.hasLedger)
    (hrun : Path (runVibeAgent job) t o) (hgranted : ∀ v ∈ t, Granted v) : settlements t ≤ 1 := by
  obtain ⟨hone, hzero⟩ := settlesOnce_runVibeAgent hledger _ _ hrun hgranted
  by_cases hcalm : Calm t
  · exact (hone hcalm).le
  · simp [hzero hcalm]

/-- A run with a reserved entry settles it, and once, exactly when no set-up call raises (but for
what `_load_position` catches), no call of the loop ends the worker, and the handler's event is
published. -/
theorem settled_once_iff {req : SendMessage} {job : Job J} {t₀ t : VibeTrace J}
    {o : Except Raised Unit} (hstart : Path (sendMessage req) t₀ (.ok (.running job.ledgerId)))
    (hledger : job.hasLedger) (hrun : Path (runVibeAgent job) t o) (hgranted : ∀ v ∈ t, Granted v) :
    settlements (t₀ ++ t) = 1 ↔ Calm t := by
  rw [settlements_append, settlements_sendMessage hstart, zero_add]
  obtain ⟨hone, hzero⟩ := settlesOnce_runVibeAgent hledger _ _ hrun hgranted
  refine ⟨?_, hone⟩
  intro h
  by_contra hcalm
  rw [hzero hcalm] at h
  cases h

/-- A quiet environment: every call returns, and the first answer of the LLM is the last. -/
def quietReply : (c : VibeCall Unit) → Except Raised (Answer Unit c)
  | .reserveUserQuota => .ok (true, some "ledger")
  | .enqueueOrRunSync | .consumeLedgerQuota _ _ | .releaseLedgerQuota => .ok true
  | .isCancelled | .fetchJob => .ok false
  | .getSession => .ok (some {})
  | .loadPosition | .loadRun | .getRun => .ok none
  | .getPromptDescription => .ok ""
  | .listMessages _ => .ok []
  | .chat _ _ => .ok { content := some "hello" }
  | .executeTool _ _ => .ok { status := "completed" }
  | .getSchemas | .createRun _ | .registerRun | .createLlmProvider | .analysisOrchestrator
  | .createDefaultRegistry | .sessionStore | .eventStore | .traceStore | .publish _
  | .createMessage _ _ _ | .saveRun _ | .updateRow _ | .saveTrace _ _ _ | .updateSessionTitle _
  | .unregisterRun | .cancelJob | .sendStopJobCommand | .signalCancelRun => .ok ()

/-- The same, but the trace store cannot make its directory. -/
def readOnlyReply : (c : VibeCall Unit) → Except Raised (Answer Unit c)
  | .traceStore => .error (.exception "[Errno 30] Read-only file system: '/app/vibe_traces'")
  | c => quietReply c

def quietCodec : Codec Unit where
  dumps _ := "{}"
  dumpOutput _ := "{}"
  toolCallsJson _ := ()
  toolNames _ := .ok []
  loads _ := .ok none
  fallbackSignal _ := ()
  now := "2026-01-04T00:00:00+00:00"

def quietRequest : SendMessage := { content := "BTC?", localDevMode := false, backend := .redis }

def quietJob : Job Unit :=
  { userPrompt := "BTC?", ledgerId := some "ledger", tokenGiven := false, backend := .redis
    codec := quietCodec }

theorem granted_of_replies {reply : (c : VibeCall J) → Except Raised (Answer J c)}
    {p : VibeProgram J α} (hconsume : ∀ m n, reply (.consumeLedgerQuota m n) = .ok true)
    (hrelease : reply .releaseLedgerQuota = .ok true) : ∀ v ∈ (p.exec reply).1, Granted v := by
  rintro ⟨c, answer⟩ hv
  have hanswer : answer = reply c := answer_of_mem_exec hv
  subst hanswer
  cases c with
  | consumeLedgerQuota m n => exact hconsume m n
  | releaseLedgerQuota => exact hrelease
  | _ => trivial

theorem quiet_start : Path (sendMessage quietRequest) ((sendMessage quietRequest).exec quietReply).1
    (.ok (.running quietJob.ledgerId)) := path_exec

theorem settled_once_iff_quiet : settlements (((sendMessage quietRequest).exec quietReply).1 ++
      ((runVibeAgent quietJob).exec quietReply).1) = 1 ∧
    Calm ((runVibeAgent quietJob).exec quietReply).1 := by
  have hone : settlements (((sendMessage quietRequest).exec quietReply).1 ++
      ((runVibeAgent quietJob).exec quietReply).1) = 1 := by
    decide +kernel
  exact ⟨hone, (settled_once_iff quiet_start rfl path_exec
    (granted_of_replies (fun _ _ => rfl) rfl)).mp hone⟩

/-- The job fails while it builds its stores: the reserved entry is never settled. -/
theorem readOnly_unsettled :
    Path (sendMessage quietRequest) ((sendMessage quietRequest).exec quietReply).1
      (.ok (.running quietJob.ledgerId)) ∧
    quietJob.hasLedger = true ∧
    Path (runVibeAgent quietJob) ((runVibeAgent quietJob).exec readOnlyReply).1
      ((runVibeAgent quietJob).exec readOnlyReply).2 ∧
    (∀ v ∈ ((runVibeAgent quietJob).exec readOnlyReply).1, Granted v) ∧
    settlements (((sendMessage quietRequest).exec quietReply).1 ++
      ((runVibeAgent quietJob).exec readOnlyReply).1) = 0 :=
  ⟨quiet_start, rfl, path_exec, granted_of_replies (fun _ _ => rfl) rfl, by decide +kernel⟩

end Pyharmonics.VibeAgent
