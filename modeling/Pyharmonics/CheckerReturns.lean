import Pyharmonics.CheckerAgent

/-! Where the checker agent returns a verdict, and what an accepting verdict means. -/
namespace Pyharmonics.MakerChecker

open Json
open Loop (Elementary CalibrationParams severities)

variable {B : Builtins} {E : Elementary ℚ} {agent : CheckerAgent} {candidateId : String}
  {results payload : Dict String Json} {raw : Json} {r : Reply} {v : Verdict} {x : ℚ}
  {name : String}

theorem checkScore_num (h : 0 ≤ x ∧ x ≤ 1) : checkScore name (.num x) = .ok ⟨x, h⟩ := dif_pos h

theorem checkScore_ok {v : PyFloat} {s : Score} : checkScore name v = .ok s ↔ v = .num s := by
  constructor
  · intro h
    cases v with
    | num x =>
      rw [checkScore] at h
      split_ifs at h
      cases h
      rfl
    | _ => cases h
  · rintro rfl
    exact checkScore_num s.2

theorem checkComponent_ok {d : String × PyFloat} {c : String × Score} :
    checkComponent d = .ok c ↔ d = (c.1, .num c.2) := by
  obtain ⟨k, x⟩ := d
  rw [checkComponent, bind_ok]
  simp only [checkScore_ok, pure, Except.pure, Except.ok.injEq]
  constructor
  · rintro ⟨s, rfl, rfl⟩
    rfl
  · rintro h
    cases h
    exact ⟨c.2, rfl, rfl⟩

theorem checkFlag_ok {f : List (String × Json)} {g : {f // IsFlag f}} :
    checkFlag f = .ok g ↔ f = g := by
  constructor
  · intro h
    rw [checkFlag] at h
    split_ifs at h
    cases h
    rfl
  · rintro rfl
    exact dif_pos g.2

theorem checkFeedback_ok {s : String} {t : {s : String // s.length ≤ 200}} :
    checkFeedback s = .ok t ↔ s = t := by
  constructor
  · intro h
    rw [checkFeedback] at h
    split_ifs at h
    cases h
    rfl
  · rintro rfl
    exact dif_pos t.2

theorem not_uncaught_checkScore (v : PyFloat) : ¬ Uncaught (checkScore name v) := by
  cases v with
  | num x =>
    rw [checkScore]
    split_ifs <;> simp
  | _ => simp [checkScore]

theorem not_uncaught_checkFlag (f : List (String × Json)) : ¬ Uncaught (checkFlag f) := by
  rw [checkFlag]
  split_ifs <;> simp

theorem not_uncaught_checkFeedback (s : String) : ¬ Uncaught (checkFeedback s) := by
  rw [checkFeedback]
  split_ifs <;> simp

/-- The checks raise nothing that the parser does not catch. -/
theorem not_uncaught_makeVerdict (score confidence : PyFloat) (components : List (String × PyFloat))
    (flags : List (List (String × Json))) (accept : Bool) (feedback : String) (rawScore : PyFloat) :
    ¬ Uncaught (makeVerdict candidateId score confidence components flags accept feedback
      rawScore) := by
  have hcomponents : ¬ Uncaught (components.mapM checkComponent) := by
    rw [uncaught_mapM]
    rintro ⟨before, e, after, -, -, h⟩
    exact not_uncaught_checkScore _ (uncaught_return.mp h)
  have hflags : ¬ Uncaught (flags.mapM checkFlag) := by
    rw [uncaught_mapM]
    rintro ⟨before, f, after, -, -, h⟩
    exact not_uncaught_checkFlag f h
  unfold makeVerdict
  simp only [uncaught_bind, not_uncaught_checkScore, hcomponents, hflags,
    not_uncaught_checkFeedback, pure, Except.pure, uncaught_ok, and_false, exists_false, or_false,
    not_false_eq_true]

/-- The conversions of a reply in their order. -/
def Reply.conversions (r : Reply) : List Json :=
  r.score :: r.confidence :: (r.components.map Prod.snd ++ [r.rawScore])

theorem uncaught_toVerdict :
    Uncaught (r.toVerdict B candidateId) ↔ Overflows B r.conversions := by
  unfold Reply.toVerdict Reply.conversions
  rw [overflows_cons, overflows_cons, overflows_append, ← uncaught_floatValues,
    ← returns_floatValues, ← uncaught_toFloat, ← uncaught_toFloat, overflows_iff,
    uncaught_mapM_cons]
  refine uncaught_bind_const fun score => ?_
  refine uncaught_bind_const fun confidence => ?_
  refine uncaught_bind_const fun components => ?_
  simp [uncaught_bind, not_uncaught_makeVerdict, pure, Except.pure]

/-- The parser raises on a reply of the right types whose first failing conversion overflows. -/
theorem returns_parseVerdict : Returns (parseVerdict B candidateId raw) ↔
    ∀ r, readReply raw = some r → ¬ Overflows B r.conversions := by
  rw [parseVerdict]
  cases readReply raw with
  | none => simp
  | some r =>
    simp only [Option.some.injEq, forall_eq', ← @uncaught_toVerdict B candidateId]
    exact not_not.symm

/-- A verdict is made of its own values, and of no others. -/
theorem makeVerdict_iff {score confidence rawScore : PyFloat}
    {components : List (String × PyFloat)} {flags : List (List (String × Json))} {accept : Bool}
    {feedback : String} :
    makeVerdict candidateId score confidence components flags accept feedback rawScore = .ok v ↔
      v.candidateId = candidateId ∧ score = .num v.checkerScore ∧ confidence = .num v.confidence ∧
      rawScore = .num v.rawScore ∧ components = (v.components.map fun e => (e.1, .num e.2)) ∧
      flags = v.flags.map Subtype.val ∧ accept = v.accept ∧ feedback = v.feedback := by
  have hcomponents : ∀ cs, components.mapM checkComponent = .ok cs ↔
      components = cs.map fun e => (e.1, .num e.2) := fun cs =>
    mapM_section_iff fun _ _ => checkComponent_ok
  have hflags : ∀ fs, flags.mapM checkFlag = .ok fs ↔ flags = fs.map Subtype.val := fun fs =>
    mapM_section_iff fun _ _ => checkFlag_ok
  simp only [makeVerdict, bind_ok, checkScore_ok, hcomponents, hflags, checkFeedback_ok, pure,
    Except.pure, Except.ok.injEq]
  constructor
  · rintro ⟨s, rfl, c, rfl, q, rfl, cs, rfl, fs, rfl, t, rfl, rfl⟩
    exact ⟨rfl, rfl, rfl, rfl, rfl, rfl, rfl, rfl⟩
  · rintro ⟨rfl, rfl, rfl, rfl, rfl, rfl, rfl, rfl⟩
    exact ⟨_, rfl, _, rfl, _, rfl, _, rfl, _, rfl, _, rfl, rfl⟩

/-- A verdict passes its own checks again, with another score of the range. -/
theorem makeVerdict_again (v : Verdict) (score : Score) (accept : Bool) :
    makeVerdict candidateId (.num score) (.num v.confidence)
      (v.components.map fun e => (e.1, .num e.2)) (v.flags.map Subtype.val) accept v.feedback
      (.num v.rawScore) =
    .ok { v with candidateId := candidateId, checkerScore := score, accept := accept } :=
  makeVerdict_iff.mpr ⟨rfl, rfl, rfl, rfl, rfl, rfl, rfl, rfl⟩

theorem platt_unit (E : Elementary ℚ) (θ : ℚ × ℚ) (raw : ℚ) :
    0 ≤ Loop.platt E θ raw ∧ Loop.platt E θ raw ≤ 1 := by
  constructor
  · exact le_max_left _ _
  · exact max_le zero_le_one (min_le_left _ _)

/-- The calibrated score is a score. -/
theorem calibrated_ok (v : Verdict) : ∃ c : Score, agent.calibrated E v = .ok c := by
  rw [CheckerAgent.calibrated]
  cases agent.config.calibrationParams with
  | none => exact ⟨v.rawScore, rfl⟩
  | some params =>
    obtain ⟨hlow, hhigh⟩ := v.rawScore.2
    refine ⟨⟨Loop.platt E (params.a, params.b) v.rawScore, platt_unit _ _ _⟩, ?_⟩
    exact if_neg (not_or.mpr ⟨not_lt.mpr hlow, not_lt.mpr hhigh⟩)

/-- An accepting verdict keeps to the thresholds. -/
def WithinThresholds (config : CheckerConfig) (v : Verdict) : Prop :=
  v.accept = true → config.rejectionThreshold ≤ v.checkerScore ∧ config.minConfidence ≤ v.confidence

theorem reemit_ok (v : Verdict) :
    ∃ w, agent.reemit E candidateId v = .ok w ∧ WithinThresholds agent.config w := by
  obtain ⟨c, hc⟩ := @calibrated_ok E agent v
  refine ⟨_, by rw [CheckerAgent.reemit, hc, ok_bind, makeVerdict_again], ?_⟩
  intro haccept
  simp only [Bool.and_eq_true, decide_eq_true_eq] at haccept
  exact ⟨haccept.1.2, haccept.2⟩

theorem lowConfidenceReject_ok : ∃ w, lowConfidenceReject candidateId = .ok w ∧
    w.accept = false := by
  have hflag : IsFlag [("severity", .str "high"), ("issue", .str "checker_backend_failure")] := by
    decide
  refine ⟨⟨candidateId, ⟨0, zero_score⟩, ⟨0, zero_score⟩, [], [⟨_, hflag⟩], false,
    ⟨"checker backend failure — defaulted to reject", by decide⟩, ⟨0, zero_score⟩⟩, ?_,
    rfl⟩
  exact makeVerdict_iff.mpr ⟨rfl, rfl, rfl, rfl, rfl, rfl, rfl, rfl⟩

theorem returns_strip {level : IsolationLevel} {salt : String} :
    Returns (stripMakerArtifacts B (results.set "candidate_id" (.str candidateId)) level salt) ↔
      (level = .strict → candidateId ≠ "") := by
  have hid : (results.set "candidate_id" (.str candidateId)).getD "candidate_id" (.str "") =
      .str candidateId := by
    rw [Dict.getD_set, if_pos rfl]
  rw [stripMakerArtifacts]
  by_cases hstrict : level = .strict
  · rw [if_pos hstrict]
    dsimp only
    rw [hid]
    by_cases hempty : candidateId = ""
    · simp [truthy, hempty, hstrict]
    · simp [truthy, hempty, text, hstrict]
  · simp [hstrict]

theorem getD_stripped {fields : List String} {k : String} {j : Json} (h : k ∉ fields) :
    (fields.foldl Dict.erase payload).getD k j = payload.getD k j := by
  induction fields generalizing payload with
  | nil => rfl
  | cons field fields ih =>
    rw [List.mem_cons, not_or] at h
    rw [List.foldl_cons, ih h.2, Dict.getD_erase h.1]

/-- Isolation keeps the metrics. -/
theorem strip_metrics {level : IsolationLevel} {salt : String} {isolated : Dict String Json}
    {j : Json}
    (h : stripMakerArtifacts B (results.set "candidate_id" (.str candidateId)) level salt =
      .ok isolated) : isolated.getD "metrics" j = results.getD "metrics" j := by
  have hstripped : ((strippedFields level).foldl Dict.erase
      (results.set "candidate_id" (.str candidateId))).getD "metrics" j =
        results.getD "metrics" j := by
    have hmem : "metrics" ∉ strippedFields level := by cases level <;> decide
    rw [getD_stripped hmem, Dict.getD_set, if_neg (by decide)]
  rw [stripMakerArtifacts] at h
  dsimp only at h
  split_ifs at h
  · obtain ⟨text, -, h⟩ := bind_ok.mp h
    cases h
    rw [Dict.getD_set, if_neg (by decide), hstripped]
  · cases h
    exact hstripped

theorem returns_fixedThree {j : Json} :
    Returns (fixedThree j) ↔ j.isNumber = true ∧ ¬ j.Huge := by
  cases j with
  | int n =>
    rw [fixedThree, Huge, not_le]
    split_ifs with h <;> simp [isNumber, h]
  | float x => cases x <;> simp [fixedThree, isNumber, Huge]
  | _ => simp [fixedThree, isNumber, Huge]

/-- The metrics are a dictionary that the prompt can be made of. -/
def Promptable (B : Builtins) (metrics : Json) : Prop :=
  ∃ entries, metrics = .dict entries ∧
    ((entries.lookup "sharpe").getD (.float (.num 0))).isNumber = true ∧
    ¬ ((entries.lookup "sharpe").getD (.float (.num 0))).Huge ∧
    Returns (((entries.lookup "trades_count").getD (.int 0)).text B)

theorem returns_buildPrompt {isolated : Dict String Json} :
    Returns (buildPrompt B isolated) ↔ Promptable B (isolated.getD "metrics" (.dict [])) := by
  rw [buildPrompt, Promptable]
  cases isolated.getD "metrics" (.dict []) with
  | dict entries =>
    simp only [dict.injEq, exists_eq_left', returns_bind, returns_pure, and_true, exists_and_right]
    rw [← and_assoc, ← returns_fixedThree]
    rfl
  | _ => simp

/-- What is promised: a verdict, and no exception, whose acceptance keeps to the thresholds. -/
structure Graceful (B : Builtins) (E : Elementary ℚ) (agent : CheckerAgent) (candidateId : String)
    (results : Dict String Json) : Prop where
  returns : Returns (agent.verify B E candidateId results)
  sound : ∀ v, agent.verify B E candidateId results = .ok v → WithinThresholds agent.config v

/-- The candidate has an id where it is hashed, its metrics can be printed, and the reply to the
prompt either has a field of the wrong type or no overflow in front of its other failures. -/
structure Answerable (B : Builtins) (agent : CheckerAgent) (candidateId : String)
    (results : Dict String Json) : Prop where
  named : agent.config.isolationLevel = .strict → candidateId ≠ ""
  promptable : Promptable B (results.getD "metrics" (.dict []))
  fits : ∀ isolated prompt raw r,
    stripMakerArtifacts B (results.set "candidate_id" (.str candidateId))
      agent.config.isolationLevel agent.salt = .ok isolated →
    buildPrompt B isolated = .ok prompt →
    agent.backend prompt (agent.seedFor B candidateId) = .ok raw →
    readReply raw = some r → ¬ Overflows B r.conversions

theorem within_of_rejected {config : CheckerConfig} {v : Verdict} (h : v.accept = false) :
    WithinThresholds config v := by
  intro haccept
  rw [h] at haccept
  cases haccept

/-- A failing backend and an unreadable reply end in a rejection. -/
theorem judge_ok {reply : Except PyError Json} :
    (∀ v, agent.judge B E candidateId reply = .ok v → WithinThresholds agent.config v) ∧
    (Returns (agent.judge B E candidateId reply) ↔
      ∀ raw r, reply = .ok raw → readReply raw = some r → ¬ Overflows B r.conversions) := by
  obtain ⟨w, hw, hreject⟩ := @lowConfidenceReject_ok candidateId
  cases reply with
  | error e =>
    have hjudge : agent.judge B E candidateId (.error e) = .ok w := hw
    simp only [hjudge, Except.ok.injEq, forall_eq', returns_ok, reduceCtorEq, false_implies,
      implies_true, and_true]
    exact within_of_rejected hreject
  | ok raw =>
    have hfits : (∀ raw' r, Except.ok raw = (Except.ok raw' : Except PyError Json) →
        readReply raw' = some r → ¬ Overflows B r.conversions) ↔
          Returns (parseVerdict B candidateId raw) := by
      rw [returns_parseVerdict]
      constructor
      · exact fun h r => h raw r rfl
      · rintro h raw' r ⟨⟩
        exact h r
    rw [hfits]
    simp only [CheckerAgent.judge, returns_bind, bind_ok]
    constructor
    · rintro v ⟨parsed, -, hv⟩
      cases parsed with
      | none =>
        cases hw.symm.trans hv
        exact within_of_rejected hreject
      | some verdict =>
        obtain ⟨u, hu, hwithin⟩ := @reemit_ok E agent candidateId verdict
        cases hu.symm.trans hv
        exact hwithin
    · constructor
      · rintro ⟨parsed, hparsed, -⟩
        exact ⟨parsed, hparsed⟩
      · rintro ⟨parsed, hparsed⟩
        refine ⟨parsed, hparsed, ?_⟩
        cases parsed with
        | none => exact ⟨w, hw⟩
        | some verdict =>
          obtain ⟨u, hu, -⟩ := @reemit_ok E agent candidateId verdict
          exact ⟨u, hu⟩

theorem answerable_of_returns (h : Returns (agent.verify B E candidateId results)) :
    Answerable B agent candidateId results := by
  obtain ⟨isolated, hstrip, h⟩ := returns_bind.mp h
  obtain ⟨prompt, hprompt, h⟩ := returns_bind.mp h
  refine ⟨returns_strip.mp ⟨isolated, hstrip⟩, ?_, ?_⟩
  · rw [← strip_metrics hstrip]
    exact returns_buildPrompt.mp ⟨prompt, hprompt⟩
  · intro isolated' prompt' raw r hstrip' hprompt' hreply hread
    cases hstrip.symm.trans hstrip'
    cases hprompt.symm.trans hprompt'
    exact judge_ok.2.mp h raw r hreply hread

/-- The agent returns a verdict exactly for a candidate with an id (under strict isolation), metrics
it can print, and a reply without an overflow in front of its other failures. -/
theorem verify_graceful_iff (B : Builtins) (E : Elementary ℚ) (agent : CheckerAgent)
    (candidateId : String) (results : Dict String Json) :
    Graceful B E agent candidateId results ↔ Answerable B agent candidateId results := by
  constructor
  · intro h
    exact answerable_of_returns h.returns
  · rintro ⟨hnamed, hpromptable, hfits⟩
    obtain ⟨isolated, hstrip⟩ := returns_strip.mpr hnamed
    rw [← strip_metrics hstrip] at hpromptable
    obtain ⟨prompt, hprompt⟩ := returns_buildPrompt.mpr hpromptable
    have hverify : agent.verify B E candidateId results =
        agent.judge B E candidateId (agent.backend prompt (agent.seedFor B candidateId)) := by
      rw [CheckerAgent.verify, hstrip, ok_bind, hprompt, ok_bind]
    constructor
    · rw [hverify]
      exact judge_ok.2.mpr fun raw r => hfits isolated prompt raw r hstrip hprompt
    · rw [hverify]
      exact judge_ok.1

/-- A null sharpe cannot be printed. -/
theorem null_sharpe_raises : ¬ ∃ B E, Graceful B E { backend := fun _ _ => .error .assertionError }
    "gen1-C1Geometry-000" (.single "metrics" (.dict [("sharpe", .null)])) := by
  rintro ⟨B, E, h⟩
  obtain ⟨entries, hentries, hnumber, -⟩ := (answerable_of_returns h.returns).promptable
  cases hentries
  cases hnumber

end Pyharmonics.MakerChecker
