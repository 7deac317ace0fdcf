import Pyharmonics.CheckerReturns

/-! The runner's decoded replies stand for the JSON that the checker agent reads. -/
namespace Pyharmonics.MakerChecker

open Json
open Loop (Elementary RawVerdict VerdictFields Finding Runner severities)

variable {B : Builtins} {E : Elementary ℚ} {agent : CheckerAgent} {candidateId : String}
  {raw : Json} {r : Reply} {v : Verdict} {w : VerdictFields} {x : PyFloat} {name : String}

/-- The text a flag has under a key. -/
def textAt (f : List (String × Json)) (k : String) : String :=
  match f.lookup k with
  | some (.str s) => s
  | _ => ""

def finding (f : List (String × Json)) : Finding := ⟨textAt f "severity", textAt f "issue"⟩

/-- The components that are numbers, under distinct names. -/
def numbers (d : List (String × PyFloat)) : Option (Dict String ℚ) := do
  let entries ← d.mapM fun e =>
    match e.2 with
    | .num x => some (e.1, x)
    | _ => none
  if h : (entries.map Prod.fst).Nodup then some ⟨entries, h⟩ else none

/-- What a reply holds once its numbers are converted. -/
def Reply.decode (B : Builtins) (r : Reply) : Option RawVerdict :=
  match r.score.toFloat B, r.confidence.toFloat B, floatValues B r.components,
    r.rawScore.toFloat B with
  | .ok (.num score), .ok (.num confidence), .ok components, .ok (.num rawScore) => do
    let components ← numbers components
    return { checkerScore := some score, confidence := some confidence, rawScore := some rawScore
             components := some components
             flags := some ((cleanedFlags r.flags).map finding)
             accept := some r.accept, feedback := some r.feedback }
  | _, _, _, _ => none

/-- A verdict of the agent and its fields as the runner has them. -/
structure Abstracts (v : Verdict) (w : VerdictFields) : Prop where
  candidateId : w.candidateId = v.candidateId
  checkerScore : w.checkerScore = v.checkerScore
  confidence : w.confidence = v.confidence
  rawScore : w.rawScore = v.rawScore
  components : w.components.entries = v.components.map fun e => (e.1, (e.2 : ℚ))
  flags : w.flags = v.flags.map fun f => finding f.val
  accept : w.accept = v.accept
  feedback : w.feedback = v.feedback

theorem numbers_num {d : List (String × ℚ)} (h : (d.map Prod.fst).Nodup) :
    numbers (d.map fun e => (e.1, .num e.2)) = some ⟨d, h⟩ := by
  have hentries : (d.map fun e => (e.1, PyFloat.num e.2)).mapM (fun e =>
      match e.2 with
      | .num x => some (e.1, x)
      | _ => none) = some d := by
    clear h
    induction d with
    | nil => rfl
    | cons e d ih =>
      rw [List.map_cons, List.mapM_cons, ih]
      rfl
  rw [numbers, hentries]
  exact dif_pos h

theorem numbers_some {d : List (String × PyFloat)} {e : Dict String ℚ} (h : numbers d = some e) :
    d = e.entries.map fun e => (e.1, .num e.2) := by
  obtain ⟨entries, hentries, h⟩ := Option.bind_eq_some_iff.mp h
  split_ifs at h
  cases h
  change d = entries.map fun e => (e.1, PyFloat.num e.2)
  clear * - hentries
  induction d generalizing entries with
  | nil =>
    cases hentries
    rfl
  | cons c d ih =>
    rw [List.mapM_cons] at hentries
    obtain ⟨⟨k, x⟩, hx, hentries⟩ := Option.bind_eq_some_iff.mp hentries
    obtain ⟨rest, hrest, hentries⟩ := Option.bind_eq_some_iff.mp hentries
    cases hentries
    rw [List.map_cons, ← ih rest hrest]
    obtain ⟨k', y⟩ := c
    cases y <;> cases hx
    rfl

theorem keys_floatValues {d : List (String × Json)} {e : List (String × PyFloat)}
    (h : floatValues B d = .ok e) : e.map Prod.fst = d.map Prod.fst := by
  rw [floatValues, mapM_eq_ok] at h
  rw [← List.forall₂_eq_eq_eq, List.forall₂_map_left_iff, List.forall₂_map_right_iff]
  refine (h.imp fun a b hb => ?_).flip
  obtain ⟨x, -, hb⟩ := bind_ok.mp hb
  cases hb
  rfl

theorem finding_severity {f : List (String × Json)} (h : IsFlag f) :
    (finding f).severity ∈ severities := by
  obtain ⟨-, h⟩ := h
  rw [finding, textAt]
  cases hs : f.lookup "severity" with
  | none => simp [hs] at h
  | some j => cases j <;> simp_all

theorem isFlag_cleaned {flags : List Json} {f : List (String × Json)} (h : f ∈ cleanedFlags flags) :
    IsFlag f := by
  obtain ⟨j, -, hj⟩ := List.mem_filterMap.mp h
  cases j with
  | dict g =>
    simp only at hj
    split_ifs at hj with hflag
    cases hj
    exact hflag
  | _ => cases hj

/-- The verdict the runner's parser checks. -/
def verdictFields (candidateId : String) (score confidence rawScore : ℚ)
    (components : Dict String ℚ) (r : Reply) : VerdictFields where
  candidateId := candidateId
  checkerScore := score
  confidence := confidence
  rawScore := rawScore
  components := components
  flags := (cleanedFlags r.flags).map finding
  accept := r.accept
  feedback := (r.feedback.take 200).toString

theorem parse_decoded {q : RawVerdict} (h : r.decode B = some q) :
    ∃ score confidence components rawScore, r.score.toFloat B = .ok (.num score) ∧
      r.confidence.toFloat B = .ok (.num confidence) ∧
      floatValues B r.components = .ok (components.entries.map fun e => (e.1, .num e.2)) ∧
      r.rawScore.toFloat B = .ok (.num rawScore) ∧
      Loop.parseVerdict candidateId q = (Loop.makeVerdict
        (verdictFields candidateId score confidence rawScore components r)).toOption := by
  rw [Reply.decode] at h
  split at h
  · next score confidence components rawScore hscore hconfidence hcomponents hrawScore =>
    obtain ⟨d, hd, h⟩ := Option.bind_eq_some_iff.mp h
    cases h
    refine ⟨score, confidence, d, rawScore, hscore, hconfidence, ?_, hrawScore, ?_⟩
    · rw [hcomponents, numbers_some hd]
    · have hkept : ((cleanedFlags r.flags).map finding).filter (fun f => f.severity ∈ severities) =
          (cleanedFlags r.flags).map finding := by
        rw [List.filter_eq_self, List.forall_mem_map]
        exact fun f hf => decide_eq_true (finding_severity (isFlag_cleaned hf))
      simp only [Loop.parseVerdict, Option.bind_eq_bind, Option.bind_some,
        Option.getD_some, hkept]
      rfl
  · cases h

/-- What the runner's verdict checks, as the agent's types say it. -/
theorem problem_none {score confidence rawScore : ℚ} {components : Dict String ℚ} :
    (verdictFields candidateId score confidence rawScore components r).problem = none ↔
      (0 ≤ score ∧ score ≤ 1) ∧ (0 ≤ confidence ∧ confidence ≤ 1) ∧
      (0 ≤ rawScore ∧ rawScore ≤ 1) ∧ (∀ e ∈ components.entries, 0 ≤ e.2 ∧ e.2 ≤ 1) ∧
      (r.feedback.take 200).toString.length ≤ 200 := by
  have hflags : (verdictFields candidateId score confidence rawScore components r).flags.findSome?
      (fun f => if f.severity ∈ severities then none else
        some (PyError.valueError ("flag severity must be high|medium|low; got '" ++ f.severity ++
          "'") [])) = none := by
    rw [List.findSome?_eq_none_iff]
    intro f hf
    obtain ⟨g, hg, rfl⟩ := List.mem_map.mp hf
    exact if_pos (finding_severity (isFlag_cleaned hg))
  have hguard : ∀ (p : Prop) [Decidable p] (e : PyError),
      (if p then none else some e) = none ↔ p := by
    intro p _ e
    by_cases hp : p <;> simp [hp]
  simp only [VerdictFields.problem, Option.or_eq_none_iff, Loop.outsideUnit_none, hflags, hguard,
    and_true, List.findSome?_eq_none_iff, and_assoc]
  rfl

theorem fields_makeVerdict {fields : VerdictFields} {w : Loop.Verdict} :
    Loop.makeVerdict fields = .ok w ↔ w.toVerdictFields = fields := by
  constructor
  · intro h
    unfold Loop.makeVerdict at h
    split at h
    · cases h
    · cases h
      rfl
  · rintro rfl
    exact Loop.makeVerdict_ok w.valid

/-- A reply with components under distinct names is decoded if a verdict is made of it. -/
theorem decode_of_verdict (hkeys : (r.components.map Prod.fst).Nodup)
    (h : r.toVerdict B candidateId = .ok v) : ∃ q, r.decode B = some q := by
  obtain ⟨score, hscore, h⟩ := bind_ok.mp h
  obtain ⟨confidence, hconfidence, h⟩ := bind_ok.mp h
  obtain ⟨components, hcomponents, h⟩ := bind_ok.mp h
  obtain ⟨rawScore, hrawScore, h⟩ := bind_ok.mp h
  obtain ⟨-, rfl, rfl, rfl, rfl, -⟩ := makeVerdict_iff.mp h
  have hnodup : ((v.components.map fun e => (e.1, (e.2 : ℚ))).map Prod.fst).Nodup := by
    rw [← keys_floatValues hcomponents] at hkeys
    simpa [List.map_map, Function.comp_def] using hkeys
  have hnumbers : numbers (v.components.map fun e => (e.1, PyFloat.num e.2)) =
      some ⟨_, hnodup⟩ := by
    rw [← numbers_num hnodup, List.map_map]
    rfl
  rw [Reply.decode, hscore, hconfidence, hcomponents, hrawScore]
  simp only [hnumbers]
  exact ⟨_, rfl⟩

/-- The runner's parser makes the same verdict of the decoded reply. -/
theorem parse_abstracts {q : RawVerdict} (hq : r.decode B = some q)
    (h : r.toVerdict B candidateId = .ok v) :
    ∃ w, Loop.parseVerdict candidateId q = some w ∧ Abstracts v w.toVerdictFields := by
  obtain ⟨score, confidence, components, rawScore, hscore, hconfidence, hcomponents, hrawScore,
    hparse⟩ := @parse_decoded B candidateId r q hq
  rw [Reply.toVerdict, hscore, ok_bind, hconfidence, ok_bind, hcomponents, ok_bind, hrawScore,
    ok_bind, makeVerdict_iff] at h
  obtain ⟨hid, hs, hc, hr, hcs, hflags, haccept, hfeedback⟩ := h
  cases hs
  cases hc
  cases hr
  have hentries : components.entries = v.components.map fun e => (e.1, (e.2 : ℚ)) := by
    refine (List.map_injective_iff.mpr ?_) (hcs.trans (by rw [List.map_map]; rfl))
    rintro ⟨k, x⟩ ⟨k', x'⟩ h
    cases h
    rfl
  have hvalid : (verdictFields candidateId v.checkerScore v.confidence v.rawScore components
      r).problem = none := by
    rw [problem_none, hentries, List.forall_mem_map, hfeedback]
    exact ⟨v.checkerScore.2, v.confidence.2, v.rawScore.2, fun e _ => e.2.2, v.feedback.2⟩
  refine ⟨⟨_, hvalid⟩, ?_, ?_⟩
  · rw [hparse, Loop.makeVerdict_ok hvalid]
    rfl
  · exact ⟨hid.symm, rfl, rfl, rfl, hentries, by simp [verdictFields, hflags], haccept, hfeedback⟩

/-- A verdict the runner's parser makes of the decoded reply is one of the agent's. -/
theorem verdict_of_parsed {q : RawVerdict} {w : Loop.Verdict} (hq : r.decode B = some q)
    (h : Loop.parseVerdict candidateId q = some w) : ∃ v, r.toVerdict B candidateId = .ok v := by
  obtain ⟨score, confidence, components, rawScore, hscore, hconfidence, hcomponents, hrawScore,
    hparse⟩ := @parse_decoded B candidateId r q hq
  rw [hparse, toOption_eq_some, fields_makeVerdict] at h
  obtain ⟨hs, hc, hr, hcs, hfeedback⟩ := problem_none.mp (h ▸ w.valid)
  refine ⟨⟨candidateId, ⟨score, hs⟩, ⟨confidence, hc⟩,
    components.entries.attach.map fun e => (e.1.1, ⟨e.1.2, hcs e.1 e.2⟩),
    (cleanedFlags r.flags).attach.map fun f => ⟨f.1, isFlag_cleaned f.2⟩, r.accept,
    ⟨_, hfeedback⟩, ⟨rawScore, hr⟩⟩, ?_⟩
  rw [Reply.toVerdict, hscore, ok_bind, hconfidence, ok_bind, hcomponents, ok_bind, hrawScore,
    ok_bind, makeVerdict_iff]
  refine ⟨rfl, rfl, rfl, rfl, ?_, ?_, rfl, rfl⟩
  · rw [List.map_map]
    exact (@List.attach_map_val _ _ _ fun e : String × ℚ => (e.1, PyFloat.num e.2)).symm
  · rw [List.map_map]
    exact (List.attach_map_subtype_val _).symm

theorem abstracts_reject (h : lowConfidenceReject candidateId = .ok v) :
    Abstracts v (Loop.lowConfidenceReject candidateId).toVerdictFields := by
  obtain ⟨hid, hs, hc, hr, hcs, hflags, haccept, hfeedback⟩ := makeVerdict_iff.mp h
  have hcomponents : v.components = [] := List.map_eq_nil_iff.mp hcs.symm
  have hfindings : v.flags.map (fun f => finding f.val) =
      (v.flags.map Subtype.val).map finding := by
    rw [List.map_map]
    rfl
  refine ⟨hid.symm, PyFloat.num.inj hs, PyFloat.num.inj hc, PyFloat.num.inj hr, ?_, ?_, haccept,
    hfeedback⟩
  · rw [hcomponents]
    rfl
  · rw [hfindings, ← hflags]
    rfl

theorem candidateId_toVerdict (h : r.toVerdict B candidateId = .ok v) :
    v.candidateId = candidateId := by
  obtain ⟨score, -, h⟩ := bind_ok.mp h
  obtain ⟨confidence, -, h⟩ := bind_ok.mp h
  obtain ⟨components, -, h⟩ := bind_ok.mp h
  obtain ⟨rawScore, -, h⟩ := bind_ok.mp h
  exact (makeVerdict_iff.mp h).1

/-- With the raw score and a decision of their own they still correspond. -/
theorem abstracts_reemit {u : Loop.Verdict} {w : Loop.Verdict} {verdict : Verdict}
    (hu : Abstracts verdict u.toVerdictFields) {a a' : Bool} (ha : a = a')
    (hid : verdict.candidateId = candidateId)
    (hv : makeVerdict candidateId (.num verdict.rawScore) (.num verdict.confidence)
      (verdict.components.map fun e => (e.1, .num e.2)) (verdict.flags.map Subtype.val) a
      verdict.feedback (.num verdict.rawScore) = .ok v)
    (hw : Loop.makeVerdict { u.toVerdictFields with checkerScore := u.rawScore, accept := a' } =
      .ok w) : Abstracts v w.toVerdictFields := by
  rw [makeVerdict_again] at hv
  cases hv
  rw [fields_makeVerdict.mp hw]
  exact ⟨hu.candidateId.trans hid, hu.rawScore, hu.confidence, hu.rawScore, hu.components, hu.flags,
    ha.symm, hu.feedback⟩

/-- What the runner is answered: the decoded reply, if it can be read and decoded. -/
def decoded (B : Builtins) (reply : Except PyError Json) : Except PyError (Option RawVerdict) :=
  match reply with
  | .error e => .error e
  | .ok raw => .ok ((readReply raw).bind fun r => r.decode B)

/-- A runner that decides like an agent without calibration, for one reply. -/
structure Decides (B : Builtins) (agent : CheckerAgent) (reply : Except PyError Json)
    (runner : Runner) : Prop where
  uncalibrated : agent.config.calibrationParams = none
  threshold : runner.rejectionThreshold = agent.config.rejectionThreshold
  confidence : runner.minConfidence = agent.config.minConfidence
  answers : ∀ candidateId prompt, runner.backend candidateId prompt = decoded B reply

/-- The runner rejects where nothing comes of the decoded reply. -/
theorem runner_rejects {reply : Except PyError Json} {runner : Runner} {metrics : Loop.Metrics ℚ}
    {w : Loop.Verdict} (hd : Decides B agent reply runner) (hid : candidateId ≠ "")
    (hnone : ∀ o, decoded B reply = .ok o → o.bind (Loop.parseVerdict candidateId) = none)
    (hw : runner.verify candidateId metrics = .ok w) :
    w = Loop.lowConfidenceReject candidateId := by
  rw [Runner.verify, if_neg hid] at hw
  obtain ⟨prompt, -, hw⟩ := bind_ok.mp hw
  rw [hd.answers] at hw
  cases ho : decoded B reply with
  | error e =>
    rw [ho] at hw
    exact (Except.ok.inj hw).symm
  | ok o =>
    rw [ho] at hw
    simp only [hnone o ho] at hw
    exact (Except.ok.inj hw).symm

/-- A verdict the agent returns for a reply with distinct component names is the one the runner
returns for the decoded reply. -/
theorem judge_abstracts {reply : Except PyError Json} {runner : Runner}
    {metrics : Loop.Metrics ℚ} (hd : Decides B agent reply runner) (hid : candidateId ≠ "")
    (hsharpe : metrics.sharpe ≠ some none)
    (hkeys : ∀ raw r, reply = .ok raw → readReply raw = some r →
      (r.components.map Prod.fst).Nodup)
    (h : agent.judge B E candidateId reply = .ok v) :
    ∃ w, runner.verify candidateId metrics = .ok w ∧ Abstracts v w.toVerdictFields := by
  obtain ⟨w, hw⟩ := Loop.verify_ok_iff.mpr ⟨hid, hsharpe⟩
  refine ⟨w, hw, ?_⟩
  cases reply with
  | error e =>
    rw [runner_rejects hd hid nofun hw]
    exact abstracts_reject h
  | ok raw =>
    obtain ⟨parsed, hparsed, h⟩ := bind_ok.mp h
    rw [parseVerdict] at hparsed
    cases hread : readReply raw with
    | none =>
      rw [hread] at hparsed
      cases hparsed
      rw [runner_rejects hd hid (by simp [decoded, hread]) hw]
      exact abstracts_reject h
    | some r =>
      rw [hread] at hparsed
      change caught (r.toVerdict B candidateId) = .ok parsed at hparsed
      cases hverdict : r.toVerdict B candidateId with
      | ok verdict =>
        obtain ⟨q, hq⟩ := decode_of_verdict (hkeys raw r rfl hread) hverdict
        obtain ⟨u, hu, habstracts⟩ := parse_abstracts hq hverdict
        have hcalibrated : agent.calibrated E verdict = .ok verdict.rawScore := by
          rw [CheckerAgent.calibrated, hd.uncalibrated]
        have hanswer : decoded B (.ok raw) = .ok (some q) := by
          rw [decoded, hread, Option.bind_some, hq]
        rw [hverdict] at hparsed
        cases hparsed
        simp only [CheckerAgent.reemit, hcalibrated, ok_bind] at h
        rw [Runner.verify, if_neg hid] at hw
        obtain ⟨prompt, -, hw⟩ := bind_ok.mp hw
        simp only [hd.answers, hanswer, Option.bind_some, hu] at hw
        refine abstracts_reemit habstracts ?_ (candidateId_toVerdict hverdict) h hw
        simp only [habstracts.accept, habstracts.rawScore, habstracts.confidence, hd.threshold,
          hd.confidence, Subtype.coe_le_coe]
      | error e =>
        have hrejected : parsed = none := by
          rw [hverdict] at hparsed
          cases e <;> cases hparsed <;> rfl
        have hnone : ∀ q, r.decode B = some q → Loop.parseVerdict candidateId q = none := by
          intro q hq
          rw [Option.eq_none_iff_forall_ne_some]
          intro u hu
          obtain ⟨verdict, hok⟩ := verdict_of_parsed hq hu
          rw [hverdict] at hok
          cases hok
        rw [hrejected] at h
        rw [runner_rejects hd hid ?_ hw]
        · exact abstracts_reject h
        · rintro o ho
          cases ho
          rw [hread, Option.bind_some]
          exact Option.bind_eq_none_iff.mpr hnone

end Pyharmonics.MakerChecker
