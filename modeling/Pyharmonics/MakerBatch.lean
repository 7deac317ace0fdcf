import Mathlib.Data.List.ReduceOption
import Pyharmonics.CheckerReturns
import Pyharmonics.MakerAgent
import Pyharmonics.MutationFrame

/-! The size of a batch of proposals. -/
namespace Pyharmonics.MakerChecker

open Json
open Loop (Member Rng defaultClusterMap mutateField clip)

variable {σ : Type} {B : Builtins} {M : Mutator σ} {agent : MakerAgent} {parent : TuningConstants}
  {cluster : String} {seed : ℤ} {n : ℤ} {history paretoFront i k : ℕ} {raw : Json}
  {out : List Proposal} {e : String × ℚ}

/-- The field of a slot with an effect, and its change. -/
def slotEffect (M : Mutator σ) (parent : TuningConstants) (cluster : String) (seed : ℤ) (i : ℕ) :
    Option (String × ℚ) := do
  let spec ← slotSpec cluster i
  let change ← slotChange M parent seed spec i
  return (spec.field.name, change)

/-- How many of the first slots have an effect. -/
def effective (M : Mutator σ) (parent : TuningConstants) (cluster : String) (seed : ℤ) (k : ℕ) :
    ℕ :=
  (List.range k).countP fun i => (slotEffect M parent cluster seed i).isSome

theorem magnitude_bounded (old new : ℚ) : |magnitude old new| ≤ 50 := by
  rw [magnitude, abs_le]
  constructor
  · exact le_max_right _ _
  · exact max_le (min_le_right _ _) (by norm_num)

/-- No member's reasoning is too long. -/
theorem reasoning_short (spec : Member) :
    ("traditional " ++ kind spec ++ " perturbation on " ++ spec.field.name).length ≤ 200 := by
  have hkind : (kind spec).length ≤ 13 := by
    unfold kind
    split <;> decide
  have hname : ∀ f ∈ TuningField.all, f.name.length ≤ 40 := by decide
  have := hname _ (TuningField.mem_all spec.field)
  simp only [String.length_append]
  have h1 : "traditional ".length = 12 := by decide
  have h2 : " perturbation on ".length = 17 := by decide
  omega

theorem makeProposal_ok {clusters : List Json} {diff : List (String × PyFloat)}
    {intent reasoning : String} {score : Score} {proposalId : String} (htouched : clusters ≠ [])
    (hchanges : diff ≠ []) (hbounded : ∀ e ∈ diff, exceeds 50 e.2 = false)
    (hreasoning : reasoning.length ≤ 200) (hintent : intent.length ≤ 64) :
    makeProposal clusters diff intent reasoning (.num score) proposalId =
      .ok { clustersTouched := clusters, diff := diff, makerIntent := intent
            reasoning := reasoning, selfScore := score, proposalId := proposalId
            touched := htouched, changes := hchanges, bounded := hbounded
            intent_short := hintent, reasoning_short := hreasoning } := by
  have hno : ¬ ∃ e ∈ diff, exceeds 50 e.2 = true := by
    rintro ⟨e, he, h⟩
    rw [hbounded e he] at h
    cases h
  rw [makeProposal, checkScore_num score.2, ok_bind, dif_neg htouched, dif_neg hchanges,
    dif_neg hno, dif_neg (not_lt.mpr hintent), dif_neg (not_lt.mpr hreasoning)]

theorem diff_makeProposal {clusters : List Json} {diff : List (String × PyFloat)}
    {intent reasoning : String} {score : PyFloat} {proposalId : String} {p : Proposal}
    (h : makeProposal clusters diff intent reasoning score proposalId = .ok p) : p.diff = diff := by
  obtain ⟨score', -, h⟩ := bind_ok.mp h
  split_ifs at h
  cases h
  rfl

theorem intent_makeProposal {clusters : List Json} {diff : List (String × PyFloat)}
    {intent reasoning : String} {score : PyFloat} {proposalId : String} {p : Proposal}
    (h : makeProposal clusters diff intent reasoning score proposalId = .ok p) :
    p.makerIntent = intent := by
  obtain ⟨score', -, h⟩ := bind_ok.mp h
  split_ifs at h
  cases h
  rfl

theorem not_uncaught_makeProposal {clusters : List Json} {diff : List (String × PyFloat)}
    {intent reasoning : String} {score : PyFloat} {proposalId : String} :
    ¬ Uncaught (makeProposal clusters diff intent reasoning score proposalId) := by
  rw [makeProposal, uncaught_bind]
  rintro (h | ⟨score', -, h⟩)
  · exact not_uncaught_checkScore _ h
  · split_ifs at h <;> simp at h

/-- A slot without an effect makes no proposal. -/
theorem slotProposal_none (h : slotEffect M parent cluster seed i = none) :
    slotProposal M parent cluster seed i = .ok none := by
  rw [slotProposal]
  cases hspec : slotSpec cluster i with
  | none => rfl
  | some spec =>
    cases hchange : slotChange M parent seed spec i with
    | none => simp only [hchange]
    | some change =>
      rw [slotEffect, hspec, Option.bind_eq_bind, Option.bind_some, hchange] at h
      cases h

theorem slotEffect_some (h : slotEffect M parent cluster seed i = some e) :
    ∃ spec change, slotSpec cluster i = some spec ∧
      slotChange M parent seed spec i = some change ∧ e = (spec.field.name, change) ∧
      |change| ≤ 50 := by
  obtain ⟨spec, hspec, h⟩ := Option.bind_eq_some_iff.mp h
  obtain ⟨change, hchange, h⟩ := Option.bind_eq_some_iff.mp h
  cases h
  refine ⟨spec, change, hspec, hchange, rfl, ?_⟩
  obtain ⟨old, -, h⟩ := Option.bind_eq_some_iff.mp hchange
  obtain ⟨new, -, h⟩ := Option.bind_eq_some_iff.mp h
  split_ifs at h
  cases h
  exact magnitude_bounded old new

/-- A slot with an effect makes a proposal of it, if its tag is short enough. -/
theorem slotProposal_some (h : slotEffect M parent cluster seed i = some e) :
    (Returns (slotProposal M parent cluster seed i) ↔ (slotIntent cluster i).length ≤ 64) ∧
    ∀ o, slotProposal M parent cluster seed i = .ok o →
      o.map Proposal.diff = some [(e.1, .num e.2)] := by
  obtain ⟨spec, change, hspec, hchange, rfl, hbounded⟩ := slotEffect_some h
  have hexceeds : ∀ e ∈ [(spec.field.name, PyFloat.num change)], exceeds 50 e.2 = false := by
    intro e he
    rw [List.mem_singleton.mp he]
    exact decide_eq_false (not_lt.mpr hbounded)
  rw [slotProposal, hspec]
  simp only [hchange]
  constructor
  · rw [returns_return]
    constructor
    · rintro ⟨p, hp⟩
      rw [← intent_makeProposal hp]
      exact p.intent_short
    · intro hintent
      exact ⟨_, @makeProposal_ok [.str cluster] _ _ _ ⟨1 / 2, by norm_num⟩ _ (by simp) (by simp)
        hexceeds (reasoning_short spec) hintent⟩
  · intro o ho
    obtain ⟨p, hp, ho⟩ := bind_ok.mp ho
    cases ho
    rw [Option.map_some, diff_makeProposal hp]

/-- The tags of the first slots that have an effect are short enough. -/
def Tagged (M : Mutator σ) (parent : TuningConstants) (cluster : String) (seed : ℤ) (k : ℕ) :
    Prop :=
  ∀ i < k, (slotEffect M parent cluster seed i).isSome → (slotIntent cluster i).length ≤ 64

theorem returns_traditional (hcluster : defaultClusterMap.getD cluster [] ≠ []) :
    Returns (traditionalProposals M parent k cluster seed) ↔ Tagged M parent cluster seed k := by
  rw [traditionalProposals, if_neg hcluster]
  rw [returns_return, returns_mapM]
  simp only [List.mem_range, Tagged]
  refine forall₂_congr fun i _ => ?_
  cases heffect : slotEffect M parent cluster seed i with
  | none => simp [slotProposal_none heffect]
  | some e => simpa using (slotProposal_some heffect).1

theorem map_reduceOption {α β γ : Type} {f : α → Option γ} {g : β → γ} {l : List α}
    {made : List (Option β)} (h : List.Forall₂ (fun a o => o.map g = f a) l made) :
    made.reduceOption.map g = l.filterMap f := by
  induction h with
  | nil => rfl
  | @cons a o l made ho _ ih =>
    cases o with
    | none => rw [List.filterMap_cons_none ho.symm, ← ih, List.reduceOption_cons_of_none]
    | some b =>
      rw [List.filterMap_cons_some ho.symm, ← ih, List.reduceOption_cons_of_some, List.map_cons]

/-- The changes of the proposals are those of the slots with an effect. -/
theorem diffs_traditional (h : traditionalProposals M parent k cluster seed = .ok out) :
    out.map Proposal.diff = (List.range k).filterMap fun i =>
      (slotEffect M parent cluster seed i).map fun e => [(e.1, .num e.2)] := by
  rw [traditionalProposals] at h
  split_ifs at h
  obtain ⟨made, hmade, h⟩ := bind_ok.mp h
  cases h
  have hdiffs : ∀ i o, slotProposal M parent cluster seed i = .ok o →
      o.map Proposal.diff =
        (slotEffect M parent cluster seed i).map fun e => [(e.1, .num e.2)] := by
    intro i o ho
    cases heffect : slotEffect M parent cluster seed i with
    | none =>
      rw [slotProposal_none heffect] at ho
      cases ho
      rfl
    | some e => exact (slotProposal_some heffect).2 o ho
  exact map_reduceOption ((mapM_eq_ok.mp hmade).imp fun i o ho => hdiffs i o ho)

theorem length_traditional (h : traditionalProposals M parent k cluster seed = .ok out) :
    out.length = effective M parent cluster seed k := by
  rw [← out.length_map (f := Proposal.diff), diffs_traditional h, List.length_filterMap_eq_countP,
    effective]
  refine List.countP_congr fun i _ => ?_
  simp

theorem effective_le (k : ℕ) : effective M parent cluster seed k ≤ k :=
  List.countP_le_length.trans_eq List.length_range

/-- The conversions of a proposal in their order. -/
def RawProposal.conversions (p : RawProposal) : List Json := p.diff.map Prod.snd ++ [p.selfScore]

theorem uncaught_toProposal {p : RawProposal} :
    Uncaught (p.toProposal B) ↔ Overflows B p.conversions := by
  have htext : ¬ Uncaught (p.proposalId.text B) := by
    unfold text
    split
    · simp
    · split <;> simp
  unfold RawProposal.toProposal RawProposal.conversions
  rw [overflows_append, ← uncaught_floatValues, ← returns_floatValues, overflows_iff,
    uncaught_mapM_cons]
  refine uncaught_bind_const fun diff => ?_
  simp [uncaught_bind, not_uncaught_makeProposal, htext, pure, Except.pure]

theorem returns_parseProposal : Returns (parseProposal B cluster raw) ↔
    ∀ p, readProposal cluster raw = some p → ¬ Overflows B p.conversions := by
  rw [parseProposal]
  cases readProposal cluster raw with
  | none => simp
  | some p =>
    simp only [Option.some.injEq, forall_eq', ← uncaught_toProposal]
    exact not_not.symm

/-- The reply holds something to iterate over, and no proposal of the right types with an overflow
in front of its other failures. -/
def Readable (B : Builtins) (cluster : String) (reply : Except PyError Json) : Prop :=
  ∀ raw, reply = .ok raw → ∃ items, repliedProposals raw = .ok items ∧
    ∀ item ∈ items, ∀ p, readProposal cluster item = some p → ¬ Overflows B p.conversions

/-- The well-formed proposals of a reply. -/
def wellFormed (B : Builtins) (cluster : String) (reply : Except PyError Json) : List Proposal :=
  match reply with
  | .error _ => []
  | .ok raw => ((repliedProposals raw).toOption.getD []).filterMap fun item =>
    (parseProposal B cluster item).toOption.join

theorem returns_proposeViaLlm :
    Returns (agent.proposeViaLlm B k cluster history paretoFront) ↔
      Readable B cluster (agent.reply k cluster history paretoFront) := by
  rw [MakerAgent.proposeViaLlm]
  cases agent.reply k cluster history paretoFront with
  | error e => simp [Readable]
  | ok raw =>
    simp only [Readable, Except.ok.injEq, forall_eq', returns_bind, returns_pure, and_true,
      ← returns_parseProposal, ← returns_mapM]
    rfl

theorem proposeViaLlm_ok (h : agent.proposeViaLlm B k cluster history paretoFront = .ok out) :
    out = wellFormed B cluster (agent.reply k cluster history paretoFront) := by
  rw [MakerAgent.proposeViaLlm] at h
  cases hreply : agent.reply k cluster history paretoFront with
  | error e =>
    rw [hreply] at h
    cases h
    rfl
  | ok raw =>
    rw [hreply] at h
    obtain ⟨items, hitems, h⟩ := bind_ok.mp h
    obtain ⟨parsed, hparsed, h⟩ := bind_ok.mp h
    cases h
    rw [wellFormed, hitems, ← List.map_id parsed.reduceOption]
    refine map_reduceOption ((mapM_eq_ok.mp hparsed).imp fun item o ho => ?_)
    rw [ho, Option.map_id]
    rfl

/-- How many of so many proposals the run mode has the LLM and the mutation code make. -/
def targets (config : MakerConfig) (n : ℕ) : ℕ × ℕ :=
  match config.runMode with
  | .tradOnly => (0, n)
  | .llmOnly => (n, 0)
  | .mix => splitCount n config.llmRatio

theorem targets_sum (config : MakerConfig) (n : ℕ) :
    (targets config n).1 + (targets config n).2 = n := by
  unfold targets splitCount
  cases config.runMode with
  | mix =>
    dsimp only
    omega
  | _ => simp

theorem traditional_zero (hcluster : defaultClusterMap.getD cluster [] ≠ []) :
    traditionalProposals M parent 0 cluster seed = .ok [] := by
  rw [traditionalProposals, if_neg hcluster]
  rfl

/-- A known cluster has fields. -/
theorem cluster_fields (h : cluster ∈ defaultClusterMap.keys) :
    defaultClusterMap.getD cluster [] ≠ [] := by
  have hall : ∀ c ∈ defaultClusterMap.keys, (defaultClusterMap.getD c []).length ≠ 0 := by decide
  intro hnil
  exact hall cluster h (by rw [hnil]; rfl)

/-- The LLM's part of a batch. -/
def keptOf (B : Builtins) (agent : MakerAgent) (n : ℕ) (cluster : String)
    (history paretoFront : ℕ) : List Proposal :=
  let llmTarget := (targets agent.config n).1
  if 0 < llmTarget then wellFormed B cluster (agent.reply llmTarget cluster history paretoFront)
  else []

theorem proposeViaLlm_iff : agent.proposeViaLlm B k cluster history paretoFront = .ok out ↔
    Readable B cluster (agent.reply k cluster history paretoFront) ∧
      out = wellFormed B cluster (agent.reply k cluster history paretoFront) := by
  constructor
  · intro h
    exact ⟨returns_proposeViaLlm.mp ⟨out, h⟩, proposeViaLlm_ok h⟩
  · rintro ⟨hreadable, rfl⟩
    obtain ⟨out, h⟩ := returns_proposeViaLlm.mpr hreadable
    rwa [← proposeViaLlm_ok h]

/-- The LLM's slots: the well-formed proposals, and traditional ones for those that are missing. -/
theorem llmSlots_iff (hcluster : cluster ∈ defaultClusterMap.keys) :
    agent.llmSlots B M parent k cluster history paretoFront = .ok out ↔
      Readable B cluster (agent.reply k cluster history paretoFront) ∧
      ∃ topUp, traditionalProposals M parent
          (k - (wellFormed B cluster (agent.reply k cluster history paretoFront)).length) cluster
          agent.config.seed = .ok topUp ∧
        out = wellFormed B cluster (agent.reply k cluster history paretoFront) ++ topUp := by
  simp only [MakerAgent.llmSlots, bind_ok, proposeViaLlm_iff, and_assoc]
  generalize wellFormed B cluster (agent.reply k cluster history paretoFront) = kept
  have hsplit : (∃ llmOut, Readable B cluster (agent.reply k cluster history paretoFront) ∧
      llmOut = kept ∧
      (if 0 < k - llmOut.length then do
          let topUp ← traditionalProposals M parent (k - llmOut.length) cluster agent.config.seed
          return llmOut ++ topUp
        else return llmOut) = .ok out) ↔
      Readable B cluster (agent.reply k cluster history paretoFront) ∧
      (if 0 < k - kept.length then do
          let topUp ← traditionalProposals M parent (k - kept.length) cluster agent.config.seed
          return kept ++ topUp
        else return kept) = .ok out := by
    constructor
    · rintro ⟨_, hreadable, rfl, h⟩
      exact ⟨hreadable, h⟩
    · rintro ⟨hreadable, h⟩
      exact ⟨kept, hreadable, rfl, h⟩
  rw [hsplit]
  refine and_congr_right fun _ => ?_
  by_cases hshort : 0 < k - kept.length
  · rw [if_pos hshort, bind_ok]
    simp only [pure, Except.pure, Except.ok.injEq, eq_comm]
  · have hzero : k - kept.length = 0 := by omega
    rw [if_neg hshort, hzero, traditional_zero (cluster_fields hcluster)]
    simp [pure, Except.pure, eq_comm]

/-- The part of a batch the LLM is asked for. -/
theorem llmPart_iff (hcluster : cluster ∈ defaultClusterMap.keys) {N : ℕ} :
    (if 0 < (targets agent.config N).1 then
        agent.llmSlots B M parent (targets agent.config N).1 cluster history paretoFront
      else .ok []) = .ok out ↔
      (0 < (targets agent.config N).1 → Readable B cluster
        (agent.reply (targets agent.config N).1 cluster history paretoFront)) ∧
      ∃ topUp, traditionalProposals M parent ((targets agent.config N).1 -
          (keptOf B agent N cluster history paretoFront).length) cluster agent.config.seed =
            .ok topUp ∧
        out = keptOf B agent N cluster history paretoFront ++ topUp := by
  by_cases hasked : 0 < (targets agent.config N).1
  · have hkept : keptOf B agent N cluster history paretoFront = wellFormed B cluster
        (agent.reply (targets agent.config N).1 cluster history paretoFront) := if_pos hasked
    rw [if_pos hasked, hkept, llmSlots_iff hcluster]
    simp only [hasked, true_implies]
  · have hkept : keptOf B agent N cluster history paretoFront = [] := if_neg hasked
    have hzero : (targets agent.config N).1 = 0 := by omega
    rw [if_neg hasked, hkept, hzero, Nat.zero_sub, traditional_zero (cluster_fields hcluster)]
    simp [eq_comm]

theorem take_traditional (h : traditionalProposals M parent k cluster seed = .ok out) :
    out.take k = out := by
  apply List.take_of_length_le
  rw [length_traditional h]
  exact effective_le k

/-- A batch: the LLM's proposals, the top-up and the traditional ones, cut to the number. -/
theorem proposeBatch_iff :
    agent.proposeBatch B M parent n cluster history paretoFront = .ok out ↔
      0 < n ∧ cluster ∈ defaultClusterMap.keys ∧
      (0 < (targets agent.config n.toNat).1 → Readable B cluster
        (agent.reply (targets agent.config n.toNat).1 cluster history paretoFront)) ∧
      ∃ topUp trad,
        traditionalProposals M parent ((targets agent.config n.toNat).1 -
          (keptOf B agent n.toNat cluster history paretoFront).length) cluster agent.config.seed =
            .ok topUp ∧
        traditionalProposals M parent (targets agent.config n.toNat).2 cluster
          agent.config.seed = .ok trad ∧
        out = (keptOf B agent n.toNat cluster history paretoFront ++ topUp ++ trad).take
          n.toNat := by
  rw [MakerAgent.proposeBatch]
  by_cases hn : n ≤ 0
  · simp [hn, not_lt.mpr hn]
  by_cases hcluster : cluster ∈ defaultClusterMap.keys
  swap
  · simp [hn, hcluster]
  rw [if_neg hn, if_neg (not_not.mpr hcluster)]
  simp only [not_le.mp hn, hcluster, true_and]
  have hzero := @traditional_zero _ M parent cluster agent.config.seed (cluster_fields hcluster)
  by_cases hmode : agent.config.runMode = .tradOnly
  · have htargets : targets agent.config n.toNat = (0, n.toNat) := by rw [targets, hmode]
    rw [if_pos hmode, keptOf, htargets]
    simp only [lt_irrefl, if_false, false_implies, true_and, List.length_nil, Nat.sub_zero, hzero,
      List.nil_append]
    constructor
    · intro h
      exact ⟨[], out, rfl, h, (take_traditional h).symm⟩
    · rintro ⟨_, trad, ⟨⟩, htrad, rfl⟩
      rwa [List.nil_append, take_traditional htrad]
  · have hllm : (if agent.config.runMode = .llmOnly then n.toNat
        else (splitCount n.toNat agent.config.llmRatio).1) = (targets agent.config n.toNat).1 := by
      unfold targets
      cases hm : agent.config.runMode <;> simp_all
    have htrad : (if agent.config.runMode = .mix ∧
        0 < (splitCount n.toNat agent.config.llmRatio).2 then
          traditionalProposals M parent (splitCount n.toNat agent.config.llmRatio).2 cluster
            agent.config.seed
        else .ok []) = traditionalProposals M parent (targets agent.config n.toNat).2 cluster
          agent.config.seed := by
      unfold targets
      cases hm : agent.config.runMode with
      | tradOnly => exact absurd hm hmode
      | llmOnly => simpa [hm] using hzero.symm
      | mix =>
        by_cases hpos : 0 < (splitCount n.toNat agent.config.llmRatio).2
        · simp [hpos]
        · have hnone : (splitCount n.toNat agent.config.llmRatio).2 = 0 := by omega
          simpa [hnone] using hzero.symm
    rw [if_neg hmode, hllm, htrad]
    simp only [bind_ok, llmPart_iff hcluster, pure, Except.pure, Except.ok.injEq]
    constructor
    · rintro ⟨_, ⟨hreadable, topUp, htopUp, rfl⟩, trad, htrad, rfl⟩
      exact ⟨hreadable, topUp, trad, htopUp, htrad, rfl⟩
    · rintro ⟨hreadable, topUp, trad, htopUp, htrad, rfl⟩
      exact ⟨_, ⟨hreadable, topUp, htopUp, rfl⟩, trad, htrad, rfl⟩

/-- The reply can be read, and the tags of the slots used are short enough. -/
structure Answered (B : Builtins) (M : Mutator σ) (agent : MakerAgent) (parent : TuningConstants)
    (N : ℕ) (cluster : String) (history paretoFront : ℕ) : Prop where
  readable : 0 < (targets agent.config N).1 → Readable B cluster
    (agent.reply (targets agent.config N).1 cluster history paretoFront)
  topUp_tagged : Tagged M parent cluster agent.config.seed
    ((targets agent.config N).1 - (keptOf B agent N cluster history paretoFront).length)
  trad_tagged : Tagged M parent cluster agent.config.seed (targets agent.config N).2

/-- What there is of proposals before the cut. -/
def supply (B : Builtins) (M : Mutator σ) (agent : MakerAgent) (parent : TuningConstants) (N : ℕ)
    (cluster : String) (history paretoFront : ℕ) : ℕ :=
  let kept := (keptOf B agent N cluster history paretoFront).length
  kept + effective M parent cluster agent.config.seed ((targets agent.config N).1 - kept) +
    effective M parent cluster agent.config.seed (targets agent.config N).2

theorem returns_proposeBatch :
    Returns (agent.proposeBatch B M parent n cluster history paretoFront) ↔
      0 < n ∧ cluster ∈ defaultClusterMap.keys ∧
        Answered B M agent parent n.toNat cluster history paretoFront := by
  simp only [Returns, proposeBatch_iff]
  constructor
  · rintro ⟨out, hn, hcluster, hreadable, topUp, trad, htopUp, htrad, -⟩
    have hfields := cluster_fields hcluster
    exact ⟨hn, hcluster, hreadable, (returns_traditional hfields).mp ⟨topUp, htopUp⟩,
      (returns_traditional hfields).mp ⟨trad, htrad⟩⟩
  · rintro ⟨hn, hcluster, hreadable, htopUp, htrad⟩
    have hfields := cluster_fields hcluster
    obtain ⟨topUp, htopUp⟩ := (returns_traditional hfields).mpr htopUp
    obtain ⟨trad, htrad⟩ := (returns_traditional hfields).mpr htrad
    exact ⟨_, hn, hcluster, hreadable, topUp, trad, htopUp, htrad, rfl⟩

/-- What is promised of a batch: its size, and a traditional proposal for each that is missing. -/
structure SlotForSlot (B : Builtins) (M : Mutator σ) (agent : MakerAgent) (parent : TuningConstants)
    (n : ℤ) (cluster : String) (history paretoFront : ℕ) (out : List Proposal) : Prop where
  returned : agent.proposeBatch B M parent n cluster history paretoFront = .ok out
  exact : out.length = n
  replaced : ∃ topUp rest,
    traditionalProposals M parent ((targets agent.config n.toNat).1 -
      (keptOf B agent n.toNat cluster history paretoFront).length) cluster agent.config.seed =
        .ok topUp ∧
    topUp.length = (targets agent.config n.toNat).1 -
      (keptOf B agent n.toNat cluster history paretoFront).length ∧
    out = (keptOf B agent n.toNat cluster history paretoFront ++ topUp ++ rest).take n.toNat

theorem supply_of_slotForSlot
    (h : SlotForSlot B M agent parent n cluster history paretoFront out) :
    n.toNat ≤ supply B M agent parent n.toNat cluster history paretoFront := by
  obtain ⟨-, -, -, topUp, trad, htopUp, htrad, hout⟩ := proposeBatch_iff.mp h.returned
  have hlength : out.length = n.toNat := by
    have := h.exact
    omega
  rw [supply, ← length_traditional htopUp, ← length_traditional htrad, ← List.length_append,
    ← List.length_append]
  rw [hout, List.length_take] at hlength
  omega

/-- A batch has its size, the missing proposals replaced one by one, exactly for a known cluster, a
reply that can be read, and slots enough that have an effect. -/
theorem proposeBatch_exact_iff (B : Builtins) (M : Mutator σ) (agent : MakerAgent)
    (parent : TuningConstants) (n : ℤ) (cluster : String) (history paretoFront : ℕ) :
    (∃ out, SlotForSlot B M agent parent n cluster history paretoFront out) ↔
      0 < n ∧ cluster ∈ defaultClusterMap.keys ∧
        Answered B M agent parent n.toNat cluster history paretoFront ∧
        n.toNat ≤ supply B M agent parent n.toNat cluster history paretoFront := by
  constructor
  · rintro ⟨out, h⟩
    obtain ⟨hn, hcluster, hanswered⟩ := returns_proposeBatch.mp ⟨out, h.returned⟩
    exact ⟨hn, hcluster, hanswered, supply_of_slotForSlot h⟩
  · rintro ⟨hn, hcluster, hanswered, hsupply⟩
    obtain ⟨out, hreturned⟩ := returns_proposeBatch.mpr ⟨hn, hcluster, hanswered⟩
    obtain ⟨-, -, -, topUp, trad, htopUp, htrad, hout⟩ := proposeBatch_iff.mp hreturned
    have htopUp' := length_traditional htopUp
    have htrad' := length_traditional htrad
    have htargets := targets_sum agent.config n.toNat
    have htrad_le : trad.length ≤ (targets agent.config n.toNat).2 := by
      rw [htrad']
      exact effective_le _
    have htopUp_le : topUp.length ≤ (targets agent.config n.toNat).1 -
        (keptOf B agent n.toNat cluster history paretoFront).length := by
      rw [htopUp']
      exact effective_le _
    rw [supply, ← htopUp', ← htrad'] at hsupply
    refine ⟨out, hreturned, ?_, topUp, trad, htopUp, ?_, hout⟩
    · rw [hout, List.length_take, List.length_append, List.length_append, min_eq_left hsupply]
      omega
    · omega

/-- A field that is no number makes no proposal. -/
theorem slotEffect_table {spec : Member} (hspec : slotSpec cluster i = some spec)
    (hnumber : numberOf parent.toTuningFields spec.field = none) :
    slotEffect M parent cluster seed i = none := by
  rw [slotEffect, hspec]
  simp [slotChange, hnumber]

theorem effective_succ (h : slotEffect M parent cluster seed k = none) :
    effective M parent cluster seed (k + 1) = effective M parent cluster seed k := by
  rw [effective, List.range_succ, List.countP_append, effective]
  simp [h]

/-- An agent without an LLM. -/
def tradAgent : MakerAgent where
  backend _ _ _ _ := .error .assertionError
  config := { runMode := .tradOnly }

def plainBuiltins : Builtins := ⟨fun _ => none, fun _ => none, fun _ => []⟩

def steadyMutator : Mutator (List ℚ) := ⟨Loop.scripted, fun _ => [1 / 10]⟩

/-- The fourth field of the geometry is a table. -/
theorem geometry_short :
    ¬ ∃ out, SlotForSlot plainBuiltins steadyMutator tradAgent .defaults 4 "C1 Geometry" 0 0
      out := by
  rintro ⟨out, h⟩
  have hsupply : 4 ≤ 0 + effective steadyMutator .defaults "C1 Geometry" 0 0 +
      effective steadyMutator .defaults "C1 Geometry" 0 4 := supply_of_slotForSlot h
  have htable : slotEffect steadyMutator .defaults "C1 Geometry" 0 3 = none :=
    slotEffect_table rfl rfl
  rw [effective_succ htable] at hsupply
  have hthree := @effective_le _ steadyMutator .defaults "C1 Geometry" 0 3
  have hzero := @effective_le _ steadyMutator .defaults "C1 Geometry" 0 0
  omega

end Pyharmonics.MakerChecker
