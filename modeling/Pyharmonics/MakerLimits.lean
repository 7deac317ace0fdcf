import Pyharmonics.MakerBatch

/-! What a proposal of a batch may change. -/
namespace Pyharmonics.MakerChecker

open Json
open Loop (defaultClusterMap)

variable {σ : Type} {B : Builtins} {M : Mutator σ} {agent : MakerAgent} {parent : TuningConstants}
  {cluster : String} {seed : ℤ} {n : ℤ} {history paretoFront i k m : ℕ} {out : List Proposal}
  {e : String × ℚ} {α : Type} {config : MakerConfig}

/-- What holds of the first members of the outcomes of a range: each has its position. -/
theorem forall_mem_take_filterMap {f : ℕ → Option α} {P : α → Prop} :
    (∀ a ∈ ((List.range k).filterMap f).take m, P a) ↔
      ∀ i < k, ∀ a, f i = some a → (List.range i).countP (fun j => (f j).isSome) < m → P a := by
  induction k with
  | zero => simp
  | succ k ih =>
    have hlength : ((List.range k).filterMap f).length =
        (List.range k).countP fun j => (f j).isSome := List.length_filterMap_eq_countP
    have hlast : (∀ a ∈ ([k].filterMap f).take (m - ((List.range k).filterMap f).length), P a) ↔
        ∀ a, f k = some a → (List.range k).countP (fun j => (f j).isSome) < m → P a := by
      rw [hlength]
      cases hk : f k with
      | none => simp [hk]
      | some a =>
        rw [List.filterMap_cons_some hk, List.filterMap_nil]
        by_cases hlt : (List.range k).countP (fun j => (f j).isSome) < m
        · obtain ⟨d, hd⟩ := Nat.exists_eq_succ_of_ne_zero (Nat.sub_ne_zero_of_lt hlt)
          simp [hd, hlt]
        · simp [Nat.sub_eq_zero_of_le (not_lt.mp hlt), hlt]
    rw [List.range_succ, List.filterMap_append, List.take_append, List.forall_mem_append, ih, hlast]
    simp only [Nat.forall_lt_succ_right]

/-- The names of a cluster's fields. -/
def fieldNames (cluster : String) : List String :=
  (defaultClusterMap.getD cluster []).map fun m => m.field.name

/-- The changes are of the cluster's fields, each within the configured limit. -/
def Within (config : MakerConfig) (cluster : String) (diff : List (String × PyFloat)) : Prop :=
  ∀ e ∈ diff, e.1 ∈ fieldNames cluster ∧ ∃ x, e.2 = .num x ∧ |x| ≤ config.maxDiffPct

theorem within_slot (h : slotEffect M parent cluster seed i = some e) :
    Within config cluster [(e.1, .num e.2)] ↔ |e.2| ≤ config.maxDiffPct := by
  obtain ⟨spec, change, hspec, -, rfl, -⟩ := slotEffect_some h
  have hname : spec.field.name ∈ fieldNames cluster :=
    List.mem_map_of_mem (List.mem_of_getElem? hspec)
  simp [Within, hname]

/-- The first traditional proposals keep to the limit when their slots do. -/
theorem within_traditional (h : traditionalProposals M parent k cluster seed = .ok out) :
    (∀ p ∈ out.take m, Within config cluster p.diff) ↔
      ∀ i < k, ∀ e, slotEffect M parent cluster seed i = some e →
        effective M parent cluster seed i < m → |e.2| ≤ config.maxDiffPct := by
  have hdiffs : (∀ p ∈ out.take m, Within config cluster p.diff) ↔
      ∀ diff ∈ (out.map Proposal.diff).take m, Within config cluster diff := by
    rw [← List.map_take, List.forall_mem_map]
  have hcount : ∀ i, (List.range i).countP (fun j => ((slotEffect M parent cluster seed j).map
      fun e => [(e.1, PyFloat.num e.2)]).isSome) = effective M parent cluster seed i := by
    intro i
    simp only [Option.isSome_map, effective]
  rw [hdiffs, diffs_traditional h, forall_mem_take_filterMap]
  refine forall₂_congr fun i _ => ?_
  rw [hcount]
  cases heffect : slotEffect M parent cluster seed i with
  | none => simp
  | some e => simp [within_slot heffect]

theorem forall_mem_take_append {P : α → Prop} {a b c : List α} :
    (∀ x ∈ (a ++ b ++ c).take m, P x) ↔ (∀ x ∈ a.take m, P x) ∧
      (∀ x ∈ b.take (m - a.length), P x) ∧ ∀ x ∈ c.take (m - (a.length + b.length)), P x := by
  rw [List.take_append, List.take_append, List.forall_mem_append, List.forall_mem_append,
    List.length_append, and_assoc]

/-- The well-formed proposals that are not cut off name only fields of the cluster, with numbers
within the limit, and so do the slots that are used. -/
structure Limited (B : Builtins) (M : Mutator σ) (agent : MakerAgent) (parent : TuningConstants)
    (N : ℕ) (cluster : String) (history paretoFront : ℕ) : Prop where
  kept : ∀ p ∈ (keptOf B agent N cluster history paretoFront).take N,
    Within agent.config cluster p.diff
  topUp : ∀ i < (targets agent.config N).1 - (keptOf B agent N cluster history paretoFront).length,
    ∀ e, slotEffect M parent cluster agent.config.seed i = some e →
      |e.2| ≤ agent.config.maxDiffPct
  trad : ∀ i < (targets agent.config N).2,
    ∀ e, slotEffect M parent cluster agent.config.seed i = some e →
      (keptOf B agent N cluster history paretoFront).length +
        effective M parent cluster agent.config.seed
          ((targets agent.config N).1 - (keptOf B agent N cluster history paretoFront).length) +
        effective M parent cluster agent.config.seed i < N →
      |e.2| ≤ agent.config.maxDiffPct

/-- In a batch that is returned. -/
theorem limited_of_returned
    (h : agent.proposeBatch B M parent n cluster history paretoFront = .ok out) :
    (∀ p ∈ out, Within agent.config cluster p.diff) ↔
      Limited B M agent parent n.toNat cluster history paretoFront := by
  obtain ⟨-, -, -, topUp, trad, htopUp, htrad, rfl⟩ := proposeBatch_iff.mp h
  have htargets := targets_sum agent.config n.toNat
  have htopUp' := length_traditional htopUp
  rw [forall_mem_take_append, within_traditional htopUp, within_traditional htrad]
  constructor
  · rintro ⟨hkept, htop, hrest⟩
    refine ⟨hkept, fun i hi e he => htop i hi e he ?_, fun i hi e he hpos => hrest i hi e he ?_⟩
    · have hpos := @effective_le _ M parent cluster agent.config.seed i
      omega
    · omega
  · rintro ⟨hkept, htop, hrest⟩
    refine ⟨hkept, fun i hi e he _ => htop i hi e he, fun i hi e he hpos => hrest i hi e he ?_⟩
    omega

/-- A batch keeps to the cluster and to the configured limit exactly when the reply's well-formed
proposals and the changes of the slots do: neither is compared with them. -/
theorem proposeBatch_within_iff (B : Builtins) (M : Mutator σ) (agent : MakerAgent)
    (parent : TuningConstants) (n : ℤ) (cluster : String) (history paretoFront : ℕ) :
    (∀ out, agent.proposeBatch B M parent n cluster history paretoFront = .ok out →
      ∀ p ∈ out, Within agent.config cluster p.diff) ↔
      (0 < n → cluster ∈ defaultClusterMap.keys →
        Answered B M agent parent n.toNat cluster history paretoFront →
        Limited B M agent parent n.toNat cluster history paretoFront) := by
  constructor
  · intro h hn hcluster hanswered
    obtain ⟨out, hout⟩ := returns_proposeBatch.mpr ⟨hn, hcluster, hanswered⟩
    exact (limited_of_returned hout).mp (h out hout)
  · intro h out hout
    obtain ⟨hn, hcluster, hanswered⟩ := returns_proposeBatch.mp ⟨out, hout⟩
    exact (limited_of_returned hout).mpr (h hn hcluster hanswered)

/-- A reply about the geometry that changes a window by 40 percent. -/
def foreignReply : Json :=
  .dict [("proposals", .list [.dict
    [("clusters_touched", .list [.str "C1 Geometry"]),
      ("diff", .dict [("rsi_window", .float (.num 40))]), ("maker_intent", .str "widen"),
      ("reasoning", .str ""), ("self_score", .float (.num (1 / 2)))]])]

theorem ten_limit : (0 : ℚ) < 10 ∧ (10 : ℚ) ≤ 50 := by norm_num

/-- An agent that asks the LLM only, for changes of at most 10 percent. -/
def eagerAgent : MakerAgent where
  backend _ _ _ _ := .ok foreignReply
  config := { runMode := .llmOnly, maxDiffPct := ⟨10, ten_limit⟩ }

/-- The proposal is returned. -/
theorem foreign_field_returned : ¬ ∀ out,
    eagerAgent.proposeBatch plainBuiltins steadyMutator .defaults 1 "C1 Geometry" 0 0 = .ok out →
      ∀ p ∈ out, Within eagerAgent.config "C1 Geometry" p.diff := by
  have hdiffs : (eagerAgent.proposeBatch plainBuiltins steadyMutator .defaults 1 "C1 Geometry"
      0 0).toOption.map (List.map Proposal.diff) = some [[("rsi_window", .num 40)]] := by
    decide +kernel
  obtain ⟨out, hout, hdiffs⟩ := Option.map_eq_some_iff.mp hdiffs
  intro h
  obtain ⟨p, hp, hdiff⟩ := List.mem_map.mp (hdiffs ▸ List.mem_singleton_self _)
  have hwithin := h out (toOption_eq_some.mp hout) p hp
  rw [hdiff] at hwithin
  have hname := (hwithin _ (List.mem_singleton_self _)).1
  revert hname
  decide

end Pyharmonics.MakerChecker
