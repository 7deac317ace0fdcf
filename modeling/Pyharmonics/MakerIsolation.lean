import Pyharmonics.CalibrationError
import Pyharmonics.CheckerReturns
import Pyharmonics.Library.Divergence

/-! Isolation over the whole checker: the Maker's fields do not move a verdict, and the leakage
metrics say so. -/
namespace Pyharmonics.MakerChecker

open Json Divergence
open Loop (Elementary mathElementary)

/-- A field that the isolation level hides, or the id, which the checker writes itself. -/
def Hidden (level : IsolationLevel) (k : String) : Prop :=
  k ∈ strippedFields level ∨ k = "candidate_id"

/-- What the Maker may do to the results of its candidate at an isolation level. -/
inductive MakerEdit (level : IsolationLevel)
  | write (k : {k // Hidden level k}) (j : Json)
  | remove (k : {k // Hidden level k})

def MakerEdit.apply {level : IsolationLevel} (results : Dict String Json) :
    MakerEdit level → Dict String Json
  | .write k j => results.set k j
  | .remove k => results.erase k

/-- The result of `leakage_metrics`. -/
structure Leakage (ν : Type) where
  klDivergence : ν
  disagreementRate : ν
  n : ν

section

variable {ν : Type} [Field ν] [LinearOrder ν] [IsStrictOrderedRing ν] [FloorRing ν]

/-- `sum(verdicts) / n` -/
def acceptRate (verdicts : List Bool) : ν := verdicts.count true / verdicts.length

/-- `max(min(p, 1.0 - eps), eps)` -/
def offEnds (p : ν) : ν :=
  let eps : ν := 1 / ((10 ^ 9 : ℕ) : ν)
  max (min p (1 - eps)) eps

/-- One side of the divergence. -/
def weightedLog (E : Elementary ν) (p q : ν) : ν :=
  p * if p ≤ 0 then 0 else if q ≤ 0 then 0 else E.log (p / q)

/-- `leakage_metrics` -/
def leakageMetrics (E : Elementary ν) (a b : List Bool) : Except PyError (Leakage ν) :=
  if a.length ≠ b.length then
    .error (.valueError "verdicts_a and verdicts_b must be same length" [])
  else if a.length = 0 then .ok ⟨0, 0, 0⟩
  else
    let p := offEnds (acceptRate a)
    let q := offEnds (acceptRate b)
    let kl := weightedLog E p q + weightedLog E (1 - p) (1 - q)
    .ok ⟨max 0 kl, (a.zip b).countP (fun e => e.1 ≠ e.2) / a.length, a.length⟩

end

variable {B : Builtins} {E : Elementary ℚ} {agent : CheckerAgent} {candidateId : String}
  {results results' payload payload' : Dict String Json} {level : IsolationLevel} {k salt : String}
  {fields : List String} {edits : List (MakerEdit level)} {a b : List Bool} {m : Leakage ℝ}

/-- Two dictionaries that hold the same but for hidden fields. -/
def AlikeTo (level : IsolationLevel) (d e : Dict String Json) : Prop :=
  ∀ k, ¬ Hidden level k → d.get? k = e.get? k

theorem AlikeTo.apply (h : AlikeTo level results' results) (edit : MakerEdit level) :
    AlikeTo level (edit.apply results') results := by
  intro k hk
  cases edit with
  | write field j =>
    have hne : k ≠ field := fun heq => hk (heq ▸ field.2)
    rw [MakerEdit.apply, Dict.get?_set, if_neg hne, h k hk]
  | remove field =>
    have hne : k ≠ field := fun heq => hk (heq ▸ field.2)
    rw [MakerEdit.apply, Dict.get?_erase hne, h k hk]

theorem alikeTo_edited : AlikeTo level (edits.foldl MakerEdit.apply results) results := by
  have hrun : ∀ results', AlikeTo level results' results →
      AlikeTo level (edits.foldl MakerEdit.apply results') results := by
    induction edits with
    | nil => exact fun _ h => h
    | cons edit edits ih => exact fun _ h => ih _ (h.apply edit)
  exact hrun results fun _ _ => rfl

theorem get?_stripped : (fields.foldl Dict.erase payload).get? k =
    if k ∈ fields then none else payload.get? k := by
  induction fields generalizing payload with
  | nil => rfl
  | cons field fields ih =>
    rw [List.foldl_cons, ih, Dict.get?_erase_eq]
    by_cases hrest : k ∈ fields
    · simp [hrest]
    · by_cases hk : k = field <;> simp [hk, hrest]

/-- The same under every key. -/
def SameEntries (d e : Dict String Json) : Prop := ∀ k, d.get? k = e.get? k

theorem SameEntries.keys_perm (h : SameEntries payload payload') :
    payload.keys.Perm payload'.keys := by
  refine (List.perm_ext_iff_of_nodup payload.nodup payload'.nodup).mpr fun k => ?_
  change k ∈ payload.keys ↔ k ∈ payload'.keys
  rw [Dict.mem_keys_iff, Dict.mem_keys_iff, h k]

theorem SameEntries.set (h : SameEntries payload payload') {j : Json} :
    SameEntries (payload.set k j) (payload'.set k j) := by
  intro k'
  rw [Dict.get?_set, Dict.get?_set, h k']

/-- A prompt is made of the fields' names in order and of the metrics. -/
theorem SameEntries.buildPrompt (h : SameEntries payload payload') :
    buildPrompt B payload = buildPrompt B payload' := by
  have hkeys : Sorting.sortBy id payload.keys = Sorting.sortBy id payload'.keys := by
    have hnodup : (Sorting.sortBy id payload'.keys).Nodup :=
      (Sorting.sortBy_perm id _).nodup_iff.mpr payload'.nodup
    have hsorted := Sorting.sortBy_pairwise id payload'.keys
    refine Sorting.sortBy_eq_of_pairwise_lt ?_ ?_
    · exact hsorted.imp₂ (fun a b hle hne => lt_of_le_of_ne hle hne) hnodup
    · exact h.keys_perm.trans (Sorting.sortBy_perm id _).symm
  rw [MakerChecker.buildPrompt, MakerChecker.buildPrompt, hkeys, Dict.getD, Dict.getD, h]

/-- What is left of two alike payloads is the same, and the same id is hashed. -/
theorem AlikeTo.strip (B : Builtins) (candidateId salt : String)
    (h : AlikeTo level results' results) :
    (∃ isolated' isolated,
      stripMakerArtifacts B (results'.set "candidate_id" (.str candidateId)) level salt =
        .ok isolated' ∧
      stripMakerArtifacts B (results.set "candidate_id" (.str candidateId)) level salt =
        .ok isolated ∧ SameEntries isolated' isolated) ∨
    ∃ e, stripMakerArtifacts B (results'.set "candidate_id" (.str candidateId)) level salt =
        .error e ∧
      stripMakerArtifacts B (results.set "candidate_id" (.str candidateId)) level salt =
        .error e := by
  have hleft : SameEntries
      ((strippedFields level).foldl Dict.erase (results'.set "candidate_id" (.str candidateId)))
      ((strippedFields level).foldl Dict.erase (results.set "candidate_id" (.str candidateId))) := by
    intro k
    rw [get?_stripped, get?_stripped, Dict.get?_set, Dict.get?_set]
    by_cases hstripped : k ∈ strippedFields level
    · rw [if_pos hstripped, if_pos hstripped]
    · rw [if_neg hstripped, if_neg hstripped]
      by_cases hid : k = "candidate_id"
      · rw [if_pos hid, if_pos hid]
      · rw [if_neg hid, if_neg hid, h k (not_or.mpr ⟨hstripped, hid⟩)]
  have hraw : ∀ results : Dict String Json,
      (results.set "candidate_id" (.str candidateId)).getD "candidate_id" (.str "") =
        .str candidateId := by
    intro results
    rw [Dict.getD_set, if_pos rfl]
  simp only [stripMakerArtifacts, hraw, text, ok_bind]
  split_ifs
  · exact .inl ⟨_, _, rfl, rfl, hleft.set⟩
  · exact .inr ⟨_, rfl, rfl⟩
  · exact .inl ⟨_, _, rfl, rfl, hleft⟩

theorem AlikeTo.verify (h : AlikeTo agent.config.isolationLevel results' results) :
    agent.verify B E candidateId results' = agent.verify B E candidateId results := by
  rw [CheckerAgent.verify, CheckerAgent.verify]
  rcases h.strip B candidateId agent.salt with
    ⟨isolated', isolated, hstrip', hstrip, hsame⟩ | ⟨e, hstrip', hstrip⟩
  · rw [hstrip', hstrip, ok_bind, ok_bind, hsame.buildPrompt]
  · rw [hstrip', hstrip]

theorem offEnds_eq (p : ℝ) : offEnds p = max (min p (1 - 1 / 10 ^ 9)) (1 / 10 ^ 9) := by
  norm_num [offEnds]

theorem offEnds_unit (p : ℝ) : 1 / 10 ^ 9 ≤ offEnds p ∧ offEnds p ≤ 1 - 1 / 10 ^ 9 := by
  rw [offEnds_eq]
  refine ⟨le_max_right _ _, max_le (min_le_right _ _) ?_⟩
  norm_num

theorem weightedLog_eq {p q : ℝ} (hp : 0 < p) (hq : 0 < q) :
    weightedLog mathElementary p q = p * Real.log (p / q) := by
  rw [weightedLog, if_neg hp.not_ge, if_neg hq.not_ge]
  rfl

/-- The two sides are the divergence of the rates. -/
theorem kl_eq (p q : ℝ) : weightedLog mathElementary (offEnds p) (offEnds q) +
    weightedLog mathElementary (1 - offEnds p) (1 - offEnds q) =
      binary (offEnds p) (offEnds q) := by
  have hp := offEnds_unit p
  have hq := offEnds_unit q
  rw [weightedLog_eq (by linarith) (by linarith), weightedLog_eq (by linarith) (by linarith), binary]

/-- Of fewer than `10 ^ 9` verdicts no two different numbers accepted get the same rate. -/
theorem offEnds_lt {i j n : ℕ} (hn : n < 10 ^ 9) (hij : i < j) (hj : j ≤ n) :
    offEnds ((i : ℝ) / n) < offEnds ((j : ℝ) / n) := by
  have hpos : (0 : ℝ) < n := by exact_mod_cast (by omega : 0 < n)
  have hsmall : (1 : ℝ) / 10 ^ 9 < 1 / n := by
    apply one_div_lt_one_div_of_lt hpos
    exact_mod_cast hn
  have hstep : (i : ℝ) / n + 1 / n ≤ j / n := by
    rw [← add_div]
    gcongr
    exact_mod_cast hij
  have hzero : (0 : ℝ) ≤ i / n := by positivity
  have hone : (j : ℝ) / n ≤ 1 := by
    rw [div_le_one hpos]
    exact_mod_cast hj
  rw [offEnds_eq, offEnds_eq, max_lt_iff]
  constructor
  · refine lt_max_of_lt_left (lt_min ?_ ?_)
    · exact (min_le_left _ _).trans_lt (by linarith)
    · exact (min_le_left _ _).trans_lt (by linarith)
  · refine lt_max_of_lt_left (lt_min (by linarith) ?_)
    norm_num

theorem acceptRate_eq_iff (hlength : a.length = b.length) (hn : a.length < 10 ^ 9) :
    offEnds (acceptRate a : ℝ) = offEnds (acceptRate b) ↔ a.count true = b.count true := by
  rw [acceptRate, acceptRate, ← hlength]
  constructor
  · intro h
    rcases lt_trichotomy (a.count true) (b.count true) with hlt | heq | hlt
    · exact absurd h (offEnds_lt hn hlt (hlength ▸ List.count_le_length)).ne
    · exact heq
    · exact absurd h (offEnds_lt hn hlt List.count_le_length).ne'
  · exact fun h => by rw [h]

/-- What the metrics are worth: a rate of 0 is said of equal verdicts only, a divergence of 0 of
equally many accepted. -/
structure Measures (a b : List Bool) (m : Leakage ℝ) : Prop where
  n : m.n = a.length
  kl_nonneg : 0 ≤ m.klDivergence
  rate_nonneg : 0 ≤ m.disagreementRate
  rate_le_one : m.disagreementRate ≤ 1
  rate_zero : m.disagreementRate = 0 ↔ a = b
  kl_zero : a.length < 10 ^ 9 → (m.klDivergence = 0 ↔ a.count true = b.count true)
  rate_ge : |(acceptRate a : ℝ) - acceptRate b| ≤ m.disagreementRate

/-- Two lists of verdicts are measured if they have the same length, and the disagreement is at
least the difference of the acceptance rates. -/
theorem leakageMetrics_measures (a b : List Bool) :
    (a.length ≠ b.length ∧ ∃ e, leakageMetrics mathElementary a b = .error e) ∨
    a.length = b.length ∧ ∃ m, leakageMetrics mathElementary a b = .ok m ∧ Measures a b m := by
  by_cases hlength : a.length = b.length
  · refine .inr ⟨hlength, ?_⟩
    by_cases hempty : a.length = 0
    · have ha := List.length_eq_zero_iff.mp hempty
      have hb := List.length_eq_zero_iff.mp (hlength ▸ hempty)
      subst ha hb
      refine ⟨⟨0, 0, 0⟩, by simp [leakageMetrics], ?_⟩
      constructor <;> simp
    · have hpos : (0 : ℝ) < a.length := by exact_mod_cast Nat.pos_of_ne_zero hempty
      refine ⟨_, by rw [leakageMetrics, if_neg (not_not.mpr hlength), if_neg hempty], ?_⟩
      have hp := offEnds_unit (acceptRate a)
      have hq := offEnds_unit (acceptRate b)
      have hkl : 0 ≤ binary (offEnds (acceptRate a)) (offEnds (acceptRate b)) :=
        binary_nonneg (by linarith) (by linarith) (by linarith) (by linarith)
      constructor
      · rfl
      · exact le_max_left _ _
      · positivity
      · rw [div_le_one hpos]
        exact_mod_cast differing_le
      · rw [div_eq_zero_iff, or_iff_left hpos.ne', Nat.cast_eq_zero]
        exact differing_eq_zero_iff hlength
      · intro hn
        rw [kl_eq, max_eq_right hkl, binary_eq_zero_iff (by linarith) (by linarith) (by linarith)
          (by linarith), acceptRate_eq_iff hlength hn]
      · rw [acceptRate, acceptRate, ← hlength, ← sub_div, abs_div, abs_of_pos hpos]
        exact div_le_div_of_nonneg_right (count_sub_le hlength) hpos.le
  · exact .inl ⟨hlength, _, by rw [leakageMetrics, if_pos hlength]⟩

theorem leakageMetrics_self : leakageMetrics mathElementary a a = .ok ⟨0, 0, a.length⟩ := by
  by_cases hempty : a.length = 0
  · simp [leakageMetrics, hempty]
  · have hp := offEnds_unit (acceptRate a)
    have hkl : binary (offEnds (acceptRate a)) (offEnds (acceptRate a)) = 0 :=
      (binary_eq_zero_iff (by linarith) (by linarith) (by linarith) (by linarith)).mpr rfl
    have hdiffering : differing a a = 0 := (differing_eq_zero_iff rfl).mpr rfl
    rw [leakageMetrics, if_neg (not_not.mpr rfl), if_neg hempty]
    dsimp only
    rw [kl_eq, hkl, max_self]
    change Except.ok (Leakage.mk 0 ((differing a a : ℝ) / a.length) _) = _
    rw [hdiffering, Nat.cast_zero, zero_div]

/-- One candidate of a paired batch, and what its Maker makes of the fields of its results. -/
structure Pair (level : IsolationLevel) where
  candidateId : String
  results : Dict String Json
  edits : List (MakerEdit level)

/-- Whatever the Makers write into or remove from the hidden fields of their candidates, the checker
ends the batch as before, and the two series of verdicts have no leakage. -/
theorem verdicts_isolated (B : Builtins) (E : Elementary ℚ) (agent : CheckerAgent)
    (batch : List (Pair agent.config.isolationLevel)) :
    (batch.mapM fun p => agent.verify B E p.candidateId (p.edits.foldl MakerEdit.apply p.results)) =
      (batch.mapM fun p => agent.verify B E p.candidateId p.results) ∧
    ∀ real fake : List Verdict,
      (batch.mapM fun p => agent.verify B E p.candidateId p.results) = .ok real →
      (batch.mapM fun p =>
        agent.verify B E p.candidateId (p.edits.foldl MakerEdit.apply p.results)) = .ok fake →
      leakageMetrics mathElementary (real.map Verdict.accept) (fake.map Verdict.accept) =
        .ok ⟨0, 0, batch.length⟩ := by
  have hsame : (batch.mapM fun p =>
      agent.verify B E p.candidateId (p.edits.foldl MakerEdit.apply p.results)) =
        batch.mapM fun p => agent.verify B E p.candidateId p.results := by
    congr 1
    funext p
    exact alikeTo_edited.verify
  refine ⟨hsame, ?_⟩
  intro real fake hreal hfake
  cases hreal.symm.trans (hsame ▸ hfake)
  rw [leakageMetrics_self, List.length_map, (mapM_eq_ok.mp hreal).length_eq]

end Pyharmonics.MakerChecker
