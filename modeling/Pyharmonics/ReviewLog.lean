import Pyharmonics.DurableFacts
import Pyharmonics.JsonText
import Pyharmonics.Library.LineLogs

/-! The log of human reviews: decisions are appended, a line each, and loaded again. -/
namespace Pyharmonics.ReviewLog

open TextLines DurableFacts
open Json (Writer dumps)

/-- `VALID_DECISIONS` -/
inductive Verdict
  | accept | reject | noAction
  deriving DecidableEq

def Verdict.text : Verdict → String
  | .accept => "accept"
  | .reject => "reject"
  | .noAction => "no_action"

/-- A decision that passed `__post_init__`. -/
structure HumanReviewDecision where
  candidateId : String
  decision : Verdict
  reviewer : String
  timestamp : String
  notes : String := ""
  named : candidateId ≠ ""
  reviewed : reviewer ≠ ""

/-- The constructor, of texts; `repr` is how Python prints a text that is no decision. -/
def make (repr : String → String) (candidateId decision reviewer timestamp notes : String) :
    Except PyError HumanReviewDecision :=
  match [Verdict.accept, .reject, .noAction].find? fun v => v.text = decision with
  | none => .error (.valueError ("decision must be one of ('accept', 'reject', 'no_action'); got " ++
      repr decision) [])
  | some v =>
    if named : candidateId = "" then .error (.valueError "candidate_id is required" [])
    else if reviewed : reviewer = "" then .error (.valueError "reviewer is required" [])
    else .ok ⟨candidateId, v, reviewer, timestamp, notes, named, reviewed⟩

/-- `to_dict`, its keys sorted. -/
def HumanReviewDecision.toDict (d : HumanReviewDecision) : Json :=
  .dict [("candidate_id", .str d.candidateId), ("decision", .str d.decision.text),
    ("notes", .str d.notes), ("reviewer", .str d.reviewer), ("timestamp", .str d.timestamp)]

variable (w : Writer) (loads : List Char → Except PyError Json)

/-- `append_decision` -/
def appendDecision (file : Option (List Char)) (d : HumanReviewDecision) : Option (List Char) :=
  some (file.getD [] ++ (dumps w d.toDict ++ ['\n']))

/-- `load_pending`: the first line that `json.loads` does not read raises. -/
def loadPending (file : Option (List Char)) : Except PyError (List Json) :=
  match file with
  | none => .ok []
  | some text => ((splitLines (universal text)).filter fun line => strip line ≠ []).mapM loads

variable {w loads} {file : Option (List Char)} {d : HumanReviewDecision}
  {decisions : List HumanReviewDecision} {repr : String → String}

/-- A decision has the texts it was made of, if they make one. -/
theorem make_ok {candidateId decision reviewer timestamp notes : String} :
    make repr candidateId decision reviewer timestamp notes = .ok d ↔
      d.candidateId = candidateId ∧ d.decision.text = decision ∧ d.reviewer = reviewer ∧
        d.timestamp = timestamp ∧ d.notes = notes := by
  constructor
  · intro h
    rw [make] at h
    split at h
    · cases h
    · rename_i v hfind
      have htext : v.text = decision := by simpa using List.find?_some hfind
      split_ifs at h
      cases h
      exact ⟨rfl, htext, rfl, rfl, rfl⟩
  · obtain ⟨candidateId, v, reviewer, timestamp, notes, hnamed, hreviewed⟩ := d
    rintro ⟨rfl, rfl, rfl, rfl, rfl⟩
    have hfind : ([Verdict.accept, .reject, .noAction].find? fun u => u.text = v.text) = some v := by
      cases v <;> decide
    simp [make, hfind, hnamed, hreviewed]

theorem exists_dumps (d : HumanReviewDecision) :
    ∃ body, dumps w d.toDict = '\x7b' :: (body ++ ['\x7d']) := ⟨_, rfl⟩

theorem unbroken_dumps (hw : w.ensureAscii = true) : Unbroken (dumps w d.toDict) := by
  intro c hc
  have hwritten := Json.written_dumps d.toDict c hc
  rw [hw] at hwritten
  exact Json.not_break_of_written hwritten

/-- The line of a decision is no empty line. -/
theorem strip_dumps : strip (dumps w d.toDict) ≠ [] := by
  obtain ⟨body, hbody⟩ := exists_dumps d (w := w)
  have hself : strip ([] ++ '\x7b' :: (body ++ ['\x7d']) ++ []) = '\x7b' :: (body ++ ['\x7d']) := by
    refine strip_core nofun nofun ?_ ?_ (by simp)
    · rintro _ ⟨⟩
      decide
    · rw [← List.cons_append, List.getLast?_concat]
      rintro _ ⟨⟩
      decide
  rw [List.nil_append, List.append_nil] at hself
  simp [hbody, hself]

theorem loadPending_eq : loadPending loads file =
    ((splitLines (universal (file.getD []))).filter fun line => strip line ≠ []).mapM loads := by
  cases file <;> rfl

theorem foldl_appendDecision : (decisions.foldl (appendDecision w) file).getD [] =
    file.getD [] ++ flat (decisions.map fun d => dumps w d.toDict) := by
  induction decisions generalizing file with
  | nil => simp
  | cons d decisions ih =>
    rw [List.foldl_cons, ih]
    simp [appendDecision]

/-- Decisions appended to a log of whole lines are loaded behind what it had. -/
theorem loadPending_appends (hw : w.ensureAscii = true) (hended : Ended (file.getD []))
    (hloads : ∀ d ∈ decisions, loads (dumps w d.toDict) = .ok d.toDict) :
    loadPending loads (decisions.foldl (appendDecision w) file) = do
      let before ← loadPending loads file
      return before ++ decisions.map HumanReviewDecision.toDict := by
  have hunbroken : ∀ line ∈ decisions.map (fun d => dumps w d.toDict), Unbroken line := by
    intro line hline
    obtain ⟨d, -, rfl⟩ := List.mem_map.mp hline
    exact unbroken_dumps hw
  have hlines : (decisions.map fun d => dumps w d.toDict).filter (fun line => strip line ≠ []) =
      decisions.map fun d => dumps w d.toDict := by
    refine List.filter_eq_self.mpr fun line hline => ?_
    obtain ⟨d, -, rfl⟩ := List.mem_map.mp hline
    simpa using strip_dumps
  have hread : (decisions.map fun d => dumps w d.toDict).mapM loads =
      .ok (decisions.map HumanReviewDecision.toDict) := by
    rw [mapM_eq_ok, List.forall₂_map_left_iff, List.forall₂_map_right_iff, List.forall₂_same]
    exact hloads
  rw [loadPending_eq, loadPending_eq, foldl_appendDecision, universal_append hended,
    universal_of_clean (clean_flat hunbroken), splitLines_append (ended_universal hended),
    splitLines_flat hunbroken, List.filter_append, hlines, List.mapM_append, hread]
  rfl

/-- A decision, and `json.loads` on it. -/
theorem candidate_ne : "c1" ≠ "" := by decide

def accepted : HumanReviewDecision :=
  ⟨"c1", .accept, "c1", "t", "", candidate_ne, candidate_ne⟩

theorem loadPending_appends_accepted :
    loadPending (fun _ => .ok accepted.toDict)
        ([accepted].foldl (appendDecision Json.integerWriter) none) = do
      let before ← loadPending (fun _ => .ok accepted.toDict) none
      return before ++ [accepted].map HumanReviewDecision.toDict :=
  loadPending_appends rfl (by simp) (by simp)

end Pyharmonics.ReviewLog
