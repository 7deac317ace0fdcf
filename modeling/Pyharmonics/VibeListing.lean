import Pyharmonics.VibeIsolation

/-! The index of a user's sessions, and the listing that is made from it. -/
namespace Pyharmonics.VibeSessions

open Machines Sorting Vibe

variable {μ φ π : Type*} {validate : φ → Option π} {s : Site μ π} {u sid : String}
  {x y : VibeSession}

/-- The sessions of a user that have not been deleted. -/
def Site.active (s : Site μ π) (userId : String) : List VibeSession :=
  s.sessions.values.filter fun x => x.userId = userId ∧ x.status = "active"

def Active (s : Site μ π) (u id : String) : Prop :=
  ∃ x, s.sessions.get? id = some x ∧ x.userId = u ∧ x.status = "active"

/-- The index of a user names the user's active sessions, each once. -/
structure Indexed (s : Site μ π) : Prop where
  nodup : ∀ u, (s.userSessions.getD u []).Nodup
  listed : ∀ u id, id ∈ s.userSessions.getD u [] ↔ Active s u id

/-- A session is rewritten with its user and its status. -/
theorem Indexed.putSession (h : Indexed s) (hx : s.sessions.get? sid = some x)
    (huser : y.userId = x.userId) (hstatus : y.status = x.status) :
    Indexed (s.putSession sid y) := by
  refine ⟨h.nodup, fun u id => (h.listed u id).trans ?_⟩
  simp only [Active, Site.putSession, Dict.get?_set]
  by_cases heq : id = sid
  · subst heq
    simp [hx, huser, hstatus]
  · simp [heq]

theorem Indexed.touchSession {now : String} (h : Indexed s) : Indexed (s.touchSession sid now) := by
  rw [Site.touchSession]
  split
  · exact h
  · next x hx => exact h.putSession hx rfl rfl

theorem Indexed.createMessage {m : μ} {now : String} (h : Indexed s) :
    Indexed (s.createMessage sid m now) := by
  have hput : Indexed (s.putMessages sid (s.messages.getD sid [] ++ [m])) := ⟨h.nodup, h.listed⟩
  exact hput.touchSession

theorem Indexed.updateSessionTitle {title now : String} (h : Indexed s) :
    Indexed (s.updateSessionTitle sid title now) := by
  rw [Site.updateSessionTitle]
  split
  · exact h
  · next x hx => exact h.putSession hx rfl rfl

theorem Indexed.updateRun {rid : String} {updates : List (String × Json)} (h : Indexed s) :
    Indexed (s.updateRun rid updates) := by
  rw [Site.updateRun]
  split
  · exact h
  · exact ⟨h.nodup, h.listed⟩

theorem Indexed.createSession {title : Option String} {context : Option (List (String × Json))}
    {now : String} (h : Indexed s) (hfree : s.owner sid = none) :
    Indexed (s.createSession u title context sid now).1 := by
  have hnone : s.sessions.get? sid = none := Option.map_eq_none_iff.mp hfree
  have hnew : ∀ v, sid ∉ s.userSessions.getD v [] := by
    intro v hmem
    obtain ⟨x, hx, -⟩ := (h.listed v sid).mp hmem
    rw [hnone] at hx
    cases hx
  simp only [Site.createSession, if_neg (hnew u)]
  constructor
  · intro v
    simp only [Site.putIds, Site.putMessages, Site.putSession, Dict.getD_set]
    split
    · exact List.nodup_cons.mpr ⟨hnew u, h.nodup u⟩
    · exact h.nodup v
  · intro v id
    simp only [Active, Site.putIds, Site.putMessages, Site.putSession, Dict.getD_set, Dict.get?_set]
    by_cases hid : id = sid
    · subst hid
      by_cases hv : v = u
      · simp [hv]
      · simp [hv, hnew v, Ne.symm hv]
    · by_cases hv : v = u
      · subst hv
        simpa [hid, Active] using h.listed v id
      · simpa [hid, hv, Active] using h.listed v id

/-- A deleted session is active no longer, and the others are as they were. -/
theorem active_putSession_deleted {v id : String} (hy : y.status = "deleted") :
    Active (s.putSession sid y) v id ↔ id ≠ sid ∧ Active s v id := by
  simp only [Active, Site.putSession, Dict.get?_set]
  by_cases heq : id = sid
  · simp [heq, hy]
  · simp [heq]

theorem Indexed.archiveSession {now : String} (h : Indexed s) :
    Indexed (s.archiveSession sid u now) := by
  rw [Site.archiveSession]
  cases hx : s.sessions.get? sid with
  | none => exact h
  | some x =>
    by_cases hu : x.userId = u
    · simp only [if_pos hu]
      generalize hy : { x with status := "deleted", updatedAt := now } = y
      have hdeleted : ∀ v id, Active (s.putSession sid y) v id ↔ id ≠ sid ∧ Active s v id :=
        fun v id => active_putSession_deleted (hy ▸ rfl)
      have hothers : ∀ v, v ≠ u → sid ∉ s.userSessions.getD v [] := by
        intro v hv hmem
        obtain ⟨z, hz, hzv, -⟩ := (h.listed v sid).mp hmem
        obtain rfl := Option.some.inj (hx.symm.trans hz)
        exact hv (hzv.symm.trans hu)
      have hkept : ∀ v id, sid ∉ s.userSessions.getD v [] →
          (id ∈ s.userSessions.getD v [] ↔ Active (s.putSession sid y) v id) := by
        intro v id hnot
        rw [hdeleted, ← h.listed]
        refine ⟨fun hid => ⟨?_, hid⟩, And.right⟩
        rintro rfl
        exact hnot hid
      split
      · constructor
        · intro v
          simp only [Site.putIds, Dict.getD_set]
          split
          · exact (h.nodup u).erase sid
          · exact h.nodup v
        · intro v id
          change _ ↔ Active (s.putSession sid y) v id
          simp only [Site.putIds, Dict.getD_set]
          by_cases hv : v = u
          · subst hv
            rw [if_pos rfl, hdeleted, ← h.listed]
            exact (h.nodup v).mem_erase_iff
          · rw [if_neg hv]
            exact hkept v id (hothers v hv)
      · next hnot =>
        refine ⟨h.nodup, fun v id => ?_⟩
        by_cases hv : v = u
        · exact hkept v id (hv ▸ hnot)
        · exact hkept v id (hothers v hv)
    · simp only [if_neg hu]
      exact h

theorem Indexed.sendMessage {content rid now : String} {reserved started : Bool} (h : Indexed s) :
    Indexed (s.sendMessage u sid content rid now reserved started).1 := by
  unfold Site.sendMessage
  split
  · exact h
  · simp only
    generalize hr : (⟨rid, sid, u, _⟩ : VibeRun) = r
    have hput : Indexed (s.putRun rid r) := ⟨h.nodup, h.listed⟩
    split
    · exact ⟨h.nodup, h.listed⟩
    · exact hput.updateRun

theorem Indexed.step {request : String × Request μ φ} (h : Indexed s) (hfresh : Fresh s request) :
    Indexed (step validate s request).1 := by
  obtain ⟨u, request⟩ := request
  cases request with
  | createSession title context sid now => exact h.createSession hfresh
  | listSessions limit offset => exact h
  | getSession sid =>
    simp only [VibeSessions.step, Site.route]
    cases s.getSession sid u with
    | none => exact h
    | some x => exact h
  | deleteSession sid now =>
    simp only [VibeSessions.step, Site.route]
    cases s.getSession sid u with
    | none => exact h
    | some x => exact h.archiveSession
  | sendMessage sid content rid now reserved started =>
    simp only [VibeSessions.step, Site.route]
    cases s.getSession sid u with
    | none => exact h
    | some x => exact h.sendMessage
  | getRun rid =>
    simp only [VibeSessions.step, Site.route]
    cases s.getRun rid u with
    | none => exact h
    | some r => exact h
  | getRunEvents rid after limit =>
    simp only [VibeSessions.step, Site.route]
    cases s.getRun rid u with
    | none => exact h
    | some r => exact h
  | cancelRun rid now =>
    simp only [VibeSessions.step, Site.route]
    cases s.getRun rid u with
    | none => exact h
    | some r => exact h.updateRun
  | work rid call =>
    simp only [VibeSessions.step, Site.route]
    cases s.findJob rid u with
    | none => exact h
    | some j =>
      cases call with
      | getSession => exact h
      | createMessage m now => exact h.createMessage
      | listMessages limit offset => exact h
      | updateRun updates => exact h.updateRun
      | updateSessionTitle title now => exact h.updateSessionTitle
      | publish p => exact ⟨h.nodup, h.listed⟩

/-- The sessions read for a listing are the user's active ones. -/
theorem Indexed.read_perm (h : Indexed s) (u : String) :
    (((s.userSessions.getD u []).filterMap s.sessions.get?).filter
      fun x => x.status = "active").Perm (s.active u) := by
  let read := (s.userSessions.getD u []).filterMap fun id => (s.sessions.get? id).map fun x => (id, x)
  have hmem : ∀ e, e ∈ read ↔
      e ∈ s.sessions.entries.filter fun e => e.2.userId = u ∧ e.2.status = "active" := by
    rintro ⟨id, x⟩
    simp only [read, List.mem_filterMap, Option.map_eq_some_iff, Prod.mk.injEq, List.mem_filter,
      decide_eq_true_eq]
    rw [← Dict.get?_eq_some_iff]
    constructor
    · rintro ⟨id, hid, y, hy, rfl, rfl⟩
      obtain ⟨z, hz, hown⟩ := (h.listed u id).mp hid
      obtain rfl := Option.some.inj (hy.symm.trans hz)
      exact ⟨hy, hown⟩
    · rintro ⟨hx, hown⟩
      exact ⟨id, (h.listed u id).mpr ⟨x, hx, hown⟩, x, hx, rfl, rfl⟩
  have hread : read.Nodup := by
    refine List.Nodup.filterMap (fun id id' e he he' => ?_) (h.nodup u)
    obtain ⟨x, -, rfl⟩ := Option.map_eq_some_iff.mp he
    obtain ⟨x', -, heq⟩ := Option.map_eq_some_iff.mp he'
    exact (Prod.mk.inj heq).1.symm
  have hperm := (List.perm_ext_iff_of_nodup hread (s.sessions.nodup.of_map.filter _)).mpr hmem
  have hvalues : (s.userSessions.getD u []).filterMap s.sessions.get? = read.map Prod.snd := by
    simp [read, List.map_filterMap, Function.comp_def]
  have hall : (read.map Prod.snd).filter (fun x => x.status = "active") = read.map Prod.snd := by
    refine List.filter_eq_self.mpr fun x hx => ?_
    obtain ⟨e, he, rfl⟩ := List.mem_map.mp hx
    have hfiltered := (List.mem_filter.mp ((hmem e).mp he)).2
    simp only [decide_eq_true_eq] at hfiltered ⊢
    exact hfiltered.2
  rw [hvalues, hall, Site.active, Dict.values, List.filter_map]
  exact hperm.map _

/-- After any requests, the pages of a user's listing are those of one arrangement of all of the
user's active sessions, the latest first. -/
theorem listing_pages (u : String) (requests : List (String × Request μ φ))
    (hfresh : Along (step validate) Fresh .empty requests) :
    ∃ l, l.Perm ((final (step validate) .empty requests).active u) ∧
      l.Pairwise (fun x y => y.latest ≤ x.latest) ∧
      ∀ limit offset, (final (step validate) .empty requests).listSessions u limit offset "active" =
        Slices.slice l offset (offset + limit) := by
  have hindexed : Indexed (final (step validate) .empty requests) := by
    refine final_of_along (fun _ _ h hf => h.step hf) ?_ hfresh
    refine ⟨fun _ => List.nodup_nil, fun u id => ?_⟩
    simp [Active, Site.empty, Dict.get?, Dict.getD, Dict.empty]
  refine ⟨_, ?_, ?_, fun _ _ => rfl⟩
  · refine ((List.reverse_perm _).trans (sortBy_perm _ _)).trans ?_
    exact (List.reverse_perm _).trans (hindexed.read_perm u)
  · rw [Site.newestFirst, List.pairwise_reverse]
    exact sortBy_pairwise _ _

theorem listing_pages_twoUsers :
    ∃ l, l.Perm ((final (step some) .empty twoUsers).active "ann") ∧
      l.Pairwise (fun x y => y.latest ≤ x.latest) ∧
      ∀ limit offset, (final (step some) .empty twoUsers).listSessions "ann" limit offset "active" =
        Slices.slice l offset (offset + limit) :=
  listing_pages "ann" twoUsers (by decide)

end Pyharmonics.VibeSessions
