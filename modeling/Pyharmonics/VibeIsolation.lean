import Pyharmonics.VibeSessions

/-! What one user is answered does not depend on the requests of the others. -/
namespace Pyharmonics.VibeSessions

open Machines Sorting Vibe

variable {μ φ π : Type*} {validate : φ → Option π} {s t : Site μ π} {u v sid rid : String}
  {x : VibeSession} {r : VibeRun} {j : RunJob}

/-- The user a session belongs to. -/
def Site.owner (s : Site μ π) (sessionId : String) : Option String :=
  (s.sessions.get? sessionId).map VibeSession.userId

def Site.runOwner (s : Site μ π) (runId : String) : Option String :=
  (s.runs.get? runId).map VibeRun.userId

/-- The index of a user names the user's sessions, what is kept for a session or a run is kept for
one that is there, and a job works for the user it was started by. -/
structure Sound (s : Site μ π) : Prop where
  indexed : ∀ u, ∀ id ∈ s.userSessions.getD u [], s.owner id = some u
  messages : ∀ id, s.owner id = none → s.messages.get? id = none
  events : ∀ id, s.runOwner id = none → s.events.get? id = none
  jobs : ∀ j ∈ s.jobs, s.owner j.sessionId = some j.userId ∧ s.runOwner j.runId = some j.userId

/-- The second site holds of the first what is the user's. -/
structure Isolated (u : String) (s t : Site μ π) : Prop where
  sound : Sound s
  sessions : ∀ id, t.sessions.get? id = (s.sessions.get? id).filter fun x => x.userId = u
  messages : ∀ id, t.messages.get? id = if s.owner id = some u then s.messages.get? id else none
  runs : ∀ id, t.runs.get? id = (s.runs.get? id).filter fun r => r.userId = u
  events : ∀ id, t.events.get? id = if s.runOwner id = some u then s.events.get? id else none
  index : t.userSessions.get? u = s.userSessions.get? u
  jobs : t.jobs = s.jobs.filter fun j => j.userId = u

/-! The owners after a write. -/

theorem owner_putSession {id : String} :
    (s.putSession sid x).owner id = if id = sid then some x.userId else s.owner id := by
  rw [Site.owner, Site.putSession, Dict.get?_set]
  split <;> rfl

theorem runOwner_putRun {id : String} :
    (s.putRun rid r).runOwner id = if id = rid then some r.userId else s.runOwner id := by
  rw [Site.runOwner, Site.putRun, Dict.get?_set]
  split <;> rfl

/-- A session of the user's, or an id that no session has. -/
def Free (owner : Option String) (u : String) : Prop := owner = none ∨ owner = some u

theorem Sound.putSession (h : Sound s) (hfree : Free (s.owner sid) x.userId) :
    Sound (s.putSession sid x) := by
  have hkept : ∀ id v, s.owner id = some v → (s.putSession sid x).owner id = some v := by
    intro id v hid
    rw [owner_putSession]
    split
    · next heq =>
      subst heq
      rcases hfree with hnone | hsame
      · rw [hnone] at hid
        cases hid
      · exact hsame.symm.trans hid
    · exact hid
  refine ⟨fun u id hid => hkept id u (h.indexed u id hid), ?_, h.events, ?_⟩
  · intro id hid
    rw [owner_putSession] at hid
    split at hid
    · cases hid
    · exact h.messages id hid
  · intro j hj
    exact ⟨hkept _ _ (h.jobs j hj).1, (h.jobs j hj).2⟩

theorem Sound.putRun (h : Sound s) (hfree : Free (s.runOwner rid) r.userId) :
    Sound (s.putRun rid r) := by
  have hkept : ∀ id v, s.runOwner id = some v → (s.putRun rid r).runOwner id = some v := by
    intro id v hid
    rw [runOwner_putRun]
    split
    · next heq =>
      subst heq
      rcases hfree with hnone | hsame
      · rw [hnone] at hid
        cases hid
      · exact hsame.symm.trans hid
    · exact hid
  refine ⟨h.indexed, h.messages, ?_, ?_⟩
  · intro id hid
    rw [runOwner_putRun] at hid
    split at hid
    · cases hid
    · exact h.events id hid
  · intro j hj
    exact ⟨(h.jobs j hj).1, hkept _ _ (h.jobs j hj).2⟩

theorem Sound.putMessages {messages : List μ} (h : Sound s) (hown : s.owner sid = some v) :
    Sound (s.putMessages sid messages) := by
  refine ⟨h.indexed, ?_, h.events, h.jobs⟩
  intro id hid
  rw [Site.putMessages, Dict.get?_set]
  split
  · next heq =>
    rw [heq] at hid
    have hnone : s.owner sid = none := hid
    rw [hown] at hnone
    cases hnone
  · exact h.messages id hid

theorem Sound.putEvents {log : RunLog π} (h : Sound s) (hown : s.runOwner rid = some v) :
    Sound (s.putEvents rid log) := by
  refine ⟨h.indexed, h.messages, ?_, h.jobs⟩
  intro id hid
  rw [Site.putEvents, Dict.get?_set]
  split
  · next heq =>
    rw [heq] at hid
    have hnone : s.runOwner rid = none := hid
    rw [hown] at hnone
    cases hnone
  · exact h.events id hid

theorem Sound.putIds {ids : List String} (h : Sound s) (hids : ∀ id ∈ ids, s.owner id = some v) :
    Sound (s.putIds v ids) := by
  refine ⟨?_, h.messages, h.events, h.jobs⟩
  intro u id hid
  rw [Site.putIds, Dict.getD_set] at hid
  split at hid
  · next heq =>
    subst heq
    exact hids id hid
  · exact h.indexed u id hid

theorem Sound.putJob (h : Sound s) (hown : s.owner j.sessionId = some j.userId)
    (hrun : s.runOwner j.runId = some j.userId) : Sound (s.putJob j) := by
  refine ⟨h.indexed, h.messages, h.events, ?_⟩
  intro k hk
  rcases List.mem_append.mp hk with hk | hk
  · exact h.jobs k hk
  · obtain rfl := List.mem_singleton.mp hk
    exact ⟨hown, hrun⟩

/-! A write of the user's is made on both sites, a write of another's shows on neither. -/

theorem Isolated.putSession_own (h : Isolated u s t) (hx : x.userId = u)
    (hfree : Free (s.owner sid) u) : Isolated u (s.putSession sid x) (t.putSession sid x) := by
  refine ⟨h.sound.putSession (hx ▸ hfree), ?_, ?_, h.runs, h.events, h.index, h.jobs⟩
  · intro id
    rw [Site.putSession, Site.putSession, Dict.get?_set, Dict.get?_set]
    split
    · simp [Option.filter_some, hx]
    · exact h.sessions id
  · intro id
    rw [owner_putSession]
    change t.messages.get? id = if _ then s.messages.get? id else none
    rw [h.messages id]
    by_cases heq : id = sid
    · subst heq
      rcases hfree with hnone | hsame
      · simp [hnone, hx, h.sound.messages id hnone]
      · simp [hsame, hx]
    · rw [if_neg heq]

theorem Isolated.putSession_others (h : Isolated u s t) (hx : x.userId ≠ u)
    (hfree : Free (s.owner sid) x.userId) : Isolated u (s.putSession sid x) t := by
  have hnot : s.owner sid ≠ some u := by
    rcases hfree with hnone | hsame
    · simp [hnone]
    · simpa [hsame] using hx
  refine ⟨h.sound.putSession hfree, ?_, ?_, h.runs, h.events, h.index, h.jobs⟩
  · intro id
    rw [h.sessions, Site.putSession, Dict.get?_set]
    by_cases heq : id = sid
    · subst heq
      rw [Site.owner] at hnot
      cases hget : s.sessions.get? id with
      | none => simp [Option.filter_some, hx]
      | some y =>
        have hy : y.userId ≠ u := by simpa [hget] using hnot
        simp [Option.filter_some, hx, hy]
    · rw [if_neg heq]
  · intro id
    rw [owner_putSession, h.messages id]
    change _ = if _ then s.messages.get? id else none
    by_cases heq : id = sid
    · subst heq
      simp [hnot, hx]
    · rw [if_neg heq]

theorem Isolated.putRun_own (h : Isolated u s t) (hr : r.userId = u)
    (hfree : Free (s.runOwner rid) u) : Isolated u (s.putRun rid r) (t.putRun rid r) := by
  refine ⟨h.sound.putRun (hr ▸ hfree), h.sessions, h.messages, ?_, ?_, h.index, h.jobs⟩
  · intro id
    rw [Site.putRun, Site.putRun, Dict.get?_set, Dict.get?_set]
    split
    · simp [Option.filter_some, hr]
    · exact h.runs id
  · intro id
    rw [runOwner_putRun]
    change t.events.get? id = if _ then s.events.get? id else none
    rw [h.events id]
    by_cases heq : id = rid
    · subst heq
      rcases hfree with hnone | hsame
      · simp [hnone, hr, h.sound.events id hnone]
      · simp [hsame, hr]
    · rw [if_neg heq]

theorem Isolated.putRun_others (h : Isolated u s t) (hr : r.userId ≠ u)
    (hfree : Free (s.runOwner rid) r.userId) : Isolated u (s.putRun rid r) t := by
  have hnot : s.runOwner rid ≠ some u := by
    rcases hfree with hnone | hsame
    · simp [hnone]
    · simpa [hsame] using hr
  refine ⟨h.sound.putRun hfree, h.sessions, h.messages, ?_, ?_, h.index, h.jobs⟩
  · intro id
    rw [h.runs, Site.putRun, Dict.get?_set]
    by_cases heq : id = rid
    · subst heq
      rw [Site.runOwner] at hnot
      cases hget : s.runs.get? id with
      | none => simp [Option.filter_some, hr]
      | some y =>
        have hy : y.userId ≠ u := by simpa [hget] using hnot
        simp [Option.filter_some, hr, hy]
    · rw [if_neg heq]
  · intro id
    rw [runOwner_putRun, h.events id]
    change _ = if _ then s.events.get? id else none
    by_cases heq : id = rid
    · subst heq
      simp [hnot, hr]
    · rw [if_neg heq]

theorem Isolated.putMessages_own {messages : List μ} (h : Isolated u s t)
    (hown : s.owner sid = some u) :
    Isolated u (s.putMessages sid messages) (t.putMessages sid messages) := by
  refine ⟨h.sound.putMessages hown, h.sessions, ?_, h.runs, h.events, h.index, h.jobs⟩
  intro id
  change _ = if s.owner id = some u then _ else none
  rw [Site.putMessages, Site.putMessages, Dict.get?_set, Dict.get?_set, h.messages id]
  by_cases heq : id = sid
  · rw [if_pos heq, if_pos heq, heq, if_pos hown]
  · rw [if_neg heq, if_neg heq]

theorem Isolated.putMessages_others {messages : List μ} (h : Isolated u s t)
    (hown : s.owner sid = some v) (hv : v ≠ u) : Isolated u (s.putMessages sid messages) t := by
  refine ⟨h.sound.putMessages hown, h.sessions, ?_, h.runs, h.events, h.index, h.jobs⟩
  intro id
  change _ = if s.owner id = some u then _ else none
  rw [h.messages id, Site.putMessages, Dict.get?_set]
  by_cases heq : id = sid
  · have hnot : s.owner id ≠ some u := by simpa [heq, hown] using hv
    rw [if_neg hnot, if_neg hnot]
  · rw [if_neg heq]

theorem Isolated.putEvents_own {log : RunLog π} (h : Isolated u s t)
    (hown : s.runOwner rid = some u) : Isolated u (s.putEvents rid log) (t.putEvents rid log) := by
  refine ⟨h.sound.putEvents hown, h.sessions, h.messages, h.runs, ?_, h.index, h.jobs⟩
  intro id
  change _ = if s.runOwner id = some u then _ else none
  rw [Site.putEvents, Site.putEvents, Dict.get?_set, Dict.get?_set, h.events id]
  by_cases heq : id = rid
  · rw [if_pos heq, if_pos heq, heq, if_pos hown]
  · rw [if_neg heq, if_neg heq]

theorem Isolated.putEvents_others {log : RunLog π} (h : Isolated u s t)
    (hown : s.runOwner rid = some v) (hv : v ≠ u) : Isolated u (s.putEvents rid log) t := by
  refine ⟨h.sound.putEvents hown, h.sessions, h.messages, h.runs, ?_, h.index, h.jobs⟩
  intro id
  change _ = if s.runOwner id = some u then _ else none
  rw [h.events id, Site.putEvents, Dict.get?_set]
  by_cases heq : id = rid
  · have hnot : s.runOwner id ≠ some u := by simpa [heq, hown] using hv
    rw [if_neg hnot, if_neg hnot]
  · rw [if_neg heq]

theorem Isolated.putIds_own {ids : List String} (h : Isolated u s t)
    (hids : ∀ id ∈ ids, s.owner id = some u) : Isolated u (s.putIds u ids) (t.putIds u ids) := by
  refine ⟨h.sound.putIds hids, h.sessions, h.messages, h.runs, h.events, ?_, h.jobs⟩
  rw [Site.putIds, Site.putIds, Dict.get?_set, Dict.get?_set, if_pos rfl, if_pos rfl]

theorem Isolated.putIds_others {ids : List String} (h : Isolated u s t) (hv : v ≠ u)
    (hids : ∀ id ∈ ids, s.owner id = some v) : Isolated u (s.putIds v ids) t := by
  refine ⟨h.sound.putIds hids, h.sessions, h.messages, h.runs, h.events, ?_, h.jobs⟩
  rw [Site.putIds, Dict.get?_set, if_neg hv.symm, h.index]

theorem Isolated.putJob_own (h : Isolated u s t) (hj : j.userId = u)
    (hown : s.owner j.sessionId = some u) (hrun : s.runOwner j.runId = some u) :
    Isolated u (s.putJob j) (t.putJob j) := by
  refine ⟨h.sound.putJob (hj ▸ hown) (hj ▸ hrun), h.sessions, h.messages, h.runs, h.events,
    h.index, ?_⟩
  simp [Site.putJob, h.jobs, hj]

theorem Isolated.putJob_others (h : Isolated u s t) (hj : j.userId ≠ u)
    (hown : s.owner j.sessionId = some j.userId) (hrun : s.runOwner j.runId = some j.userId) :
    Isolated u (s.putJob j) t := by
  refine ⟨h.sound.putJob hown hrun, h.sessions, h.messages, h.runs, h.events, h.index, ?_⟩
  simp [Site.putJob, h.jobs, hj]

/-! What the user reads is the same on both sites. -/

theorem owner_of_get? (h : s.sessions.get? sid = some x) : s.owner sid = some x.userId := by
  rw [Site.owner, h]
  rfl

theorem owner_of_getSession (h : s.getSession sid u = some x) : s.owner sid = some u := by
  obtain ⟨hget, hu⟩ := Option.filter_eq_some_iff.mp h
  rw [owner_of_get? hget, of_decide_eq_true hu]

theorem runOwner_of_getRun (h : s.getRun rid u = some r) : s.runOwner rid = some u := by
  obtain ⟨hget, hu⟩ := Option.filter_eq_some_iff.mp h
  rw [Site.runOwner, hget, Option.map_some, of_decide_eq_true hu]

theorem Isolated.session_eq (h : Isolated u s t) (hown : s.owner sid = some u) :
    t.sessions.get? sid = s.sessions.get? sid := by
  obtain ⟨x, hx, hu⟩ := Option.map_eq_some_iff.mp hown
  rw [h.sessions, hx, Option.filter_some, if_pos (decide_eq_true hu)]

theorem Isolated.run_eq (h : Isolated u s t) (hown : s.runOwner rid = some u) :
    t.runs.get? rid = s.runs.get? rid := by
  obtain ⟨r, hr, hu⟩ := Option.map_eq_some_iff.mp hown
  rw [h.runs, hr, Option.filter_some, if_pos (decide_eq_true hu)]

theorem Isolated.messages_eq (h : Isolated u s t) (hown : s.owner sid = some u) :
    t.messages.getD sid [] = s.messages.getD sid [] := by
  rw [Dict.getD, Dict.getD, h.messages, if_pos hown]

theorem Isolated.events_eq (h : Isolated u s t) (hown : s.runOwner rid = some u) :
    t.events.getD rid .empty = s.events.getD rid .empty := by
  rw [Dict.getD, Dict.getD, h.events, if_pos hown]

theorem Isolated.ids_eq (h : Isolated u s t) :
    t.userSessions.getD u [] = s.userSessions.getD u [] := by
  rw [Dict.getD, Dict.getD, h.index]

theorem Isolated.getSession_eq (h : Isolated u s t) (sid : String) :
    t.getSession sid u = s.getSession sid u := by
  rw [Site.getSession, Site.getSession, h.sessions, Option.filter_filter]
  simp

theorem Isolated.getRun_eq (h : Isolated u s t) (rid : String) : t.getRun rid u = s.getRun rid u := by
  rw [Site.getRun, Site.getRun, h.runs, Option.filter_filter]
  simp

theorem Isolated.listSessions_eq (h : Isolated u s t) (limit offset : ℤ) (status : String) :
    t.listSessions u limit offset status = s.listSessions u limit offset status := by
  have hall : (s.userSessions.getD u []).filterMap t.sessions.get? =
      (s.userSessions.getD u []).filterMap s.sessions.get? :=
    List.filterMap_congr fun id hid => h.session_eq (h.sound.indexed u id hid)
  rw [Site.listSessions, Site.listSessions, h.ids_eq, hall]

theorem Isolated.findJob_eq (h : Isolated u s t) (rid : String) :
    t.findJob rid u = s.findJob rid u := by
  rw [Site.findJob, Site.findJob, h.jobs, List.find?_filter]
  refine congrArg (fun p => s.jobs.find? p) (funext fun j => ?_)
  by_cases hj : j.userId = u <;> simp [hj]

/-! The operations of the store. -/

theorem Isolated.touchSession_own {now : String} (h : Isolated u s t) (hown : s.owner sid = some u) :
    Isolated u (s.touchSession sid now) (t.touchSession sid now) := by
  rw [Site.touchSession, Site.touchSession, h.session_eq hown, h.messages_eq hown]
  obtain ⟨x, hx, hu⟩ := Option.map_eq_some_iff.mp hown
  rw [hx]
  exact h.putSession_own hu (.inr hown)

theorem Isolated.touchSession_others {now : String} (h : Isolated u s t)
    (hown : s.owner sid = some v) (hv : v ≠ u) : Isolated u (s.touchSession sid now) t := by
  obtain ⟨x, hx, rfl⟩ := Option.map_eq_some_iff.mp hown
  rw [Site.touchSession, hx]
  exact h.putSession_others hv (.inr hown)

theorem Isolated.createMessage_own {m : μ} {now : String} (h : Isolated u s t)
    (hown : s.owner sid = some u) :
    Isolated u (s.createMessage sid m now) (t.createMessage sid m now) := by
  rw [Site.createMessage, Site.createMessage, h.messages_eq hown]
  exact (h.putMessages_own hown).touchSession_own hown

theorem Isolated.createMessage_others {m : μ} {now : String} (h : Isolated u s t)
    (hown : s.owner sid = some v) (hv : v ≠ u) : Isolated u (s.createMessage sid m now) t :=
  (h.putMessages_others hown hv).touchSession_others hown hv

theorem Isolated.updateSessionTitle_own {title now : String} (h : Isolated u s t)
    (hown : s.owner sid = some u) :
    Isolated u (s.updateSessionTitle sid title now) (t.updateSessionTitle sid title now) := by
  rw [Site.updateSessionTitle, Site.updateSessionTitle, h.session_eq hown]
  obtain ⟨x, hx, hu⟩ := Option.map_eq_some_iff.mp hown
  rw [hx]
  exact h.putSession_own hu (.inr hown)

theorem Isolated.updateSessionTitle_others {title now : String} (h : Isolated u s t)
    (hown : s.owner sid = some v) (hv : v ≠ u) :
    Isolated u (s.updateSessionTitle sid title now) t := by
  obtain ⟨x, hx, rfl⟩ := Option.map_eq_some_iff.mp hown
  rw [Site.updateSessionTitle, hx]
  exact h.putSession_others hv (.inr hown)

theorem Isolated.updateRun_own {updates : List (String × Json)} (h : Isolated u s t)
    (hown : s.runOwner rid = some u) :
    Isolated u (s.updateRun rid updates) (t.updateRun rid updates) := by
  rw [Site.updateRun, Site.updateRun, h.run_eq hown]
  obtain ⟨r, hr, hu⟩ := Option.map_eq_some_iff.mp hown
  rw [hr]
  exact h.putRun_own hu (.inr hown)

theorem Isolated.updateRun_others {updates : List (String × Json)} (h : Isolated u s t)
    (hown : s.runOwner rid = some v) (hv : v ≠ u) : Isolated u (s.updateRun rid updates) t := by
  obtain ⟨r, hr, rfl⟩ := Option.map_eq_some_iff.mp hown
  rw [Site.updateRun, hr]
  exact h.putRun_others hv (.inr hown)

theorem Isolated.publish_own {p : Publish φ} (h : Isolated u s t) (hown : s.runOwner rid = some u) :
    Isolated u (s.publish validate rid p) (t.publish validate rid p) := by
  rw [Site.publish, Site.publish, h.events_eq hown]
  exact h.putEvents_own hown

theorem Isolated.publish_others {p : Publish φ} (h : Isolated u s t)
    (hown : s.runOwner rid = some v) (hv : v ≠ u) : Isolated u (s.publish validate rid p) t :=
  h.putEvents_others hown hv

/-- The index of a user after its session is put there first. -/
theorem Sound.ids_cons (h : Sound s) (hown : s.owner sid = some v) :
    ∀ id ∈ (if sid ∈ s.userSessions.getD v [] then s.userSessions.getD v []
      else sid :: s.userSessions.getD v []), s.owner id = some v := by
  intro id hid
  split at hid
  · exact h.indexed v id hid
  · rcases List.mem_cons.mp hid with rfl | hid
    · exact hown
    · exact h.indexed v id hid

theorem Isolated.createSession_own {title : Option String}
    {context : Option (List (String × Json))} {now : String} (h : Isolated u s t)
    (hfree : s.owner sid = none) :
    (s.createSession u title context sid now).2 = (t.createSession u title context sid now).2 ∧
      Isolated u (s.createSession u title context sid now).1
        (t.createSession u title context sid now).1 := by
  refine ⟨rfl, ?_⟩
  simp only [Site.createSession, h.ids_eq]
  have hput := h.putSession_own (x := ⟨sid, u, title, context.getD [], "active", 0, none, now, now⟩)
    rfl (.inl hfree)
  have hown : (s.putSession sid ⟨sid, u, title, context.getD [], "active", 0, none, now,
      now⟩).owner sid = some u := by
    rw [owner_putSession, if_pos rfl]
  exact (hput.putMessages_own hown).putIds_own (hput.sound.ids_cons hown)

theorem Isolated.createSession_others {title : Option String}
    {context : Option (List (String × Json))} {now : String} (h : Isolated u s t)
    (hfree : s.owner sid = none) (hv : v ≠ u) :
    Isolated u (s.createSession v title context sid now).1 t := by
  simp only [Site.createSession]
  have hput := h.putSession_others
    (x := ⟨sid, v, title, context.getD [], "active", 0, none, now, now⟩) hv (.inl hfree)
  have hown : (s.putSession sid ⟨sid, v, title, context.getD [], "active", 0, none, now,
      now⟩).owner sid = some v := by
    rw [owner_putSession, if_pos rfl]
  exact (hput.putMessages_others hown hv).putIds_others hv (hput.sound.ids_cons hown)

theorem Isolated.archiveSession_own {now : String} (h : Isolated u s t)
    (hown : s.owner sid = some u) :
    Isolated u (s.archiveSession sid u now) (t.archiveSession sid u now) := by
  rw [Site.archiveSession, Site.archiveSession, h.session_eq hown]
  obtain ⟨x, hx, hu⟩ := Option.map_eq_some_iff.mp hown
  rw [hx]
  simp only [if_pos hu]
  have hput : Isolated u (s.putSession sid { x with status := "deleted", updatedAt := now })
      (t.putSession sid { x with status := "deleted", updatedAt := now }) :=
    h.putSession_own hu (.inr hown)
  rw [hput.ids_eq]
  split
  · refine hput.putIds_own fun id hid => ?_
    exact hput.sound.indexed u id (List.mem_of_mem_erase hid)
  · exact hput

theorem Isolated.archiveSession_others {now : String} (h : Isolated u s t)
    (hown : s.owner sid = some v) (hv : v ≠ u) : Isolated u (s.archiveSession sid v now) t := by
  obtain ⟨x, hx, hxv⟩ := Option.map_eq_some_iff.mp hown
  rw [Site.archiveSession, hx]
  simp only [if_pos hxv]
  have hput : Isolated u (s.putSession sid { x with status := "deleted", updatedAt := now }) t :=
    h.putSession_others (hxv ▸ hv) (.inr (hxv ▸ hown))
  split
  · refine hput.putIds_others hv fun id hid => ?_
    exact hput.sound.indexed v id (List.mem_of_mem_erase hid)
  · exact hput

/-! The routes. -/

theorem owner_putRun : (s.putRun rid r).owner sid = s.owner sid := rfl

theorem Isolated.sendMessage_own {content now : String} {reserved started : Bool}
    (h : Isolated u s t) (hown : s.owner sid = some u) (hfree : s.runOwner rid = none) :
    (s.sendMessage u sid content rid now reserved started).2 =
        (t.sendMessage u sid content rid now reserved started).2 ∧
      Isolated u (s.sendMessage u sid content rid now reserved started).1
        (t.sendMessage u sid content rid now reserved started).1 := by
  unfold Site.sendMessage
  by_cases hreserved : reserved = true
  · simp only [hreserved, not_true_eq_false, if_false]
    generalize hrun : (⟨rid, sid, u, _⟩ : VibeRun) = r
    have hr : r.userId = u := hrun ▸ rfl
    have hput : Isolated u (s.putRun rid r) (t.putRun rid r) := h.putRun_own hr (.inl hfree)
    have hrid : (s.putRun rid r).runOwner rid = some u := by
      rw [runOwner_putRun, if_pos rfl, hr]
    cases started with
    | true => exact ⟨rfl, hput.putJob_own rfl hown hrid⟩
    | false => exact ⟨rfl, hput.updateRun_own hrid⟩
  · simp only [hreserved]
    exact ⟨rfl, h⟩

theorem Isolated.sendMessage_others {content now : String} {reserved started : Bool}
    (h : Isolated u s t) (hown : s.owner sid = some v) (hfree : s.runOwner rid = none) (hv : v ≠ u) :
    Isolated u (s.sendMessage v sid content rid now reserved started).1 t := by
  unfold Site.sendMessage
  by_cases hreserved : reserved = true
  · simp only [hreserved, not_true_eq_false, if_false]
    generalize hrun : (⟨rid, sid, v, _⟩ : VibeRun) = r
    have hr : r.userId = v := hrun ▸ rfl
    have hput : Isolated u (s.putRun rid r) t := h.putRun_others (hr ▸ hv) (.inl hfree)
    have hrid : (s.putRun rid r).runOwner rid = some v := by
      rw [runOwner_putRun, if_pos rfl, hr]
    cases started with
    | true => exact hput.putJob_others hv hown hrid
    | false => exact hput.updateRun_others hrid hv
  · simp only [hreserved]
    exact h

theorem findJob_some (h : s.findJob rid u = some j) : j ∈ s.jobs ∧ j.userId = u := by
  have hfound := List.find?_some h
  simp only [decide_eq_true_eq] at hfound
  exact ⟨List.mem_of_find?_eq_some h, hfound.2⟩

theorem Isolated.jobCall_own {call : JobCall μ φ} (h : Isolated u s t) (hj : j.userId = u)
    (hown : s.owner j.sessionId = some u) (hrun : s.runOwner j.runId = some u) :
    (s.jobCall validate j call).2 = (t.jobCall validate j call).2 ∧
      Isolated u (s.jobCall validate j call).1 (t.jobCall validate j call).1 := by
  cases call with
  | getSession =>
    refine ⟨?_, h⟩
    simp only [Site.jobCall, hj, h.getSession_eq]
  | createMessage m now => exact ⟨rfl, h.createMessage_own hown⟩
  | listMessages limit offset =>
    refine ⟨?_, h⟩
    simp only [Site.jobCall, Site.listMessages, h.messages_eq hown]
  | updateRun updates => exact ⟨rfl, h.updateRun_own hrun⟩
  | updateSessionTitle title now => exact ⟨rfl, h.updateSessionTitle_own hown⟩
  | publish p => exact ⟨rfl, h.publish_own hrun⟩

theorem Isolated.jobCall_others {call : JobCall μ φ} (h : Isolated u s t) (hj : j.userId ≠ u)
    (hown : s.owner j.sessionId = some j.userId) (hrun : s.runOwner j.runId = some j.userId) :
    Isolated u (s.jobCall validate j call).1 t := by
  cases call with
  | getSession => exact h
  | createMessage m now => exact h.createMessage_others hown hj
  | listMessages limit offset => exact h
  | updateRun updates => exact h.updateRun_others hrun hj
  | updateSessionTitle title now => exact h.updateSessionTitle_others hown hj
  | publish p => exact h.publish_others hrun hj

/-- A new session or run gets an id of its own. -/
def Fresh (s : Site μ π) (x : String × Request μ φ) : Prop :=
  match x.2 with
  | .createSession _ _ sessionId _ => s.owner sessionId = none
  | .sendMessage _ _ runId _ _ _ => s.runOwner runId = none
  | _ => True

theorem Isolated.step_own {x : String × Request μ φ} (h : Isolated u s t) (hfresh : Fresh s x)
    (hx : x.1 = u) :
    (step validate s x).2 = (step validate t x).2 ∧
      Isolated u (step validate s x).1 (step validate t x).1 := by
  obtain ⟨_, request⟩ := x
  obtain rfl : _ = u := hx
  cases request with
  | createSession title context sid now =>
    exact ⟨rfl, (h.createSession_own hfresh).2⟩
  | listSessions limit offset =>
    refine ⟨?_, h⟩
    simp only [step, Site.route, h.listSessions_eq]
  | getSession sid =>
    simp only [step, Site.route, h.getSession_eq]
    cases s.getSession sid _ with
    | none => exact ⟨rfl, h⟩
    | some x => exact ⟨rfl, h⟩
  | deleteSession sid now =>
    simp only [step, Site.route, h.getSession_eq]
    cases hget : s.getSession sid _ with
    | none => exact ⟨rfl, h⟩
    | some x => exact ⟨rfl, h.archiveSession_own (owner_of_getSession hget)⟩
  | sendMessage sid content rid now reserved started =>
    simp only [step, Site.route, h.getSession_eq]
    cases hget : s.getSession sid _ with
    | none => exact ⟨rfl, h⟩
    | some x => exact h.sendMessage_own (owner_of_getSession hget) hfresh
  | getRun rid =>
    simp only [step, Site.route, h.getRun_eq]
    cases s.getRun rid _ with
    | none => exact ⟨rfl, h⟩
    | some r => exact ⟨rfl, h⟩
  | getRunEvents rid after limit =>
    simp only [step, Site.route, h.getRun_eq]
    cases hget : s.getRun rid _ with
    | none => exact ⟨rfl, h⟩
    | some r =>
      simp only [h.events_eq (runOwner_of_getRun hget)]
      exact ⟨trivial, h⟩
  | cancelRun rid now =>
    simp only [step, Site.route, h.getRun_eq]
    cases hget : s.getRun rid _ with
    | none => exact ⟨rfl, h⟩
    | some r => exact ⟨rfl, h.updateRun_own (runOwner_of_getRun hget)⟩
  | work rid call =>
    simp only [step, Site.route, h.findJob_eq]
    cases hfind : s.findJob rid _ with
    | none => exact ⟨rfl, h⟩
    | some j =>
      obtain ⟨hj, hu⟩ := findJob_some hfind
      obtain ⟨hown, hrun⟩ := h.sound.jobs j hj
      exact h.jobCall_own hu (hu ▸ hown) (hu ▸ hrun)

theorem Isolated.step_others {x : String × Request μ φ} (h : Isolated u s t) (hfresh : Fresh s x)
    (hx : x.1 ≠ u) : Isolated u (step validate s x).1 t := by
  obtain ⟨v, request⟩ := x
  have hv : v ≠ u := hx
  cases request with
  | createSession title context sid now => exact h.createSession_others hfresh hv
  | listSessions limit offset => exact h
  | getSession sid =>
    simp only [step, Site.route]
    cases s.getSession sid v with
    | none => exact h
    | some x => exact h
  | deleteSession sid now =>
    simp only [step, Site.route]
    cases hget : s.getSession sid v with
    | none => exact h
    | some x => exact h.archiveSession_others (owner_of_getSession hget) hv
  | sendMessage sid content rid now reserved started =>
    simp only [step, Site.route]
    cases hget : s.getSession sid v with
    | none => exact h
    | some x => exact h.sendMessage_others (owner_of_getSession hget) hfresh hv
  | getRun rid =>
    simp only [step, Site.route]
    cases s.getRun rid v with
    | none => exact h
    | some r => exact h
  | getRunEvents rid after limit =>
    simp only [step, Site.route]
    cases s.getRun rid v with
    | none => exact h
    | some r => exact h
  | cancelRun rid now =>
    simp only [step, Site.route]
    cases hget : s.getRun rid v with
    | none => exact h
    | some r => exact h.updateRun_others (runOwner_of_getRun hget) hv
  | work rid call =>
    simp only [step, Site.route]
    cases hfind : s.findJob rid v with
    | none => exact h
    | some j =>
      obtain ⟨hj, hu⟩ := findJob_some hfind
      obtain ⟨hown, hrun⟩ := h.sound.jobs j hj
      exact h.jobCall_others (hu ▸ hv) hown hrun

instance : DecidablePred (Fresh s : String × Request μ φ → Prop) := fun x =>
  match x with
  | (_, .createSession ..) | (_, .sendMessage ..) => inferInstanceAs (Decidable (_ = none))
  | (_, .listSessions ..) | (_, .getSession _) | (_, .deleteSession ..) | (_, .getRun _)
  | (_, .getRunEvents ..) | (_, .cancelRun ..) | (_, .work ..) => isTrue trivial

/-- Whatever the users and their jobs do, and in whatever order, what one of them is answered is
what the user's own requests are answered when nobody else makes any. -/
theorem answers_isolated (u : String) (requests : List (String × Request μ φ))
    (hfresh : Along (step validate) Fresh .empty requests) :
    answersTo (step validate) (fun x => x.1 = u) .empty requests =
      outputs (step validate) .empty (requests.filter fun x => x.1 = u) := by
  refine answersTo_eq_purged (R := Isolated u) ?_ ?_ ?_ hfresh
  · exact fun s t x h hfresh hx => h.step_own hfresh hx
  · exact fun s t x h hfresh hx => h.step_others hfresh hx
  · have hsound : Sound (Site.empty : Site μ π) :=
      ⟨fun _ _ h => (List.not_mem_nil h).elim, fun _ _ => rfl, fun _ _ => rfl,
        fun _ h => (List.not_mem_nil h).elim⟩
    exact ⟨hsound, fun _ => rfl, fun _ => by simp [Site.owner, Site.empty, Dict.get?, Dict.empty],
      fun _ => rfl, fun _ => by simp [Site.runOwner, Site.empty, Dict.get?, Dict.empty], rfl, rfl⟩

/-- Two users with a session each; one writes a message into hers, and her job works on it while the
other looks for it and deletes his own. -/
def twoUsers : List (String × Request String String) :=
  [("ann", .createSession none none "s1" "2026-01-01T00:00:00+00:00"),
    ("bob", .createSession (some "notes") none "s2" "2026-01-01T00:00:01+00:00"),
    ("ann", .sendMessage "s1" "hello" "r1" "2026-01-01T00:00:02+00:00" true true),
    ("bob", .getRun "r1"),
    ("ann", .work "r1" (.createMessage "hello" "2026-01-01T00:00:03+00:00")),
    ("bob", .deleteSession "s1" "2026-01-01T00:00:04+00:00"),
    ("bob", .deleteSession "s2" "2026-01-01T00:00:05+00:00"),
    ("ann", .listSessions 50 0)]

theorem answers_isolated_twoUsers :
    answersTo (step some) (fun x => x.1 = "ann") .empty twoUsers =
      outputs (step some) .empty (twoUsers.filter fun x => x.1 = "ann") :=
  answers_isolated "ann" twoUsers (by decide)

end Pyharmonics.VibeSessions
