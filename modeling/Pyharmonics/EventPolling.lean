import Pyharmonics.EventStore
import Pyharmonics.Library.Rows

/-! Polling by the id of the last event received. -/
namespace Pyharmonics.Vibe

open Machines

variable {φ π : Type*} {validate : φ → Option π} {runId : String} {b : Backend} {log : RunLog π}
  {c : Session π} {a : ClientAction φ} {acts : List (ClientAction φ)} {id : String} {limit : ℕ}
  {e : VibeEvent π} {events before after : List (VibeEvent π)}

/-- The page behind the id of the last event received; a first poll carries no cursor. -/
def pageById (b : Backend) (log : RunLog π) (received : List (VibeEvent π)) (limit : ℕ) :
    List (VibeEvent π) :=
  getEvents b log (received.getLast?.map VibeEvent.eventId) none none limit

/-- The stored events behind the last one received. -/
def Session.backlog (c : Session π) : List (VibeEvent π) :=
  (c.received.getLast?.map fun e => eventsAfter e.eventId c.log.events).getD []

/-- No event is stored under the id of another. -/
def FreshId (validate : φ → Option π) (c : Session π) : ClientAction φ → Prop
  | .publish p => (validate p.draft.fields).isSome → p.eventId ∉ c.log.events.map VibeEvent.eventId
  | .poll _ => True

/-- A poll with a cursor finds no more events behind it than it asks for. -/
def Fits (c : Session π) : ClientAction φ → Prop
  | .publish _ => True
  | .poll limit => c.backlog.length ≤ limit

def IdsDistinct (c : Session π) : Prop := (c.log.events.map VibeEvent.eventId).Nodup

instance : Decidable (FreshId validate c a) :=
  match a with
  | .publish _ => inferInstanceAs (Decidable (_ → _))
  | .poll _ => isTrue trivial

instance : Decidable (Fits c a) :=
  match a with
  | .publish _ => isTrue trivial
  | .poll _ => inferInstanceAs (Decidable (_ ≤ _))

/-- The client has received a first part of the log. -/
structure Gapless (c : Session π) : Prop where
  ids : IdsDistinct c
  received : c.received <+: c.log.events

/-- An event before the last one received has not been received. -/
structure Skipping (c : Session π) : Prop where
  ids : IdsDistinct c
  gap : ∃ before after, c.log.events = before ++ after ∧
    (∃ e ∈ before, e ∉ c.received) ∧ ∃ last ∈ after, c.received.getLast? = some last

theorem eventsAfter_append (h : id ∉ before.map VibeEvent.eventId) :
    eventsAfter id (before ++ after) = eventsAfter id after := by
  induction before with
  | nil => rfl
  | cons e before ih =>
    rw [List.map_cons, List.mem_cons, not_or] at h
    rw [List.cons_append, eventsAfter, if_neg (Ne.symm h.1), ih h.2]

theorem eventsAfter_suffix : eventsAfter id events <:+ events := by
  induction events with
  | nil => exact List.suffix_rfl
  | cons e events ih =>
    rw [eventsAfter]
    split
    · exact List.suffix_cons e events
    · exact ih.trans (List.suffix_cons e events)

theorem pageById_of_last (hlast : c.received.getLast? = some e) (hl : 1 ≤ limit) :
    pageById b c.log c.received limit = c.backlog.drop (c.backlog.length - limit) := by
  rw [pageById, Session.backlog, hlast]
  exact Slices.sliceFrom_neg hl

/-- Behind the last event of a first part lies the rest of the log. -/
theorem Gapless.received_append_backlog (h : Gapless c) (hne : c.received ≠ []) :
    c.received ++ c.backlog = c.log.events := by
  obtain ⟨rest, hrest⟩ := h.received
  rcases List.eq_nil_or_concat c.received with hnil | ⟨received, e, hlast⟩
  · exact absurd hnil hne
  · have hids := h.ids
    rw [IdsDistinct, ← hrest, hlast, List.concat_eq_append, List.append_assoc, List.map_append,
      List.nodup_append] at hids
    have hnew : e.eventId ∉ received.map VibeEvent.eventId := by
      intro hmem
      exact hids.2.2 _ hmem _ (by simp) rfl
    have hbacklog : c.backlog = rest := by
      rw [Session.backlog, ← hrest, hlast, List.concat_eq_append, List.getLast?_concat,
        List.append_assoc]
      simp [eventsAfter_append hnew, eventsAfter]
    rw [hbacklog, hrest]

theorem firstPage (hnil : c.received = []) (hl : 1 ≤ limit) :
    pageById b c.log c.received limit = c.log.events.take limit := by
  rw [pageById, hnil]
  exact fetchRange_of_nonneg (Int.le_refl 0) hl

theorem idsDistinct_publish {p : Publish φ} (h : IdsDistinct c)
    (hp : FreshId validate c (.publish p)) :
    ((publish validate runId c.log p).1.events.map VibeEvent.eventId).Nodup := by
  cases hv : validate p.draft.fields with
  | none =>
    rw [publish_of_none hv]
    exact h
  | some payload =>
    rw [publish_of_some hv, Rows.nodup_keys_concat]
    exact ⟨hp (by rw [hv]; rfl), h⟩

/-- A poll that fits takes all that is left. -/
theorem Gapless.step (h : Gapless c) (hf : FreshId validate c a) (ha : Fits c a) :
    Gapless (c.step validate runId (pageById b) a).1 := by
  cases a with
  | publish p =>
    obtain ⟨new, hnew⟩ := events_publish validate runId c.log p
    refine ⟨idsDistinct_publish h.ids hf, h.received.trans ?_⟩
    simp only [Session.step]
    rw [hnew]
    exact List.prefix_append _ _
  | poll limit =>
    refine ⟨h.ids, ?_⟩
    simp only [Session.step]
    by_cases hnil : c.received = []
    · rw [firstPage hnil limit.pos, hnil]
      exact List.take_prefix _ _
    · have hfits : c.backlog.length ≤ limit := ha
      rw [pageById_of_last (List.getLast?_eq_some_getLast hnil) limit.pos,
        Nat.sub_eq_zero_of_le hfits, List.drop_zero, h.received_append_backlog hnil]

/-- A poll that does not fit passes over the first event that is left. -/
theorem Gapless.skips (h : Gapless c) (ha : ¬ Fits c a) :
    Skipping (c.step validate runId (pageById b) a).1 := by
  cases a with
  | publish p => exact absurd trivial ha
  | poll limit =>
    have hover : (limit : ℕ) < c.backlog.length := Nat.lt_of_not_le ha
    have hne : c.received ≠ [] := by
      intro hnil
      simp [Session.backlog, hnil] at hover
    have hpos := limit.pos
    obtain ⟨m, hm⟩ : ∃ m, m = c.backlog.length - limit := ⟨_, rfl⟩
    have hall := h.received_append_backlog hne
    have hnodup : (c.received ++ (c.backlog.take m ++ c.backlog.drop m)).Nodup := by
      rw [List.take_append_drop, hall]
      exact h.ids.of_map
    obtain ⟨-, hrest, hdisjoint⟩ := List.nodup_append.mp hnodup
    obtain ⟨-, -, hpage⟩ := List.nodup_append.mp hrest
    obtain ⟨e, he⟩ := List.exists_mem_of_length_pos
      (l := c.backlog.take m) (by rw [List.length_take]; omega)
    obtain ⟨last, hlast⟩ := Option.isSome_iff_exists.mp
      (List.getLast?_isSome.mpr (List.ne_nil_of_length_pos
        (l := c.backlog.drop m) (by rw [List.length_drop]; omega)))
    refine ⟨h.ids, c.received ++ c.backlog.take m, c.backlog.drop m, ?_, ⟨e, ?_, ?_⟩, last, ?_, ?_⟩
    · rw [List.append_assoc, List.take_append_drop, hall]
      rfl
    · exact List.mem_append_right _ he
    · simp only [Session.step]
      rw [pageById_of_last (List.getLast?_eq_some_getLast hne) hpos, ← hm, List.mem_append]
      rintro (hmem | hmem)
      · exact hdisjoint e hmem e (List.mem_append_left _ he) rfl
      · exact hpage e he e hmem rfl
    · exact List.mem_of_getLast? hlast
    · simp only [Session.step]
      rw [pageById_of_last (List.getLast?_eq_some_getLast hne) hpos, ← hm, List.getLast?_append,
        hlast]
      rfl

/-- What has been passed over stays behind the cursor. -/
theorem Skipping.step (h : Skipping c) (hf : FreshId validate c a) :
    Skipping (c.step validate runId (pageById b) a).1 := by
  obtain ⟨hids, before, after, hevents, ⟨e, he, hnot⟩, last, hmem, hlast⟩ := h
  cases a with
  | publish p =>
    obtain ⟨new, hnew⟩ := events_publish validate runId c.log p
    refine ⟨idsDistinct_publish hids hf, before, after ++ new, ?_, ⟨e, he, hnot⟩, last,
      List.mem_append_left _ hmem, hlast⟩
    simp only [Session.step]
    rw [hnew, hevents, List.append_assoc]
  | poll limit =>
    have hdisjoint := hids
    rw [IdsDistinct, hevents, List.map_append, List.nodup_append] at hdisjoint
    have hbacklog : c.backlog <:+ after := by
      rw [Session.backlog, hlast, hevents]
      rw [Option.map_some, Option.getD_some, eventsAfter_append]
      · exact eventsAfter_suffix
      · intro hb
        exact hdisjoint.2.2 _ hb _ (List.mem_map_of_mem hmem) rfl
    have hpage : pageById b c.log c.received limit <:+ after := by
      rw [pageById_of_last hlast limit.pos]
      exact (List.drop_suffix _ _).trans hbacklog
    refine ⟨hids, before, after, hevents, ⟨e, he, ?_⟩, ?_⟩
    · simp only [Session.step]
      rw [List.mem_append]
      rintro (hr | hp)
      · exact hnot hr
      · exact hdisjoint.2.2 _ (List.mem_map_of_mem he) _ (List.mem_map_of_mem (hpage.mem hp)) rfl
    · simp only [Session.step]
      rw [List.getLast?_append]
      cases hp : (pageById b c.log c.received limit).getLast? with
      | none => exact ⟨last, hmem, by rw [hlast]; rfl⟩
      | some last' => exact ⟨last', hpage.mem (List.mem_of_getLast? hp), rfl⟩

theorem Skipping.received_ne (h : Skipping c) : c.received ≠ c.log.events := by
  obtain ⟨-, before, after, hevents, ⟨e, he, hnot⟩, -⟩ := h
  intro heq
  rw [heq, hevents] at hnot
  exact hnot (List.mem_append_left _ he)

/-- Behind a gapless client an empty page is the end of the log. -/
theorem Gapless.received_eq (h : Gapless c) (hl : 1 ≤ limit) (hend : pageById b c.log c.received limit = []) :
    c.received = c.log.events := by
  by_cases hnil : c.received = []
  · rw [firstPage hnil hl, List.take_eq_nil_iff] at hend
    rw [hnil, hend.resolve_left (by omega)]
  · have hempty : c.backlog = [] := by
      rw [pageById_of_last (List.getLast?_eq_some_getLast hnil) hl, List.drop_eq_nil_iff] at hend
      rw [← List.length_eq_zero_iff]
      omega
    rw [← h.received_append_backlog hnil, hempty, List.append_nil]

/-- A client whose next page is empty has received every stored event once and in order exactly
when no poll behind a cursor found more events than it asked for. -/
theorem received_all_iff
    (hids : Along (Session.step validate runId (pageById b)) (FreshId validate) .start acts)
    (hc : c = final (Session.step validate runId (pageById b)) .start acts) (hl : 1 ≤ limit)
    (hend : pageById b c.log c.received limit = []) :
    c.received = c.log.events ↔
      Along (Session.step validate runId (pageById b)) Fits .start acts := by
  have hstart : Gapless (Session.start (π := π)) :=
    ⟨List.nodup_nil, List.prefix_rfl⟩
  subst hc
  refine good_iff_along (I := Gapless) (B := Skipping) ?_ ?_ ?_ hstart hids ?_ ?_
  · exact fun c a hc hf ha => hc.step hf ha
  · exact fun c a hc _ ha => hc.skips ha
  · exact fun c a hf hc => hc.step hf
  · exact fun h => h.received_eq hl hend
  · exact Skipping.received_ne

/-! Two events arrive between two polls. -/

/-- A poll, two further events, and polls of `limit` events until a page is empty. -/
def twoBehind (limit : ℕ+) : List (ClientAction (String × Option String)) :=
  [.publish (plainPublish "evt_1" (some "a")), .poll limit, .publish (plainPublish "evt_2" (some "b")),
    .publish (plainPublish "evt_3" (some "c")), .poll limit, .poll limit]

/-- One event at a time, the client gets the third event and never the second. -/
theorem twoBehind_skips : ∃ c,
    c = final (Session.step deltaFields "run" (pageById .redis)) .start (twoBehind 1) ∧
    Along (Session.step deltaFields "run" (pageById .redis)) (FreshId deltaFields) .start (twoBehind 1) ∧
    pageById .redis c.log c.received 1 = [] ∧ c.received ≠ c.log.events :=
  ⟨_, rfl, by decide, by decide, by decide⟩

theorem twoBehind_received : ∃ c,
    c = final (Session.step deltaFields "run" (pageById .redis)) .start (twoBehind 2) ∧
    c.log.events.length = 3 ∧ c.received = c.log.events :=
  ⟨_, rfl, by decide,
    (received_all_iff (b := .redis) (by decide) rfl (Nat.le_refl 1) (by decide)).mpr (by decide)⟩

end Pyharmonics.Vibe
