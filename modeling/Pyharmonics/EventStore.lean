import Pyharmonics.Library.Machines
import Pyharmonics.Library.Slices

/-! The events of a run: numbered publishing, and reading by sequence number. -/
namespace Pyharmonics.Vibe

open Machines

variable {φ π : Type*}

inductive Backend
  | redis | memory
  deriving DecidableEq

/-- An event as a caller hands it over: an empty id and a missing `ts` or `seq` are filled in;
`seq` may be given as null. -/
structure EventDraft (φ : Type*) where
  eventId : String
  ts : Option String
  seq : Option (Option ℤ)
  fields : φ

/-- A validated event with the fields of its type. -/
structure VibeEvent (π : Type*) where
  eventId : String
  runId : String
  ts : String
  seq : Option ℤ
  payload : π
  deriving DecidableEq

/-- A publish: the draft, the id generated for it and the clock's reading. -/
structure Publish (φ : Type*) where
  draft : EventDraft φ
  generated : String
  now : String

/-- What a store holds for one run: how many numbers it has handed out, and the events. -/
structure RunLog (π : Type*) where
  allocated : ℕ
  events : List (VibeEvent π)

def RunLog.empty : RunLog π := ⟨0, []⟩

def Publish.eventId (p : Publish φ) : String :=
  if p.draft.eventId = "" then p.generated else p.draft.eventId

/-- The next per-run sequence number, from zero. -/
def RunLog.nextSeq (log : RunLog π) : RunLog π × ℤ :=
  ({ log with allocated := log.allocated + 1 }, log.allocated)

/-- `publish`; the number is allocated whether or not it is used, and before validation. -/
def publish (validate : φ → Option π) (runId : String) (log : RunLog π) (p : Publish φ) :
    RunLog π × String :=
  let (log, next) := log.nextSeq
  let seq := p.draft.seq.getD (some next)
  match validate p.draft.fields with
  | none => (log, p.eventId)
  | some payload =>
    let event : VibeEvent π := ⟨p.eventId, runId, p.draft.ts.getD p.now, seq, payload⟩
    ({ log with events := log.events ++ [event] }, p.eventId)

def fetchAll (log : RunLog π) : List (VibeEvent π) := log.events

/-- `_fetch_range`; the bounds of a Redis range are inclusive. -/
def fetchRange (b : Backend) (log : RunLog π) (offset limit : ℤ) : List (VibeEvent π) :=
  match b with
  | .redis => Slices.lrange log.events offset (offset + limit - 1)
  | .memory => Slices.slice log.events offset (offset + limit)

/-- The events behind the first one with the given id. -/
def eventsAfter (id : String) : List (VibeEvent π) → List (VibeEvent π)
  | [] => []
  | ev :: events => if ev.eventId = id then events else eventsAfter id events

def getEvents (b : Backend) (log : RunLog π) (afterEventId : Option String)
    (afterSeq offset : Option ℤ) (limit : ℤ) : List (VibeEvent π) :=
  match afterSeq, afterEventId with
  | some s, _ => fetchRange b log (s + 1) limit
  | none, some id => Slices.sliceFrom (eventsAfter id (fetchAll log)) (-limit)
  | none, none => fetchRange b log (offset.getD 0) limit

/-- `seq > s`, which null is not. -/
def Exceeds (s : ℤ) (seq : Option ℤ) : Prop := ∃ n ∈ seq, s < n

instance (s : ℤ) (seq : Option ℤ) : Decidable (Exceeds s seq) :=
  match seq with
  | none => isFalse (by simp [Exceeds])
  | some n => decidable_of_iff (s < n) (by simp [Exceeds])

/-- The stored events numbered beyond `s`. -/
def RunLog.beyond (log : RunLog π) (s : ℤ) : List (VibeEvent π) :=
  log.events.filter fun e => Exceeds s e.seq

variable {validate : φ → Option π} {runId : String} {b : Backend} {log : RunLog π}
  {p : Publish φ} {ps : List (Publish φ)} {s : ℤ}

/-- The number an event would be stored under. -/
def RunLog.seqOf (log : RunLog π) (p : Publish φ) : Option ℤ :=
  p.draft.seq.getD (some log.allocated)

/-- `P` relates the number of every event to its place in the list. -/
def Placewise (P : Option ℤ → ℕ → Prop) (events : List (VibeEvent π)) : Prop :=
  ∀ (j : ℕ) (e : VibeEvent π), events[j]? = some e → P e.seq j

/-- An event that passes validation is stored with a number that `P` relates to its place. -/
def PublishedAs (validate : φ → Option π) (P : Option ℤ → ℕ → Prop) (log : RunLog π)
    (p : Publish φ) : Prop :=
  (validate p.draft.fields).isSome → P (log.seqOf p) log.events.length

/-- Number and place agree about `s`. -/
def Agrees (s : ℤ) (seq : Option ℤ) (place : ℕ) : Prop := Exceeds s seq ↔ s < place

/-- The number is the place. -/
def InPlace (seq : Option ℤ) (place : ℕ) : Prop := seq = some (place : ℤ)

theorem publish_of_none (h : validate p.draft.fields = none) :
    (publish validate runId log p).1.events = log.events := by
  simp [publish, RunLog.nextSeq, h]

theorem publish_of_some {payload : π} (h : validate p.draft.fields = some payload) :
    (publish validate runId log p).1.events =
      log.events ++ [⟨p.eventId, runId, p.draft.ts.getD p.now, log.seqOf p, payload⟩] := by
  simp [publish, RunLog.nextSeq, RunLog.seqOf, h]

/-- A publish leaves the log with at most one event more. -/
theorem events_publish (validate : φ → Option π) (runId : String) (log : RunLog π) (p : Publish φ) :
    ∃ new, (publish validate runId log p).1.events = log.events ++ new := by
  cases hv : validate p.draft.fields with
  | none => exact ⟨[], by rw [publish_of_none hv, List.append_nil]⟩
  | some payload => exact ⟨_, publish_of_some hv⟩

theorem placewise_concat {P : Option ℤ → ℕ → Prop} {events : List (VibeEvent π)} {e : VibeEvent π} :
    Placewise P (events ++ [e]) ↔ Placewise P events ∧ P e.seq events.length := by
  constructor
  · intro h
    refine ⟨?_, h events.length e List.getElem?_concat_length⟩
    intro j x hj
    apply h j x
    rw [List.getElem?_append_left (List.getElem?_eq_some_iff.mp hj).1, hj]
  · rintro ⟨hold, hnew⟩ j x hj
    rcases Nat.lt_or_ge j events.length with hlt | hge
    · rw [List.getElem?_append_left hlt] at hj
      exact hold j x hj
    · rw [List.getElem?_append_right hge, List.getElem?_singleton] at hj
      split at hj
      · obtain rfl := Option.some.inj hj
        obtain rfl : j = events.length := by omega
        exact hnew
      · simp at hj

theorem placewise_publish {P : Option ℤ → ℕ → Prop} :
    Placewise P (publish validate runId log p).1.events ↔
      Placewise P log.events ∧ PublishedAs validate P log p := by
  cases hv : validate p.draft.fields with
  | none =>
    rw [publish_of_none hv]
    simp [PublishedAs, hv]
  | some payload =>
    rw [publish_of_some hv, placewise_concat]
    simp [PublishedAs, hv]

theorem placewise_final {P : Option ℤ → ℕ → Prop} :
    Placewise P (final (publish validate runId) log ps).events ↔
      Placewise P log.events ∧ Along (publish validate runId) (PublishedAs validate P) log ps := by
  induction ps generalizing log with
  | nil => simp
  | cons p ps ih => rw [final_cons, ih, along_cons, placewise_publish, and_assoc]

/-- From a sequence number on, the reads of both backends start at the same place. -/
theorem fetchRange_of_nonneg {offset : ℤ} {limit : ℕ} (ho : 0 ≤ offset) (hl : 1 ≤ limit) :
    fetchRange b log offset limit = (log.events.drop offset.toNat).take limit := by
  cases b with
  | redis => exact Slices.lrange_of_nonneg ho hl
  | memory => exact Slices.slice_of_nonneg ho

/-- The pages behind a number are right exactly when numbers and places agree about it. -/
theorem pages_iff_placewise (hs : -1 ≤ s) :
    (∀ limit : ℕ, 1 ≤ limit → getEvents b log none (some s) none limit = (log.beyond s).take limit) ↔
      Placewise (Agrees s) log.events := by
  have hpage : (∀ limit : ℕ, 1 ≤ limit →
      getEvents b log none (some s) none limit = (log.beyond s).take limit) ↔
      log.events.drop (s + 1).toNat = log.beyond s := by
    constructor
    · intro h
      apply Slices.eq_of_take_eq
      intro limit hl
      rw [← h limit hl]
      exact (fetchRange_of_nonneg (by omega) hl).symm
    · intro h limit hl
      rw [← h]
      exact fetchRange_of_nonneg (by omega) hl
  rw [hpage, RunLog.beyond, Slices.drop_eq_filter_iff]
  refine forall₃_congr ?_
  intro j e _
  rw [decide_eq_true_iff, show (s + 1).toNat ≤ j ↔ s < j by omega]
  rfl

/-- Behind a number below −1 the index is taken from the end of the list. -/
theorem pages_from_end_iff (hs : s < -1) :
    (∀ limit : ℕ, 1 ≤ limit → getEvents b log none (some s) none limit = (log.beyond s).take limit) ↔
      log.events = [] ∨ b = .redis ∧ s = -2 ∧ ∃ e, log.events = [e] ∧ Exceeds s e.seq := by
  cases b with
  | redis =>
    have h := Slices.lrange_neg_iff (l := log.events) (p := fun e => Exceeds s e.seq)
      (show s + 1 < 0 by omega)
    have hs2 : s + 1 = -1 ↔ s = -2 := by omega
    simpa [getEvents, fetchRange, RunLog.beyond, hs2] using h
  | memory =>
    have h := Slices.slice_neg_iff (l := log.events) (p := fun e => Exceeds s e.seq)
      (show s + 1 < 0 by omega)
    simpa [getEvents, fetchRange, RunLog.beyond] using h

/-! A client that polls while events arrive. -/

inductive ClientAction (φ : Type*)
  | publish (p : Publish φ)
  | poll (limit : ℕ+)

/-- The log of a run and what one client has received of it. -/
structure Session (π : Type*) where
  log : RunLog π
  received : List (VibeEvent π)

def Session.start : Session π := ⟨.empty, []⟩

/-- One action; the answer is the page of a poll. -/
def Session.step (validate : φ → Option π) (runId : String)
    (page : RunLog π → List (VibeEvent π) → ℕ → List (VibeEvent π)) (c : Session π) :
    ClientAction φ → Session π × List (VibeEvent π)
  | .publish p => ({ c with log := (publish validate runId c.log p).1 }, [])
  | .poll limit =>
    ({ c with received := c.received ++ page c.log c.received limit }, page c.log c.received limit)

/-- The page behind the number of the last event received. -/
def pageBySeq (b : Backend) (log : RunLog π) (received : List (VibeEvent π)) (limit : ℕ) :
    List (VibeEvent π) :=
  getEvents b log none (received.getLast?.bind VibeEvent.seq) none limit

/-- Every event is stored under the number of its place. -/
def StoredInPlace (validate : φ → Option π) (c : Session π) : ClientAction φ → Prop
  | .publish p => PublishedAs validate InPlace c.log p
  | .poll _ => True

/-- The client has received a first part of the log. -/
structure InStep (c : Session π) : Prop where
  placed : Placewise InPlace c.log.events
  received : c.received <+: c.log.events

theorem InStep.pageBySeq {c : Session π} (h : InStep c) {limit : ℕ} (hl : 1 ≤ limit) :
    pageBySeq b c.log c.received limit = (c.log.events.drop c.received.length).take limit := by
  rcases List.eq_nil_or_concat c.received with hnil | ⟨received, e, hlast⟩
  · simp only [Vibe.pageBySeq, hnil, List.getLast?_nil, List.length_nil]
    exact fetchRange_of_nonneg (Int.le_refl 0) hl
  · have hseq : e.seq = some (received.length : ℤ) := by
      apply h.placed received.length e
      obtain ⟨rest, hrest⟩ := h.received
      rw [← hrest, hlast]
      simp
    have hcursor : c.received.getLast?.bind VibeEvent.seq = some (received.length : ℤ) := by
      rw [hlast, List.concat_eq_append, List.getLast?_concat, Option.bind_some, hseq]
    have hlen : c.received.length = received.length + 1 := by simp [hlast]
    rw [Vibe.pageBySeq, hcursor, hlen]
    exact fetchRange_of_nonneg (by omega) hl

theorem InStep.step {c : Session π} {a : ClientAction φ} (h : InStep c)
    (ha : StoredInPlace validate c a) :
    InStep (Session.step validate runId (Vibe.pageBySeq b) c a).1 := by
  cases a with
  | publish p =>
    refine ⟨placewise_publish.mpr ⟨h.placed, ha⟩, h.received.trans ?_⟩
    obtain ⟨new, hnew⟩ := events_publish validate runId c.log p
    rw [Session.step, hnew]
    exact List.prefix_append _ _
  | poll limit =>
    refine ⟨h.placed, ?_⟩
    simp only [Session.step]
    rw [h.pageBySeq limit.pos]
    exact Slices.prefix_append_page h.received

/-- The log a history of publishes leaves. -/
def history (validate : φ → Option π) (runId : String) (ps : List (Publish φ)) : RunLog π :=
  final (publish validate runId) .empty ps

/-- The pages behind `s` are the first events numbered beyond it exactly when no event passed
validation whose number and place stand on different sides of `s` (below −1, when next to nothing
is stored); and a client that polls by number receives every event once when each is stored under
the number of its place. -/
theorem pages_by_seq_iff :
    ((∀ limit : ℕ, 1 ≤ limit → getEvents b (history validate runId ps) none (some s) none limit =
          ((history validate runId ps).beyond s).take limit) ↔
      (-1 ≤ s ∧ Along (publish validate runId) (PublishedAs validate (Agrees s)) .empty ps) ∨
        (history validate runId ps).events = [] ∨
        (b = .redis ∧ s = -2 ∧
          ∃ e, (history validate runId ps).events = [e] ∧ Exceeds s e.seq)) ∧
    ∀ acts : List (ClientAction φ),
      Along (Session.step validate runId (pageBySeq b)) (StoredInPlace validate) .start acts →
      ∀ c, c = final (Session.step validate runId (pageBySeq b)) .start acts →
        c.received <+: c.log.events ∧
        ∀ limit : ℕ, 1 ≤ limit → pageBySeq b c.log c.received limit = [] →
          c.received = c.log.events := by
  constructor
  · rcases lt_or_ge s (-1) with hs | hs
    · rw [pages_from_end_iff hs]
      constructor
      · exact .inr
      · exact fun h => h.resolve_left fun h => absurd h.1 (by omega)
    · rw [pages_iff_placewise hs, history, placewise_final]
      constructor
      · exact fun h => .inl ⟨hs, h.2⟩
      · rintro (⟨-, h⟩ | h | ⟨-, h, -⟩)
        · exact ⟨by simp [Placewise, RunLog.empty], h⟩
        · exact placewise_final.mp (by simp [h, Placewise])
        · omega
  · rintro acts hacts c rfl
    have h : InStep (final (Session.step validate runId (pageBySeq b)) .start acts) := by
      refine final_of_along ?_ ?_ hacts
      · intro c a hc ha
        exact hc.step ha
      · exact ⟨by simp [Placewise, Session.start, RunLog.empty], List.prefix_rfl⟩
    refine ⟨h.received, ?_⟩
    intro limit hl hpage
    rw [h.pageBySeq hl, List.take_eq_nil_iff, List.drop_eq_nil_iff] at hpage
    exact h.received.eq_of_length_le (hpage.resolve_left (by omega))

/-! A rejected event before two good ones. -/

/-- The fields of a text fragment; without its content it does not validate. -/
def deltaFields : String × Option String → Option String
  | ("delta", content) => content
  | _ => none

def plainPublish (id : String) (content : Option String) : Publish (String × Option String) :=
  ⟨⟨id, none, none, ("delta", content)⟩, "evt_0", "2026-01-01T00:00:00+00:00"⟩

/-- The good events are numbered 1 and 2, at the places 0 and 1. -/
def rejectedFirst : List (Publish (String × Option String)) :=
  [plainPublish "evt_1" none, plainPublish "evt_2" (some "a"), plainPublish "evt_3" (some "b")]

/-- The poll behind number 1 misses the event numbered 2, and so does the client that has seen the
event numbered 1. -/
theorem rejectedFirst_skips :
    ¬ (∀ limit : ℕ, 1 ≤ limit →
        getEvents .redis (history deltaFields "run" rejectedFirst) none (some 1) none limit =
          ((history deltaFields "run" rejectedFirst).beyond 1).take limit) ∧
    ∃ c, c = final (Session.step deltaFields "run" (pageBySeq .redis)) .start
        [.publish (plainPublish "evt_1" none), .publish (plainPublish "evt_2" (some "a")), .poll 50,
          .publish (plainPublish "evt_3" (some "b"))] ∧
      pageBySeq .redis c.log c.received 50 = [] ∧ c.received ≠ c.log.events := by
  constructor
  · intro h
    exact absurd (h 50 (by decide)) (by decide)
  · exact ⟨_, rfl, by decide, by decide⟩

end Pyharmonics.Vibe
