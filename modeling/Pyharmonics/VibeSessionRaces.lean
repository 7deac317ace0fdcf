import Mathlib.Data.Fintype.Basic
import Pyharmonics.Library.Machines

/-! Concurrent `create_message` calls on one session in Redis: a list and a count, each loaded and
saved. -/
namespace Pyharmonics.VibeChat

open Machines

variable {μ ι : Type*} [DecidableEq μ] [DecidableEq ι]

/-- What `_touch_session` changes in a session. -/
structure SessionRow where
  messageCount : ℕ
  updatedAt : String
  lastMessageAt : Option String
  deriving DecidableEq

/-- A message that was there, or the new one of a call, whose fresh id tells it from the others. -/
inductive StoredMessage (μ ι : Type*)
  | old (m : μ)
  | new (i : ι)
  deriving DecidableEq

/-- Where a call stands: before it loads the list, with the list it loaded, with its list saved,
with the session it loaded, with that and the number of messages it counted, and at its end. -/
inductive MessagePhase (μ ι : Type*)
  | called
  | loaded (snapshot : List (StoredMessage μ ι))
  | appended
  | touching (session : SessionRow)
  | counted (session : SessionRow) (n : ℕ)
  | returned
  deriving DecidableEq

/-- The message of the call has been saved. -/
def MessagePhase.HasAppended : MessagePhase μ ι → Prop
  | .called | .loaded _ => False
  | .appended | .touching _ | .counted _ _ | .returned => True

/-- The two keys of the session, and where the calls stand. -/
structure Chat (μ ι : Type*) where
  messages : List (StoredMessage μ ι)
  session : SessionRow
  phase : ι → MessagePhase μ ι

/-- A session with its messages counted. -/
def Chat.start (base : List μ) (updatedAt : String) (lastMessageAt : Option String) : Chat μ ι :=
  ⟨base.map .old, ⟨base.length, updatedAt, lastMessageAt⟩, fun _ => .called⟩

def Chat.setPhase (c : Chat μ ι) (i : ι) (p : MessagePhase μ ι) : Chat μ ι :=
  { c with phase := Function.update c.phase i p }

/-- The call saves the list it loaded with its message behind. -/
def Chat.saveList (c : Chat μ ι) (i : ι) (snapshot : List (StoredMessage μ ι)) : Chat μ ι :=
  { c.setPhase i .appended with messages := snapshot ++ [.new i] }

/-- The call saves the session it loaded with its count and the time. -/
def Chat.saveSession (c : Chat μ ι) (i : ι) (session : SessionRow) (n : ℕ) (now : String) :
    Chat μ ι :=
  { c.setPhase i .returned with
    session := { session with messageCount := n, updatedAt := now, lastMessageAt := some now } }

/-- The next load or save of one of the calls; `now i` is what its clock shows. -/
def Chat.step (now : ι → String) (c : Chat μ ι) (i : ι) : Chat μ ι × Unit :=
  match c.phase i with
  | .called => (c.setPhase i (.loaded c.messages), ())
  | .loaded snapshot => (c.saveList i snapshot, ())
  | .appended => (c.setPhase i (.touching c.session), ())
  | .touching session => (c.setPhase i (.counted session c.messages.length), ())
  | .counted session n => (c.saveSession i session n (now i), ())
  | .returned => (c, ())

/-- Each returned message is listed once. -/
def EachListedOnce (c : Chat μ ι) : Prop :=
  ∀ i, c.phase i = .returned → c.messages.count (.new i) = 1

def Counted (c : Chat μ ι) : Prop := c.session.messageCount = c.messages.length

def AllReturned (c : Chat μ ι) : Prop := ∀ i, c.phase i = .returned

instance decidableEachListedOnce [Fintype ι] {c : Chat μ ι} : Decidable (EachListedOnce c) :=
  inferInstanceAs (Decidable (∀ _, _))

instance decidableCounted {c : Chat μ ι} : Decidable (Counted c) :=
  inferInstanceAs (Decidable (_ = _))

/-- A call that saves the list has loaded the very list that is stored. -/
def SavesCurrentList (c : Chat μ ι) (i : ι) : Prop :=
  ∀ snapshot, c.phase i = .loaded snapshot → c.messages = snapshot

/-- The last call to save the session has counted the messages that are stored. -/
def LastCountsCurrent (c : Chat μ ι) (i : ι) : Prop :=
  ∀ session n, c.phase i = .counted session n → (∀ j, j ≠ i → c.phase j = .returned) →
    n = c.messages.length

instance decidableAllReturned [Fintype ι] {c : Chat μ ι} : Decidable (AllReturned c) :=
  inferInstanceAs (Decidable (∀ _, _))

instance decidableSavesCurrentList {c : Chat μ ι} {i : ι} : Decidable (SavesCurrentList c i) :=
  match h : c.phase i with
  | .loaded snapshot => decidable_of_iff (c.messages = snapshot) (by simp [SavesCurrentList, h])
  | .called | .appended | .touching _ | .counted _ _ | .returned =>
    isTrue (by simp [SavesCurrentList, h])

instance decidableLastCountsCurrent [Fintype ι] {c : Chat μ ι} {i : ι} :
    Decidable (LastCountsCurrent c i) :=
  match h : c.phase i with
  | .counted _ n =>
    decidable_of_iff ((∀ j, j ≠ i → c.phase j = .returned) → n = c.messages.length)
      (by simp [LastCountsCurrent, h])
  | .called | .loaded _ | .appended | .touching _ | .returned =>
    isTrue (by simp [LastCountsCurrent, h])

variable {c c' : Chat μ ι} {i j : ι} {p q : MessagePhase μ ι} {snapshot : List (StoredMessage μ ι)}
  {session : SessionRow} {n : ℕ} {now : ι → String} {base : List μ} {updatedAt : String}
  {lastMessageAt : Option String} {schedule : List ι}

omit [DecidableEq μ] in
theorem chat_setPhase : (c.setPhase i p).phase j = q ↔ j = i ∧ p = q ∨ j ≠ i ∧ c.phase j = q :=
  moved_iff

omit [DecidableEq μ] in
theorem hasAppended_setPhase (hp : p.HasAppended ↔ (c.phase i).HasAppended) :
    ((c.setPhase i p).phase j).HasAppended ↔ (c.phase j).HasAppended := by
  by_cases h : j = i
  · subst h
    simpa [Chat.setPhase] using hp
  · simp [Chat.setPhase, h]

omit [DecidableEq μ] in
theorem hasAppended_saveList :
    ((c.saveList i snapshot).phase j).HasAppended ↔ (c.phase j).HasAppended ∨ j = i := by
  by_cases h : j = i
  · subst h
    simp [Chat.saveList, Chat.setPhase, MessagePhase.HasAppended]
  · simp [Chat.saveList, Chat.setPhase, h]

/-- What one step does to the list: it saves the list of its call, lets its call load it, or leaves
it and where the calls stand with it alone. -/
inductive ListSteps (c : Chat μ ι) (i : ι) : Chat μ ι → Prop
  | saves (snapshot : List (StoredMessage μ ι)) (h : c.phase i = .loaded snapshot) :
      ListSteps c i (c.saveList i snapshot)
  | loads (h : c.phase i = .called) : ListSteps c i (c.setPhase i (.loaded c.messages))
  | quiet (c' : Chat μ ι) (hmessages : c'.messages = c.messages)
      (happended : ∀ j, (c'.phase j).HasAppended ↔ (c.phase j).HasAppended)
      (hloaded : ∀ j snapshot, c'.phase j = .loaded snapshot → c.phase j = .loaded snapshot)
      (hidle : ∀ snapshot, c.phase i ≠ .loaded snapshot) : ListSteps c i c'

omit [DecidableEq μ] in
theorem ListSteps.moves {session : SessionRow} (hp : p.HasAppended)
    (hold : (c.phase i).HasAppended) : ListSteps c i { c.setPhase i p with session := session } := by
  refine .quiet _ rfl ?_ ?_ ?_
  · exact fun j => hasAppended_setPhase (iff_of_true hp hold)
  · intro j snapshot hj
    rcases chat_setPhase.mp hj with ⟨-, rfl⟩ | ⟨-, hj⟩
    · cases hp
    · exact hj
  · intro snapshot h
    rw [h] at hold
    cases hold

omit [DecidableEq μ] in
theorem listSteps_step : ListSteps c i (c.step now i).1 := by
  rw [Chat.step]
  split
  · next h => exact .loads h
  · next snapshot h => exact .saves snapshot h
  · next h => exact .moves trivial (by simp [h, MessagePhase.HasAppended])
  · next h => exact .moves trivial (by simp [h, MessagePhase.HasAppended])
  · next h => exact .moves trivial (by simp [h, MessagePhase.HasAppended])
  · next h => exact .quiet _ rfl (fun _ => Iff.rfl) (fun _ _ h => h) (by simp [h])

/-- A list holds new messages only once each, and only of calls that have saved theirs. -/
def Holds (c : Chat μ ι) (l : List (StoredMessage μ ι)) : Prop :=
  ∀ j, l.count (.new j) ≤ 1 ∧ (.new j ∈ l → (c.phase j).HasAppended)

/-- Lists are as they should be, and one that a call has loaded and that is no longer stored lacks
a saved message. -/
structure Chat.Sound (c : Chat μ ι) : Prop where
  stored : Holds c c.messages
  loaded : ∀ i snapshot, c.phase i = .loaded snapshot → Holds c snapshot ∧
    (c.messages = snapshot ∨ ∃ j, (c.phase j).HasAppended ∧ .new j ∉ snapshot)

/-- No saved message is missing. -/
structure Chat.Kept (c : Chat μ ι) : Prop where
  sound : c.Sound
  kept : ∀ j, (c.phase j).HasAppended → .new j ∈ c.messages

/-- A saved message is missing. -/
structure Chat.Lossy (c : Chat μ ι) : Prop where
  sound : c.Sound
  lost : ∃ j, (c.phase j).HasAppended ∧ .new j ∉ c.messages

theorem Holds.mono {l : List (StoredMessage μ ι)} (h : Holds c l)
    (hc : ∀ j, (c.phase j).HasAppended → (c'.phase j).HasAppended) : Holds c' l :=
  fun j => ⟨(h j).1, fun hj => hc j ((h j).2 hj)⟩

/-- A message is saved once: its call has not saved before. -/
theorem Chat.Sound.saveList (h : c.Sound) {snapshot : List (StoredMessage μ ι)}
    (hphase : c.phase i = .loaded snapshot) : (c.saveList i snapshot).Sound := by
  obtain ⟨hsnap, -⟩ := h.loaded i snapshot hphase
  have hmono : ∀ j, (c.phase j).HasAppended → ((c.saveList i snapshot).phase j).HasAppended :=
    fun j hj => hasAppended_saveList.mpr (.inl hj)
  have hunsaved : ¬ (c.phase i).HasAppended := by simp [hphase, MessagePhase.HasAppended]
  have hnew : ∀ l, Holds c l → .new i ∉ l := fun l hl hi => hunsaved ((hl i).2 hi)
  constructor
  · intro j
    by_cases hj : j = i
    · subst hj
      have hzero : snapshot.count (.new j) = 0 := List.count_eq_zero.mpr (hnew snapshot hsnap)
      refine ⟨?_, fun _ => hasAppended_saveList.mpr (.inr rfl)⟩
      simp [Chat.saveList, hzero]
    · have hne : (.new i : StoredMessage μ ι) ≠ .new j := fun he => hj (StoredMessage.new.inj he).symm
      refine ⟨?_, fun hmem => hmono j ((hsnap j).2 ?_)⟩
      · simpa [Chat.saveList, List.count_cons_of_ne hne] using (hsnap j).1
      · simpa [Chat.saveList, hj] using hmem
  · intro k snapshot' hk
    have hk : c.phase k = .loaded snapshot' := by
      rcases chat_setPhase.mp hk with ⟨-, hp⟩ | ⟨-, hk⟩
      · cases hp
      · exact hk
    obtain ⟨hsnap', -⟩ := h.loaded k snapshot' hk
    exact ⟨hsnap'.mono hmono, .inr ⟨i, hasAppended_saveList.mpr (.inr rfl), hnew _ hsnap'⟩⟩

theorem Chat.Sound.step (h : c.Sound) (hs : ListSteps c i c') : c'.Sound := by
  cases hs with
  | saves snapshot hphase => exact h.saveList hphase
  | loads hphase =>
    have happended : ∀ j, ((c.setPhase i (.loaded c.messages)).phase j).HasAppended ↔
        (c.phase j).HasAppended := fun j =>
      hasAppended_setPhase (by simp [hphase, MessagePhase.HasAppended])
    have hmono := fun j => (happended j).mpr
    refine ⟨h.stored.mono hmono, ?_⟩
    intro k snapshot hk
    rcases chat_setPhase.mp hk with ⟨-, hp⟩ | ⟨-, hk⟩
    · cases hp
      exact ⟨h.stored.mono hmono, .inl rfl⟩
    · obtain ⟨hsnap, hcurrent⟩ := h.loaded k snapshot hk
      refine ⟨hsnap.mono hmono, hcurrent.imp_right ?_⟩
      rintro ⟨j, hj, hmiss⟩
      exact ⟨j, hmono j hj, hmiss⟩
  | quiet _ hmessages happended hloaded =>
    have hmono := fun j => (happended j).mpr
    refine ⟨hmessages ▸ h.stored.mono hmono, ?_⟩
    intro k snapshot hk
    obtain ⟨hsnap, hcurrent⟩ := h.loaded k snapshot (hloaded k snapshot hk)
    refine ⟨hsnap.mono hmono, hmessages ▸ hcurrent.imp_right ?_⟩
    rintro ⟨j, hj, hmiss⟩
    exact ⟨j, hmono j hj, hmiss⟩

theorem Chat.Kept.step (h : c.Kept) (hs : ListSteps c i c') (hg : SavesCurrentList c i) : c'.Kept := by
  refine ⟨h.sound.step hs, ?_⟩
  intro j hj
  cases hs with
  | saves snapshot hphase =>
    rw [saveList, ← hg snapshot hphase, List.mem_append, List.mem_singleton]
    exact (hasAppended_saveList.mp hj).imp (h.kept j) (congrArg _)
  | loads hphase =>
    exact h.kept j ((hasAppended_setPhase (by simp [hphase, MessagePhase.HasAppended])).mp hj)
  | quiet _ hmessages happended => exact hmessages ▸ h.kept j ((happended j).mp hj)

/-- A list saved over lacks the message it lacked when it was loaded. -/
theorem Chat.Sound.saves_loss (h : c.Sound) (hphase : c.phase i = .loaded snapshot)
    (hlost : ∃ j, (c.phase j).HasAppended ∧ .new j ∉ snapshot) :
    (c.saveList i snapshot).Lossy := by
  refine ⟨h.step (.saves snapshot hphase), ?_⟩
  obtain ⟨j, hj, hmiss⟩ := hlost
  have hji : j ≠ i := by
    rintro rfl
    rw [hphase] at hj
    cases hj
  exact ⟨j, hasAppended_saveList.mpr (.inl hj), by simp [Chat.saveList, hmiss, hji]⟩

theorem Chat.Sound.loses (h : c.Sound) (hs : ListSteps c i c') (hg : ¬ SavesCurrentList c i) :
    c'.Lossy := by
  simp only [SavesCurrentList, not_forall] at hg
  obtain ⟨snapshot, hphase, hne⟩ := hg
  have hlost := (h.loaded i snapshot hphase).2.resolve_left hne
  cases hs with
  | saves snapshot' hphase' =>
    rw [hphase] at hphase'
    cases hphase'
    exact h.saves_loss hphase hlost
  | loads hcalled => simp [hphase] at hcalled
  | quiet _ _ _ _ hidle => exact absurd hphase (hidle snapshot)

theorem Chat.Lossy.step (h : c.Lossy) (hs : ListSteps c i c') : c'.Lossy := by
  obtain ⟨j, hj, hmiss⟩ := h.lost
  cases hs with
  | saves snapshot hphase =>
    refine h.sound.saves_loss hphase ?_
    rcases (h.sound.loaded i snapshot hphase).2 with hcurrent | hlost
    · exact ⟨j, hj, hcurrent ▸ hmiss⟩
    · exact hlost
  | loads hphase =>
    refine ⟨h.sound.step (.loads hphase), j, ?_, hmiss⟩
    exact (hasAppended_setPhase (by simp [hphase, MessagePhase.HasAppended])).mpr hj
  | quiet _ hmessages happended hloaded hidle =>
    refine ⟨h.sound.step (.quiet _ hmessages happended hloaded hidle), j, (happended j).mpr hj, ?_⟩
    exact hmessages ▸ hmiss

theorem Chat.kept_start : (start base updatedAt lastMessageAt : Chat μ ι).Kept := by
  have hnone : ∀ j : ι, (.new j : StoredMessage μ ι) ∉ base.map .old := by simp
  refine ⟨⟨?_, ?_⟩, ?_⟩
  · exact fun j => ⟨(List.count_eq_zero.mpr (hnone j)).le.trans zero_le_one,
      fun hj => absurd hj (hnone j)⟩
  · rintro i snapshot hi
    cases hi
  · rintro j hj
    cases hj

theorem Chat.Kept.listed (h : c.Kept) : EachListedOnce c := by
  intro i hi
  have hmem : .new i ∈ c.messages := h.kept i (by simp [hi, MessagePhase.HasAppended])
  have hpos := List.count_pos_iff.mpr hmem
  exact le_antisymm (h.sound.stored i).1 hpos

theorem Chat.Lossy.not_listed (h : c.Lossy) (hall : AllReturned c) : ¬ EachListedOnce c := by
  intro hlisted
  obtain ⟨j, -, hmiss⟩ := h.lost
  have hone := hlisted j (hall j)
  rw [List.count_eq_zero.mpr hmiss] at hone
  exact absurd hone zero_ne_one

/-- Once all calls have returned the session counts its messages. -/
def CountsAtEnd (c : Chat μ ι) : Prop := AllReturned c → Counted c

/-- All calls have returned, and the count is wrong for good. -/
def Miscounted (c : Chat μ ι) : Prop := AllReturned c ∧ ¬ Counted c

omit [DecidableEq μ] in
theorem step_of_allReturned (h : AllReturned c) : (c.step now i).1 = c := by
  simp only [Chat.step, h i]

omit [DecidableEq μ] in
/-- The step with which the last call returns saves a count. -/
theorem last_step (hold : ¬ AllReturned c) (hnew : AllReturned (c.step now i).1) :
    ∃ session n, c.phase i = .counted session n ∧ (∀ j, j ≠ i → c.phase j = .returned) ∧
      (c.step now i).1 = c.saveSession i session n (now i) := by
  have hothers : ∀ j, j ≠ i → ∀ p, (c.setPhase i p).phase j = .returned → c.phase j = .returned := by
    intro j hj p h
    rcases chat_setPhase.mp h with ⟨hji, -⟩ | ⟨-, h⟩
    · exact absurd hji hj
    · exact h
  cases hphase : c.phase i with
  | counted session n =>
    simp only [Chat.step, hphase] at hnew ⊢
    exact ⟨session, n, rfl, fun j hj => hothers j hj _ (hnew j), rfl⟩
  | returned =>
    simp only [Chat.step, hphase] at hnew
    exact absurd hnew hold
  | called | loaded | appended | touching =>
    have hi := hnew i
    simp [Chat.step, hphase, Chat.setPhase, Chat.saveList] at hi

omit [DecidableEq μ] in
theorem CountsAtEnd.step (h : CountsAtEnd c) (hg : LastCountsCurrent c i) :
    CountsAtEnd (c.step now i).1 := by
  intro hnew
  by_cases hold : AllReturned c
  · rw [step_of_allReturned hold]
    exact h hold
  · obtain ⟨session, n, hphase, hothers, heq⟩ := last_step hold hnew
    rw [heq]
    exact hg session n hphase hothers

omit [DecidableEq μ] in
theorem miscounts (hg : ¬ LastCountsCurrent c i) : Miscounted (c.step now i).1 := by
  simp only [LastCountsCurrent, not_forall] at hg
  obtain ⟨session, n, hphase, hothers, hne⟩ := hg
  have heq : (c.step now i).1 = c.saveSession i session n (now i) := by
    simp only [Chat.step, hphase]
  rw [heq]
  refine ⟨?_, hne⟩
  intro j
  by_cases hj : j = i
  · exact chat_setPhase.mpr (.inl ⟨hj, rfl⟩)
  · exact chat_setPhase.mpr (.inr ⟨hj, hothers j hj⟩)

omit [DecidableEq μ] in
theorem Miscounted.step (h : Miscounted c) : Miscounted (c.step now i).1 := by
  rw [step_of_allReturned h.1]
  exact h

/-- After any interleaving in which each list was saved over the very list its call had loaded,
every returned message is listed once. When all calls have returned this is so, and the session
counts its messages, exactly when lists were saved like that and the last session saved counted the
messages then stored. -/
theorem listed_and_counted_iff :
    (Along (Chat.step now) SavesCurrentList (.start base updatedAt lastMessageAt) schedule →
      EachListedOnce (final (Chat.step now) (.start base updatedAt lastMessageAt) schedule)) ∧
    (AllReturned (final (Chat.step now) (.start base updatedAt lastMessageAt) schedule) →
      (EachListedOnce (final (Chat.step now) (.start base updatedAt lastMessageAt) schedule) ∧
          Counted (final (Chat.step now) (.start base updatedAt lastMessageAt) schedule) ↔
        Along (Chat.step now) (fun c i => SavesCurrentList c i ∧ LastCountsCurrent c i)
          (.start base updatedAt lastMessageAt) schedule)) := by
  constructor
  · intro hg
    have hkept : (final (Chat.step now) (.start base updatedAt lastMessageAt) schedule).Kept :=
      final_of_along (fun c i h hg => h.step listSteps_step hg) Chat.kept_start hg
    exact hkept.listed
  · intro hall
    rw [along_and]
    refine and_congr ?_ ?_
    · refine good_iff_along (I := Chat.Kept) (B := Chat.Lossy) (F := fun _ _ => True)
        ?_ ?_ ?_ Chat.kept_start along_true ?_ ?_
      · exact fun c i h _ hg => h.step listSteps_step hg
      · exact fun c i h _ hg => h.sound.loses listSteps_step hg
      · exact fun c i _ h => h.step listSteps_step
      · exact fun h => h.listed
      · exact fun h => h.not_listed hall
    · refine good_iff_along (I := CountsAtEnd) (B := Miscounted) (F := fun _ _ => True)
        ?_ ?_ ?_ ?_ along_true ?_ ?_
      · exact fun c i h _ hg => h.step hg
      · exact fun c i _ _ hg => miscounts hg
      · exact fun c i _ h => h.step
      · intro _
        simp [Counted, Chat.start]
      · exact fun h => h hall
      · exact fun h => h.2

/-- One call after the other. -/
theorem oneByOne_listed_and_counted :
    EachListedOnce (final (Chat.step fun _ : Bool => "t") (.start ["hello"] "t" none)
      [false, false, false, false, false, true, true, true, true, true]) ∧
    Counted (final (Chat.step fun _ : Bool => "t") (.start ["hello"] "t" none)
      [false, false, false, false, false, true, true, true, true, true]) :=
  (listed_and_counted_iff.2 (by decide)).mpr (by decide)

/-- Both load the list before either saves it. -/
theorem bothLoad_loses_message :
    AllReturned (final (Chat.step fun _ : Bool => "t") (.start ["hello"] "t" none)
      [false, true, false, true, false, false, false, true, true, true]) ∧
    ¬ EachListedOnce (final (Chat.step fun _ : Bool => "t") (.start ["hello"] "t" none)
      [false, true, false, true, false, false, false, true, true, true]) := by
  decide

-- The first call counts before the second saves its message, and saves its count last.
example : AllReturned (final (Chat.step fun _ : Bool => "t") (.start ["hello"] "t" none)
      [false, false, false, false, true, true, true, true, true, false]) ∧
    EachListedOnce (final (Chat.step fun _ : Bool => "t") (.start ["hello"] "t" none)
      [false, false, false, false, true, true, true, true, true, false]) ∧
    ¬ Counted (final (Chat.step fun _ : Bool => "t") (.start ["hello"] "t" none)
      [false, false, false, false, true, true, true, true, true, false]) := by
  decide

end Pyharmonics.VibeChat
