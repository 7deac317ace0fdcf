import Pyharmonics.Library.Machines
import Pyharmonics.WatchlistBackends

/-! Concurrent creates of one user on Redis, each a load, a second load and a save. -/
namespace Pyharmonics.Watchlist

open Machines

variable {ι : Type*} [DecidableEq ι] {data : RedisData} {payload r : Item}

/-- Where a `create_item` call stands: before its first load, with its row built from the listing
it loaded, with the value it is going to change, and at its end. -/
inductive Phase
  | called
  | built (payload : Item)
  | loaded (payload : Item) (snapshot : RedisData)
  | returned (payload : Item)
  | raised (e : StoreError)

/-- The value of the user's key, and the calls in progress. -/
structure Race (ι : Type*) where
  data : RedisData
  phase : ι → Phase

def Race.start (data : RedisData) : Race ι := ⟨data, fun _ => .called⟩

def Race.setPhase (s : Race ι) (i : ι) (p : Phase) : Race ι :=
  { s with phase := Function.update s.phase i p }

/-- The next load or save of one of the calls. -/
def Race.step (resolver : Option (String → Option SymbolMeta)) (userId : String)
    (calls : ι → NewItem) (s : Race ι) (i : ι) : Race ι × Unit :=
  match s.phase i with
  | .called =>
    match (calls i).admitted resolver with
    | .error e => (s.setPhase i (.raised e), ())
    | .ok _ =>
      (s.setPhase i (.built
        ((calls i).payload userId (listRedis s.data (calls i).market))), ())
  | .built payload =>
    match (createRedis s.data payload).2 with
    | .error e => (s.setPhase i (.raised e), ())
    | .ok payload => (s.setPhase i (.loaded payload s.data), ())
  | .loaded payload snapshot =>
    ({ s.setPhase i (.returned payload) with data := (createRedis snapshot payload).1 }, ())
  | .returned _ | .raised _ => (s, ())

/-- The row is in the list of its market. -/
def HasRow (data : RedisData) (r : Item) : Prop := r ∈ data.getD r.market []

/-- A call has returned the row. -/
def Returned (s : Race ι) (r : Item) : Prop := ∃ i, s.phase i = .returned r

/-- Every row that a call has returned is listed. -/
def AllListed (s : Race ι) : Prop := ∀ r, Returned s r → r ∈ listRedis s.data r.market

/-- A call that saves changes the very value it loaded. -/
def SavesCurrent (s : Race ι) (i : ι) : Prop :=
  ∀ payload snapshot, s.phase i = .loaded payload snapshot → s.data = snapshot

instance {s : Race ι} {i : ι} : Decidable (SavesCurrent s i) :=
  match h : s.phase i with
  | .loaded payload snapshot => decidable_of_iff (s.data = snapshot) (by simp [SavesCurrent, h])
  | .called | .built _ | .returned _ | .raised _ => isTrue (by simp [SavesCurrent, h])

/-- What one step can do. -/
inductive Steps (calls : ι → NewItem) (s : Race ι) (i : ι) : Race ι → Prop
  | stays (h : ∀ payload snapshot, s.phase i ≠ .loaded payload snapshot) : Steps calls s i s
  | raises (e : StoreError) (hold : ∀ payload, s.phase i ≠ .returned payload)
      (h : ∀ payload snapshot, s.phase i ≠ .loaded payload snapshot) :
      Steps calls s i (s.setPhase i (.raised e))
  | builds (payload : Item) (h : s.phase i = .called) (hmarket : payload.market = (calls i).market)
      (hsymbol : payload.symbol = (calls i).symbolMeta.symbol) :
      Steps calls s i (s.setPhase i (.built payload))
  | loads (payload : Item) (h : s.phase i = .built payload)
      (hok : (createRedis s.data payload).2 = .ok payload) :
      Steps calls s i (s.setPhase i (.loaded payload s.data))
  | saves (payload : Item) (snapshot : RedisData) (h : s.phase i = .loaded payload snapshot) :
      Steps calls s i
        { s.setPhase i (.returned payload) with data := (createRedis snapshot payload).1 }

theorem createRedis_ok (h : (createRedis data payload).2 = .ok r) :
    r = payload ∧ (∀ r' ∈ data.getD payload.market [], r'.symbol ≠ payload.symbol) ∧
      (createRedis data payload).1 =
        data.set payload.market (data.getD payload.market [] ++ [payload]) := by
  simp only [createRedis] at h ⊢
  split at h
  · cases h
  · next hnew =>
    rw [if_neg hnew]
    split at h
    · cases h
    · next hroom =>
      rw [if_neg hroom]
      cases h
      exact ⟨rfl, by simpa using hnew, rfl⟩

theorem hasRow_createRedis (h : (createRedis data payload).2 = .ok payload) :
    HasRow (createRedis data payload).1 r ↔ HasRow data r ∨ r = payload := by
  obtain ⟨-, -, hset⟩ := createRedis_ok h
  rw [HasRow, hset, Dict.getD_set]
  by_cases hm : r.market = payload.market
  · rw [if_pos hm, List.mem_append, List.mem_singleton, HasRow, hm]
  · have hne : r ≠ payload := fun he => hm (he ▸ rfl)
    rw [if_neg hm, or_iff_left hne, HasRow]

theorem steps_step {resolver : Option (String → Option SymbolMeta)} {userId : String}
    {calls : ι → NewItem} {s : Race ι} {i : ι} :
    Steps calls s i (s.step resolver userId calls i).1 := by
  rw [Race.step]
  split
  · next h =>
    split
    · exact .raises _ (by simp [h]) (by simp [h])
    · exact .builds _ h rfl rfl
  · next payload h =>
    split
    · exact .raises _ (by simp [h]) (by simp [h])
    · next r hok =>
      obtain ⟨rfl, -, -⟩ := createRedis_ok hok
      exact .loads _ h hok
  · next payload snapshot h => exact .saves _ _ h
  · next h => exact .stays (by simp [h])
  · next h => exact .stays (by simp [h])

/-- The row of a call in progress. -/
def Phase.payload? : Phase → Option Item
  | .built payload | .loaded payload _ | .returned payload => some payload
  | .called | .raised _ => none

/-- The row is the one the call asks for. -/
def Asks (c : NewItem) (r : Item) : Prop := r.market = c.market ∧ r.symbol = c.symbolMeta.symbol

/-- A value that a call has loaded: the row is new in it, it holds what was there at first and rows
that calls returned, and it is still the current value or misses such a row. -/
structure Snapshot (base : RedisData) (s : Race ι) (payload : Item) (snapshot : RedisData) :
    Prop where
  ok : (createRedis snapshot payload).2 = .ok payload
  rows : ∀ r, HasRow snapshot r → HasRow base r ∨ Returned s r
  kept : ∀ r, HasRow base r → HasRow snapshot r
  current : s.data = snapshot ∨ ∃ r, Returned s r ∧ ¬ HasRow snapshot r

structure Sound (base : RedisData) (calls : ι → NewItem) (s : Race ι) : Prop where
  asks : ∀ i r, (s.phase i).payload? = some r → Asks (calls i) r
  rows : ∀ r, HasRow s.data r → HasRow base r ∨ Returned s r
  kept : ∀ r, HasRow base r → HasRow s.data r
  new : ∀ r, Returned s r → ¬ HasRow base r
  loaded : ∀ i payload snapshot, s.phase i = .loaded payload snapshot →
    Snapshot base s payload snapshot

section

variable {base snapshot : RedisData} {calls : ι → NewItem} {s s' : Race ι} {i : ι} {p : Phase}

omit [DecidableEq ι] in
theorem allListed_iff : AllListed s ↔ ∀ r, Returned s r → HasRow s.data r := by
  simp only [AllListed, listRedis, Sorting.mem_sortBy]
  rfl

theorem phase_setPhase {j : ι} {q : Phase} :
    (s.setPhase i p).phase j = q ↔ j = i ∧ p = q ∨ j ≠ i ∧ s.phase j = q := moved_iff

theorem returned_setPhase (hold : ∀ r, s.phase i ≠ .returned r) (hnew : ∀ r, p ≠ .returned r) :
    Returned (s.setPhase i p) r ↔ Returned s r := by
  constructor
  · rintro ⟨j, hj⟩
    rcases phase_setPhase.mp hj with ⟨-, hp⟩ | ⟨-, hj⟩
    · exact absurd hp (hnew r)
    · exact ⟨j, hj⟩
  · rintro ⟨j, hj⟩
    have hji : j ≠ i := by
      rintro rfl
      exact hold r hj
    exact ⟨j, phase_setPhase.mpr (.inr ⟨hji, hj⟩)⟩

/-- A step that saves nothing. -/
theorem Sound.setPhase (h : Sound base calls s) (hold : ∀ r, s.phase i ≠ .returned r)
    (hnew : ∀ r, p ≠ .returned r) (hasks : ∀ r, p.payload? = some r → Asks (calls i) r)
    (hloaded : ∀ payload snapshot, p = .loaded payload snapshot → Snapshot base s payload snapshot) :
    Sound base calls (s.setPhase i p) := by
  have hreturned : ∀ r, Returned (s.setPhase i p) r ↔ Returned s r := fun r =>
    returned_setPhase hold hnew
  refine ⟨?_, ?_, h.kept, ?_, ?_⟩
  · intro j r hj
    rcases phase_setPhase.mp (Eq.refl ((s.setPhase i p).phase j)) with ⟨rfl, hp⟩ | ⟨-, hp⟩
    · exact hasks r (hp ▸ hj)
    · exact h.asks j r (hp ▸ hj)
  · intro r hr
    rw [hreturned]
    exact h.rows r hr
  · intro r hr
    exact h.new r ((hreturned r).mp hr)
  · intro j payload snapshot hj
    have hsnap : Snapshot base s payload snapshot := by
      rcases phase_setPhase.mp hj with ⟨-, hp⟩ | ⟨-, hj⟩
      · exact hloaded payload snapshot hp
      · exact h.loaded j payload snapshot hj
    refine ⟨hsnap.ok, ?_, hsnap.kept, ?_⟩
    · intro r hr
      rw [hreturned]
      exact hsnap.rows r hr
    · rcases hsnap.current with hcurrent | ⟨r, hr, hmiss⟩
      · exact .inl hcurrent
      · exact .inr ⟨r, (hreturned r).mpr hr, hmiss⟩

/-- The state after a save. -/
def Race.save (s : Race ι) (i : ι) (payload : Item) (snapshot : RedisData) : Race ι :=
  { s.setPhase i (.returned payload) with data := (createRedis snapshot payload).1 }

theorem phase_save {j : ι} {q : Phase} : (s.save i payload snapshot).phase j = q ↔
    j = i ∧ .returned payload = q ∨ j ≠ i ∧ s.phase j = q := moved_iff

theorem returned_save (h : s.phase i = .loaded payload snapshot) :
    Returned (s.save i payload snapshot) r ↔ Returned s r ∨ r = payload := by
  constructor
  · rintro ⟨j, hj⟩
    rcases phase_save.mp hj with ⟨-, hp⟩ | ⟨-, hj⟩
    · cases hp
      exact .inr rfl
    · exact .inl ⟨j, hj⟩
  · rintro (⟨j, hj⟩ | rfl)
    · have hji : j ≠ i := by
        rintro rfl
        simp [h] at hj
      exact ⟨j, phase_save.mpr (.inr ⟨hji, hj⟩)⟩
    · exact ⟨i, phase_save.mpr (.inl ⟨rfl, rfl⟩)⟩

omit [DecidableEq ι] in
/-- No other call asks for the row that a call is about to save. -/
theorem Sound.notReturned (h : Sound base calls s)
    (hcalls : Function.Injective fun i => ((calls i).market, (calls i).symbolMeta.symbol))
    (hi : s.phase i = .loaded payload snapshot) : ¬ Returned s payload := by
  rintro ⟨j, hj⟩
  obtain ⟨hmi, hsi⟩ := h.asks i payload (by rw [hi]; rfl)
  obtain ⟨hmj, hsj⟩ := h.asks j payload (by rw [hj]; rfl)
  have hij : i = j := hcalls (by rw [Prod.mk.injEq, ← hmi, ← hmj, ← hsi, ← hsj]; exact ⟨rfl, rfl⟩)
  rw [← hij, hi] at hj
  cases hj

omit [DecidableEq ι] in
theorem Snapshot.notBase (h : Snapshot base s payload snapshot) : ¬ HasRow base payload := by
  intro hbase
  exact (createRedis_ok h.ok).2.1 payload (h.kept payload hbase) rfl

theorem Sound.save (h : Sound base calls s)
    (hcalls : Function.Injective fun i => ((calls i).market, (calls i).symbolMeta.symbol))
    (hi : s.phase i = .loaded payload snapshot) : Sound base calls (s.save i payload snapshot) := by
  have hsnap := h.loaded i payload snapshot hi
  have hrow : ∀ r, HasRow (s.save i payload snapshot).data r ↔ HasRow snapshot r ∨ r = payload :=
    fun r => hasRow_createRedis hsnap.ok
  refine ⟨?_, ?_, ?_, ?_, ?_⟩
  · intro j r hj
    rcases phase_save.mp (Eq.refl ((s.save i payload snapshot).phase j)) with ⟨rfl, hp⟩ | ⟨-, hp⟩
    · apply h.asks j r
      rw [← hp] at hj
      rw [hi]
      exact hj
    · exact h.asks j r (hp ▸ hj)
  · intro r hr
    rw [returned_save hi, ← or_assoc]
    exact ((hrow r).mp hr).imp_left (hsnap.rows r)
  · intro r hr
    exact (hrow r).mpr (.inl (hsnap.kept r hr))
  · intro r hr
    rcases (returned_save hi).mp hr with hr | rfl
    · exact h.new r hr
    · exact hsnap.notBase
  · intro j payload' snapshot' hj
    have hj : s.phase j = .loaded payload' snapshot' := by
      rcases phase_save.mp hj with ⟨-, hp⟩ | ⟨-, hj⟩
      · cases hp
      · exact hj
    have hsnap' := h.loaded j payload' snapshot' hj
    refine ⟨hsnap'.ok, ?_, hsnap'.kept, .inr ⟨payload, (returned_save hi).mpr (.inr rfl), ?_⟩⟩
    · intro r hr
      rw [returned_save hi, ← or_assoc]
      exact .inl (hsnap'.rows r hr)
    · intro hmem
      rcases hsnap'.rows payload hmem with hbase | hreturned
      · exact hsnap.notBase hbase
      · exact h.notReturned hcalls hi hreturned

theorem Sound.step (h : Sound base calls s)
    (hcalls : Function.Injective fun i => ((calls i).market, (calls i).symbolMeta.symbol))
    (hs : Steps calls s i s') : Sound base calls s' := by
  cases hs with
  | stays => exact h
  | raises e hold => exact h.setPhase hold (by simp) (by simp [Phase.payload?]) (by simp)
  | builds payload hphase hmarket hsymbol =>
    refine h.setPhase (by simp [hphase]) (by simp) ?_ (by simp)
    rintro r hr
    cases hr
    exact ⟨hmarket, hsymbol⟩
  | loads payload hphase hok =>
    refine h.setPhase (by simp [hphase]) (by simp) ?_ ?_
    · rintro r hr
      cases hr
      exact h.asks i payload (by rw [hphase]; rfl)
    · rintro payload' snapshot heq
      cases heq
      exact ⟨hok, h.rows, h.kept, .inl rfl⟩
  | saves payload snapshot hphase => exact h.save hcalls hphase

/-- A step saves what its call loaded, or it changes neither the value nor the returned rows. -/
theorem Steps.saves_or_quiet (hs : Steps calls s i s') :
    (∃ payload snapshot, s.phase i = .loaded payload snapshot ∧ s' = s.save i payload snapshot) ∨
    (∀ payload snapshot, s.phase i ≠ .loaded payload snapshot) ∧ s'.data = s.data ∧
      ∀ r, Returned s' r ↔ Returned s r := by
  cases hs with
  | stays h => exact .inr ⟨h, rfl, fun r => Iff.rfl⟩
  | raises e hold h => exact .inr ⟨h, rfl, fun r => returned_setPhase hold (by simp)⟩
  | builds payload hphase =>
    exact .inr ⟨by simp [hphase], rfl, fun r => returned_setPhase (by simp [hphase]) (by simp)⟩
  | loads payload hphase =>
    exact .inr ⟨by simp [hphase], rfl, fun r => returned_setPhase (by simp [hphase]) (by simp)⟩
  | saves payload snapshot hphase => exact .inl ⟨payload, snapshot, hphase, rfl⟩

/-- A row that a call has returned is not there. -/
def Lost (s : Race ι) (data : RedisData) : Prop := ∃ r, Returned s r ∧ ¬ HasRow data r

theorem Sound.save_lost (h : Sound base calls s)
    (hcalls : Function.Injective fun i => ((calls i).market, (calls i).symbolMeta.symbol))
    (hi : s.phase i = .loaded payload snapshot) (hlost : Lost s snapshot) :
    Lost (s.save i payload snapshot) (s.save i payload snapshot).data := by
  obtain ⟨r, hr, hmiss⟩ := hlost
  refine ⟨r, (returned_save hi).mpr (.inl hr), ?_⟩
  intro hmem
  rcases (hasRow_createRedis (h.loaded i payload snapshot hi).ok).mp hmem with hmem | rfl
  · exact hmiss hmem
  · exact h.notReturned hcalls hi hr

theorem Sound.step_lost (h : Sound base calls s)
    (hcalls : Function.Injective fun i => ((calls i).market, (calls i).symbolMeta.symbol))
    (hs : Steps calls s i s') (hlost : Lost s s.data) : Lost s' s'.data := by
  rcases hs.saves_or_quiet with ⟨payload, snapshot, hphase, rfl⟩ | ⟨-, hdata, hreturned⟩
  · apply h.save_lost hcalls hphase
    rcases (h.loaded i payload snapshot hphase).current with hcurrent | hsnapshot
    · exact hcurrent ▸ hlost
    · exact hsnapshot
  · obtain ⟨r, hr, hmiss⟩ := hlost
    exact ⟨r, (hreturned r).mpr hr, hdata ▸ hmiss⟩

/-- A save over another value than the loaded one loses a row. -/
theorem Sound.loses (h : Sound base calls s)
    (hcalls : Function.Injective fun i => ((calls i).market, (calls i).symbolMeta.symbol))
    (hs : Steps calls s i s') (hstale : ¬ SavesCurrent s i) : Lost s' s'.data := by
  simp only [SavesCurrent, not_forall] at hstale
  obtain ⟨payload, snapshot, hphase, hne⟩ := hstale
  have hlost : Lost s snapshot :=
    (h.loaded i payload snapshot hphase).current.resolve_left hne
  rcases hs.saves_or_quiet with ⟨payload', snapshot', hphase', rfl⟩ | ⟨hquiet, -⟩
  · rw [hphase] at hphase'
    cases hphase'
    exact h.save_lost hcalls hphase hlost
  · exact absurd hphase (hquiet payload snapshot)

theorem AllListed.step (h : Sound base calls s) (hall : AllListed s) (hs : Steps calls s i s')
    (hcurrent : SavesCurrent s i) : AllListed s' := by
  rw [allListed_iff] at hall ⊢
  intro r hr
  rcases hs.saves_or_quiet with ⟨payload, snapshot, hphase, rfl⟩ | ⟨-, hdata, hreturned⟩
  · have hrow : HasRow (s.save i payload snapshot).data r ↔ HasRow snapshot r ∨ r = payload :=
      hasRow_createRedis (h.loaded i payload snapshot hphase).ok
    rw [hrow]
    refine ((returned_save hphase).mp hr).imp_left ?_
    intro hr
    exact hcurrent payload snapshot hphase ▸ hall r hr
  · rw [hdata]
    exact hall r ((hreturned r).mp hr)

/-- Sound, and every returned row is listed. -/
def Complete (base : RedisData) (calls : ι → NewItem) (s : Race ι) : Prop :=
  Sound base calls s ∧ AllListed s

/-- Sound, and a returned row is lost. -/
def Lossy (base : RedisData) (calls : ι → NewItem) (s : Race ι) : Prop :=
  Sound base calls s ∧ Lost s s.data

omit [DecidableEq ι] in
theorem complete_start : Complete base calls (.start base) := by
  have hnone : ∀ r, ¬ Returned (Race.start base : Race ι) r := by
    rintro r ⟨i, hi⟩
    cases hi
  constructor
  · refine ⟨?_, fun r hr => .inl hr, fun r hr => hr, fun r hr => absurd hr (hnone r), ?_⟩
    · rintro i r hr
      cases hr
    · rintro i payload snapshot hi
      cases hi
  · exact fun r hr => absurd hr (hnone r)

/-- After any interleaving of the loads and saves of creates with different symbols, every row
whose call returned is listed exactly when each call saved over the very value it had loaded. -/
theorem allListed_iff_savesCurrent {resolver : Option (String → Option SymbolMeta)}
    {userId : String} {schedule : List ι}
    (hcalls : Function.Injective fun i => ((calls i).market, (calls i).symbolMeta.symbol)) :
    AllListed (final (Race.step resolver userId calls) (.start data) schedule) ↔
      Along (Race.step resolver userId calls) SavesCurrent (.start data) schedule := by
  have hstep : ∀ s i, Sound data calls s →
      Sound data calls (s.step resolver userId calls i).1 :=
    fun s i h => h.step hcalls steps_step
  refine good_iff_along (I := Complete data calls) (B := Lossy data calls) (F := fun _ _ => True)
    ?_ ?_ ?_ complete_start along_true ?_ ?_
  · exact fun s i h _ hcurrent => ⟨hstep s i h.1, h.2.step h.1 steps_step hcurrent⟩
  · exact fun s i h _ hstale => ⟨hstep s i h.1, h.1.loses hcalls steps_step hstale⟩
  · exact fun s i _ h => ⟨hstep s i h.1, h.1.step_lost hcalls steps_step h.2⟩
  · exact fun hcomplete => hcomplete.2
  · rintro ⟨-, r, hr, hmiss⟩ hall
    exact hmiss (allListed_iff.mp hall r hr)

end

/-! Two creates of one user. -/

def twoCreates : Bool → NewItem
  | false => nthItem "futures" 0
  | true => nthItem "futures" 1

/-- Both calls load the empty value; the one that saves last leaves its own row only. -/
theorem bothLoad_loses : ¬ AllListed
    (final (Race.step none "user" twoCreates) (.start .empty)
      [false, true, false, true, false, true]) := by
  intro h
  have hreturned : Returned (final (Race.step none "user" twoCreates) (.start .empty)
      [false, true, false, true, false, true]) ((twoCreates false).payload "user" []) :=
    ⟨false, rfl⟩
  exact absurd (h _ hreturned) (by decide)

/-- One call after the other. -/
theorem oneByOne_listed : AllListed
    (final (Race.step none "user" twoCreates) (.start .empty)
      [false, false, false, true, true, true]) := by
  refine (allListed_iff_savesCurrent ?_).mpr ?_
  · decide
  · decide

end Pyharmonics.Watchlist
