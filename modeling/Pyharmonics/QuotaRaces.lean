import Pyharmonics.QuotaLedger

/-! Requests of one day whose ledger transactions interleave. -/
namespace Pyharmonics.Quota

open Machines

variable {ρ : Type*} [DecidableEq ρ]

/-- What a request reserves. -/
structure Request where
  user : String
  analysisId : Uuid
  units : ℤ

/-- How far a request has got with its entry. -/
inductive Phase
  | waiting | holding (entry : Uuid) | settled
  deriving DecidableEq

/-- The next transaction of a request. -/
inductive Action
  | reserve (entryId : Uuid)
  | consume (input output cost : Option ℤ)
  | release

structure System (ρ : Type*) where
  db : Tables
  phase : ρ → Phase

/-- One transaction of a request, which settles only what it reserved, and once. -/
def System.step (requests : ρ → Request) (day : ℤ) (s : System ρ) :
    ρ × Action → System ρ × Unit
  | (r, a) =>
    let next (db : Tables) (p : Phase) : System ρ × Unit :=
      (⟨db, Function.update s.phase r p⟩, ())
    match s.phase r, a with
    | .waiting, .reserve entryId =>
      match s.db.reserveQuota day entryId (requests r).user (requests r).analysisId
          (requests r).units with
      | .ok (db, true, _) => next db (.holding entryId)
      | .ok (db, false, _) => next db .settled
      | .error _ => next s.db .settled
    | .holding entry, .consume input output cost =>
      next (s.db.consumeQuota entry input output cost) .settled
    | .holding entry, .release => next (s.db.releaseQuota entry) .settled
    | _, _ => (s, ())

variable {requests : ρ → Request} {s t : System ρ} {r q : ρ} {a : Action} {db : Tables}
  {e : LedgerEntry} {user : String} {day quota : ℤ} {id : Uuid} {xs : List (ρ × Action)}

/-- What the entries of a user on a day charge. -/
def Tables.charged (db : Tables) (user : String) (day : ℤ) : ℤ :=
  (db.ledger.map fun e => if Tables.Mine user day e then e.unitsConsumed else 0).sum

/-- What a reserved entry may still charge. -/
def LedgerEntry.pending (e : LedgerEntry) : ℤ := if e.status = .reserved then e.unitsReserved else 0

/-- What the entries of a user on a day charge or may still charge. -/
def Tables.committed (db : Tables) (user : String) (day : ℤ) : ℤ :=
  (db.ledger.map fun e =>
    if Tables.Mine user day e then e.unitsConsumed + e.pending else 0).sum

/-- A reservation that passes the gate leaves room for everything already reserved. -/
def Fits (requests : ρ → Request) (user : String) (day quota : ℤ) (s : System ρ) :
    ρ × Action → Prop
  | (r, .reserve _) => s.phase r = .waiting → (requests r).user = user →
      s.db.usedToday user day + (requests r).units ≤ quota →
        s.db.committed user day + (requests r).units ≤ quota
  | _ => True

instance : ∀ (s : System ρ) (x : ρ × Action), Decidable (Fits requests user day quota s x)
  | s, (r, .reserve _) => inferInstanceAs (Decidable (s.phase r = .waiting →
      (requests r).user = user → s.db.usedToday user day + (requests r).units ≤ quota →
        s.db.committed user day + (requests r).units ≤ quota))
  | _, (_, .consume _ _ _) => isTrue trivial
  | _, (_, .release) => isTrue trivial

/-- The entries in flight are reserved, each for one request, and what is committed fits. -/
structure WithinQuota (user : String) (day quota : ℤ) (s : System ρ) : Prop where
  held : ∀ r id, s.phase r = .holding id →
    ∃ e ∈ s.db.ledger, e.id = id ∧ e.status = .reserved ∧ e.unitsConsumed = 0
  alone : ∀ r q id, s.phase r = .holding id → s.phase q = .holding id → r = q
  pending : ∀ e ∈ s.db.ledger, Tables.Mine user day e → 0 ≤ e.pending
  limit : ∀ limit, s.db.dailyQuota? user = some limit → limit = quota
  committed : s.db.committed user day ≤ quota

omit [DecidableEq ρ] in
theorem WithinQuota.charged_le (h : WithinQuota user day quota s) :
    s.db.charged user day ≤ quota := by
  refine le_trans ?_ h.committed
  apply List.sum_le_sum
  intro e he
  by_cases hm : Tables.Mine user day e
  · have := h.pending e he hm
    simp only [if_pos hm]
    omega
  · simp [hm]

/-- A request that has settled holds nothing. -/
theorem holding_settled (h : Function.update s.phase r .settled q = .holding id) :
    q ≠ r ∧ s.phase q = .holding id := by
  rcases moved_iff.mp h with ⟨-, hp⟩ | hq
  · cases hp
  · exact hq

/-- The entries are as they were when a request only moves on. -/
theorem WithinQuota.settle (h : WithinQuota user day quota s) :
    WithinQuota user day quota ⟨s.db, Function.update s.phase r .settled⟩ where
  held := by
    intro q id hq
    exact h.held q id (holding_settled hq).2
  alone := by
    intro q q' id hq hq'
    exact h.alone q q' id (holding_settled hq).2 (holding_settled hq').2
  pending := h.pending
  limit := h.limit
  committed := h.committed

/-- Settling the entry of a request commits no more than before. -/
theorem WithinQuota.settleEntry (h : WithinQuota user day quota s) (hr : s.phase r = .holding id)
    {f : LedgerEntry → LedgerEntry} (hid : ∀ e, (f e).id = e.id)
    (hmine : ∀ e, Tables.Mine user day (f e) ↔ Tables.Mine user day e)
    (hpending : ∀ e, (f e).pending = 0)
    (hle : ∀ e, e.status = .reserved → e.unitsConsumed = 0 → Tables.Mine user day e →
      0 ≤ e.pending → (f e).unitsConsumed ≤ e.pending) :
    WithinQuota user day quota
      ⟨s.db.updateEntry id f hid, Function.update s.phase r .settled⟩ := by
  obtain ⟨e, he, rfl, hs, hc⟩ := h.held r id hr
  constructor
  · intro q id hq
    obtain ⟨hne, hq⟩ := holding_settled hq
    obtain ⟨e', he', hid', hs', hc'⟩ := h.held q id hq
    have hother : e'.id ≠ e.id := by
      intro heq
      apply hne
      exact h.alone q r e.id (by rw [hq, ← hid', heq]) hr
    exact ⟨e', Rows.mem_update_of_ne he' hother, hid', hs', hc'⟩
  · intro q q' id hq hq'
    exact h.alone q q' id (holding_settled hq).2 (holding_settled hq').2
  · intro e' he' hm
    rcases Rows.mem_update he' with ⟨he', -⟩ | ⟨e'', -, -, rfl⟩
    · exact h.pending e' he' hm
    · rw [hpending]
  · exact h.limit
  · have hsum : (s.db.updateEntry e.id f hid).committed user day = s.db.committed user day +
        ((if Tables.Mine user day (f e) then (f e).unitsConsumed + (f e).pending else 0) -
          if Tables.Mine user day e then e.unitsConsumed + e.pending else 0) :=
      Rows.sum_update s.db.ledger_ids he
    have hcommitted := h.committed
    by_cases hm : Tables.Mine user day e
    · have := hle e hs hc hm (h.pending e he hm)
      rw [if_pos ((hmine e).mpr hm), if_pos hm, hpending, hc] at hsum
      simp only
      omega
    · rw [if_neg fun hm' => hm ((hmine e).mp hm'), if_neg hm] at hsum
      simp only
      omega

/-- A granted reservation commits its units. -/
theorem Granted.committed {entryId analysisId : Uuid} {units : ℤ} {owner : String} {db' : Tables}
    (h : Granted db day entryId owner analysisId units db') :
    db'.committed user day = db.committed user day + if owner = user then units else 0 := by
  rw [Tables.committed, Tables.committed, h.ledger, List.map_append, List.sum_append]
  congr 1
  by_cases ho : owner = user
  · simp [Tables.Mine, Tables.reservation, LedgerEntry.pending, ho]
  · simp [Tables.Mine, Tables.reservation, ho]

theorem WithinQuota.grant (h : WithinQuota user day quota s) {entryId : Uuid} {db' : Tables}
    (hg : Granted s.db day entryId (requests r).user (requests r).analysisId (requests r).units db')
    (hw : s.phase r = .waiting) (hfits : Fits requests user day quota s (r, .reserve entryId)) :
    WithinQuota user day quota ⟨db', Function.update s.phase r (.holding entryId)⟩ := by
  have hmem : ∀ e ∈ s.db.ledger, e ∈ db'.ledger := by
    intro e he
    rw [hg.ledger]
    exact List.mem_append_left _ he
  have hfresh : ∀ q, s.phase q ≠ .holding entryId := by
    intro q hq
    obtain ⟨e, he, rfl, -⟩ := h.held q entryId hq
    exact hg.fresh (List.mem_map_of_mem he)
  constructor
  · intro q id hq
    rcases moved_iff.mp hq with ⟨rfl, hid⟩ | ⟨-, hq⟩
    · cases hid
      refine ⟨Tables.reservation day entryId (requests q).user (requests q).analysisId
        (requests q).units, ?_, rfl, rfl, rfl⟩
      rw [hg.ledger]
      exact List.mem_append_right _ List.mem_cons_self
    · obtain ⟨e, he, hid, hs, hc⟩ := h.held q id hq
      exact ⟨e, hmem e he, hid, hs, hc⟩
  · intro q q' id hq hq'
    rcases moved_iff.mp hq with ⟨hr, hid⟩ | ⟨-, hq⟩
    · rcases moved_iff.mp hq' with ⟨hr', -⟩ | ⟨-, hq'⟩
      · rw [hr, hr']
      · cases hid
        exact absurd hq' (hfresh q')
    · rcases moved_iff.mp hq' with ⟨-, hid⟩ | ⟨-, hq'⟩
      · cases hid
        exact absurd hq (hfresh q)
      · exact h.alone q q' id hq hq'
  · intro e he hm
    rw [hg.ledger] at he
    rcases List.mem_append.mp he with he | he
    · exact h.pending e he hm
    · obtain rfl := List.mem_singleton.mp he
      exact hg.units_pos.le
  · intro limit hl
    apply h.limit
    rw [← hl, Tables.dailyQuota?, Tables.dailyQuota?, hg.profiles]
  · rw [hg.committed]
    split
    · next ho =>
      obtain ⟨limit, hlimit, hle⟩ := hg.quota
      rw [ho] at hlimit hle
      rw [h.limit limit hlimit] at hle
      exact hfits hw ho hle
    · simpa using h.committed

/-- One transaction of any request keeps within the quota when a granted reservation fits. -/
theorem withinQuota_step (h : WithinQuota user day quota s) {x : ρ × Action}
    (hfits : Fits requests user day quota s x) :
    WithinQuota user day quota (System.step requests day s x).1 := by
  obtain ⟨r, a⟩ := x
  unfold System.step
  dsimp only
  cases hp : s.phase r with
  | waiting =>
    cases a with
    | reserve entryId =>
      simp only
      split
      · next db' remaining hr =>
        rcases reserveQuota_cases hr with ⟨-, hg⟩ | ⟨hfalse, -⟩
        · exact h.grant hg hp hfits
        · simp at hfalse
      · next db' remaining hr =>
        rcases reserveQuota_cases hr with ⟨htrue, -⟩ | ⟨-, rfl⟩
        · simp at htrue
        · exact h.settle
      · exact h.settle
    | consume input output cost => exact h
    | release => exact h
  | holding id =>
    cases a with
    | reserve entryId => exact h
    | consume input output cost =>
      apply h.settleEntry hp (f := Tables.consumed input output cost)
      · intro e
        exact Iff.rfl
      · intro e
        rfl
      · intro e hs _ _ _
        simp [Tables.consumed, LedgerEntry.pending, hs]
    | release =>
      apply h.settleEntry hp (f := Tables.released)
      · intro e
        exact Iff.rfl
      · intro e
        rfl
      · intro e _ _ _ hpending
        exact hpending
  | settled => exact h

/-- The day before any request has reserved. -/
def System.opening (ρ : Type*) (db : Tables) : System ρ := ⟨db, fun _ => .waiting⟩

omit [DecidableEq ρ] in
theorem withinQuota_opening (hdb : ∀ e ∈ db.ledger, ¬ Tables.Mine user day e)
    (hlimit : ∀ limit, db.dailyQuota? user = some limit → limit = quota) (hquota : 0 ≤ quota) :
    WithinQuota user day quota (System.opening ρ db) := by
  constructor
  · intro r id hr
    simp [System.opening] at hr
  · intro r q id hr
    simp [System.opening] at hr
  · intro e he hm
    exact absurd hm (hdb e he)
  · exact hlimit
  · refine le_of_eq_of_le ?_ hquota
    apply List.sum_eq_zero
    intro x hx
    obtain ⟨e, he, rfl⟩ := List.mem_map.mp hx
    exact if_neg (hdb e he)

/-- However the requests of a day interleave, the user is charged within the quota as long as
every granted reservation leaves room for the units already charged and still reserved. -/
theorem charged_within_quota (hdb : ∀ e ∈ db.ledger, ¬ Tables.Mine user day e)
    (hlimit : ∀ limit, db.dailyQuota? user = some limit → limit = quota) (hquota : 0 ≤ quota)
    (hfits : Along (System.step requests day) (Fits requests user day quota)
      (System.opening ρ db) xs) :
    ∀ ys, ys <+: xs →
      (final (System.step requests day) (System.opening ρ db) ys).db.charged user day ≤ quota := by
  intro ys hys
  obtain ⟨zs, rfl⟩ := hys
  have hopening : WithinQuota user day quota (System.opening ρ db) :=
    withinQuota_opening hdb hlimit hquota
  have hwithin := final_of_along (I := WithinQuota user day quota)
    (fun _ _ h => withinQuota_step h) hopening (along_append.mp hfits).1
  exact hwithin.charged_le

/-! Two requests of a user with one unit left. -/

def oneUnit (r : Bool) : Request := { user := "trader", analysisId := if r then 1 else 2, units := 1 }

/-- A day of a user with a quota of one. -/
def oneUnitDay : Tables := .opening [{ id := "trader", active := true, dailyQuota := 1 }] [1, 2]

/-- Both reserve before either is charged. -/
def bothReserve : List (Bool × Action) :=
  [(false, .reserve 7), (true, .reserve 8), (false, .consume none none none),
    (true, .consume none none none)]

/-- One request is charged before the other asks. -/
def oneAfterTheOther : List (Bool × Action) :=
  [(false, .reserve 7), (false, .consume none none none), (true, .reserve 8)]

/-- The gate lets both through, and both are charged. -/
theorem bothReserve_overcharges : ¬ ∀ ys, ys <+: bothReserve →
    (final (System.step oneUnit 0) (System.opening Bool oneUnitDay) ys).db.charged
      "trader" 0 ≤ 1 := by
  intro h
  have htwo : (final (System.step oneUnit 0) (System.opening Bool oneUnitDay)
      bothReserve).db.charged "trader" 0 = 2 := by
    decide +kernel
  have hle := h bothReserve (List.prefix_refl _)
  omega

theorem oneAfterTheOther_charges :
    (final (System.step oneUnit 0) (System.opening Bool oneUnitDay) oneAfterTheOther).db.charged
      "trader" 0 ≤ 1 := by
  refine charged_within_quota ?_ ?_ ?_ ?_ oneAfterTheOther (List.prefix_refl _)
  · simp [oneUnitDay, Tables.opening]
  · simp [oneUnitDay, Tables.opening, Tables.dailyQuota?]
  · norm_num
  · decide +kernel

end Pyharmonics.Quota
