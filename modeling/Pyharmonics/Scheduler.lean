import Pyharmonics.Plateau

/-! When the loop wakes next. A time is a count of microseconds of the local wall clock, since
midnight of Monday, the first day of year 1. -/
namespace Pyharmonics.Scheduler

open Loop Sorting

/-- `timedelta(hours=1)` -/
def hour : ℤ := 3600000000

/-- `timedelta(minutes=1)` -/
def minute : ℤ := 60000000

/-- `now.hour` -/
def hourOf (t : ℤ) : ℤ := t / hour % 24

/-- `now.weekday()` -/
def weekday (t : ℤ) : ℤ := t / (24 * hour) % 7

/-- `replace(minute=0, second=0, microsecond=0)` -/
def snap (t : ℤ) : ℤ := t / hour * hour

structure SchedulerConfig where
  maxIntervalMinutes : ℤ := 60
  plateauBackoffGens : ℤ := 5
  quietHoursStart : ℤ := 23
  quietHoursEnd : ℤ := 7
  weekendSkip : Bool := false

/-- An hour of the day in quiet hours, which may wrap over midnight. -/
def QuietHour (cfg : SchedulerConfig) (h : ℤ) : Prop :=
  if cfg.quietHoursStart < cfg.quietHoursEnd then
    cfg.quietHoursStart ≤ h ∧ h < cfg.quietHoursEnd
  else cfg.quietHoursStart ≤ h ∨ h < cfg.quietHoursEnd

instance {cfg : SchedulerConfig} : DecidablePred (QuietHour cfg) := fun h => by
  unfold QuietHour
  infer_instance

/-- `_in_quiet_hours` -/
def InQuietHours (now : ℤ) (cfg : SchedulerConfig) : Prop := QuietHour cfg (hourOf now)

/-- `_is_weekend` -/
def IsWeekend (now : ℤ) (cfg : SchedulerConfig) : Prop := cfg.weekendSkip ∧ 5 ≤ weekday now

/-- Neither in quiet hours nor on a skipped weekend. -/
def Active (cfg : SchedulerConfig) (t : ℤ) : Prop := ¬ InQuietHours t cfg ∧ ¬ IsWeekend t cfg

instance {cfg : SchedulerConfig} : DecidablePred (Active cfg) := fun _ =>
  inferInstanceAs (Decidable (¬ QuietHour cfg _ ∧ ¬ (_ ∧ _)))

/-- The lookahead of `_next_active_window`, hour by hour. -/
def searchActive (cfg : SchedulerConfig) : ℕ → ℤ → Option ℤ
  | 0, _ => none
  | n + 1, candidate =>
    if Active cfg (candidate + hour) then some (snap (candidate + hour))
    else searchActive cfg n (candidate + hour)

/-- `_next_active_window` -/
def nextActiveWindow (now : ℤ) (cfg : SchedulerConfig) : ℤ :=
  (searchActive cfg 48 now).getD (now + 24 * hour)

/-- One line of the history into the best fitness of each generation and when it was reached. -/
def noteTime (s : Dict ℤ ℚ × Dict ℤ ℚ) (rec : HistoryRecord) : Dict ℤ ℚ × Dict ℤ ℚ :=
  if rec.decision = .accepted ∧ ∀ b ∈ s.1.get? rec.gen, b < rec.fit then
    (s.1.set rec.gen rec.fit, s.2.set rec.gen rec.ts)
  else s

/-- `_last_improvement_age_hours`, with the local time of a timestamp. -/
def lastImprovementAgeHours (fromtimestamp : ℚ → ℤ) (history : List HistoryRecord)
    (now : ℤ) : Option ℚ :=
  let (best, ts) := history.foldl noteTime (.empty, .empty)
  match sortBy id best.keys with
  | [] => none
  | g :: gens =>
    let growth := gens.foldl (fun s g =>
      if s.1 < best.getD g 0 then (best.getD g 0, ts.getD g 0) else s)
      (best.getD g 0, ts.getD g 0)
    some ((now - fromtimestamp growth.2 : ℤ) / hour)

structure WakeDecision where
  wakeAt : ℤ
  reason : String
  plateauCount : ℕ
  lastImprovementAgeHours : Option ℚ

/-- `next_wake_at`; a missing history file reads as an empty one. -/
def nextWakeAt (fromtimestamp : ℚ → ℤ) (now : ℤ) (cfg : SchedulerConfig)
    (history : List HistoryRecord) (pendingOperatorAction : Bool) : WakeDecision :=
  let plateau := plateauCountFromHistory history
  if ¬ Active cfg now then
    ⟨nextActiveWindow now cfg, "quiet hours/weekend (plateau=" ++ toString plateau ++ ")",
      plateau, none⟩
  else if pendingOperatorAction then
    ⟨now + 5 * minute, "operator action pending in NEXT_QUEUE.md", plateau, none⟩
  else if cfg.plateauBackoffGens ≤ plateau then
    ⟨nextActiveWindow now cfg, "plateau reached " ++ toString plateau ++ " gens ≥ " ++
      toString cfg.plateauBackoffGens ++ " threshold — anti-plateau back-off", plateau, none⟩
  else
    let lastAge := lastImprovementAgeHours fromtimestamp history now
    if ∃ age ∈ lastAge, age < 24 then
      ⟨now + 15 * minute, "last improvement < 24h", plateau, lastAge⟩
    else if ∃ age ∈ lastAge, age < 24 * 7 then
      ⟨now + 30 * minute, "last improvement < 7d", plateau, lastAge⟩
    else
      ⟨now + cfg.maxIntervalMinutes * minute, "no recent improvement (max " ++
        toString cfg.maxIntervalMinutes ++ "m)", plateau, lastAge⟩

variable {cfg : SchedulerConfig} {now t w : ℤ} {n k : ℕ}

def FullHour (t : ℤ) : Prop := hour ∣ t

theorem hour_pos : 0 < hour := by decide

theorem snap_fullHour : FullHour (snap t) := Dvd.intro_left _ rfl

theorem snap_add (k : ℕ) : snap (t + k * hour) = snap t + k * hour := by
  rw [snap, snap, Int.add_mul_ediv_right _ _ hour_pos.ne', add_mul]

theorem lt_snap_add (k : ℕ) (hk : 1 ≤ k) : t < snap (t + k * hour) := by
  rw [snap_add]
  have hk : (1 : ℤ) ≤ k := by exact_mod_cast hk
  calc t < snap t + hour := Int.lt_ediv_add_one_mul_self t hour_pos |>.trans_eq (by
        rw [snap, add_mul, one_mul])
    _ ≤ snap t + k * hour := by nlinarith [hour_pos]

/-- Activity is decided by the hour. -/
theorem active_congr {t t' : ℤ} (h : t / hour = t' / hour) : Active cfg t ↔ Active cfg t' := by
  have hday : ∀ t : ℤ, t / (24 * hour) = t / hour / 24 := fun t => by
    rw [mul_comm, Int.ediv_ediv_of_nonneg hour_pos.le]
  simp only [Active, InQuietHours, IsWeekend, hourOf, weekday, hday, h]

theorem active_snap : Active cfg (snap t) ↔ Active cfg t :=
  active_congr (Int.mul_ediv_cancel _ hour_pos.ne')

theorem add_hour_add (k : ℕ) : t + hour + k * hour = t + (k + 1 : ℕ) * hour := by
  push_cast
  ring

/-- The lookahead finds the first active hour. -/
theorem searchActive_some (h : searchActive cfg n t = some w) :
    ∃ k : ℕ, 1 ≤ k ∧ k ≤ n ∧ Active cfg (t + k * hour) ∧ w = snap (t + k * hour) ∧
      ∀ j : ℕ, 1 ≤ j → j < k → ¬ Active cfg (t + j * hour) := by
  induction n generalizing t with
  | zero => cases h
  | succ n ih =>
    rw [searchActive] at h
    split_ifs at h with hactive
    · refine ⟨1, le_rfl, by omega, ?_, ?_, fun j h₁ h₂ => by omega⟩
      · rwa [Nat.cast_one, one_mul]
      · rw [Nat.cast_one, one_mul]
        exact (Option.some.inj h).symm
    · obtain ⟨k, hk, hkn, hkactive, hw, hfirst⟩ := ih h
      rw [add_hour_add] at hkactive hw
      refine ⟨k + 1, by omega, by omega, hkactive, hw, fun j h₁ h₂ => ?_⟩
      obtain ⟨i, rfl⟩ : ∃ i, j = i + 1 := ⟨j - 1, by omega⟩
      cases i with
      | zero => simpa using hactive
      | succ i =>
        rw [← add_hour_add]
        exact hfirst (i + 1) (by omega) (by omega)

theorem searchActive_none :
    searchActive cfg n t = none ↔ ∀ k : ℕ, 1 ≤ k → k ≤ n → ¬ Active cfg (t + k * hour) := by
  induction n generalizing t with
  | zero => exact ⟨fun _ k h₁ h₂ => by omega, fun _ => rfl⟩
  | succ n ih =>
    rw [searchActive]
    constructor
    · intro h k hk hkn
      split_ifs at h with hactive
      obtain ⟨i, rfl⟩ : ∃ i, k = i + 1 := ⟨k - 1, by omega⟩
      cases i with
      | zero => simpa using hactive
      | succ i =>
        rw [← add_hour_add]
        exact ih.mp h (i + 1) (by omega) (by omega)
    · intro h
      have hfirst : ¬ Active cfg (t + hour) := by simpa using h 1 le_rfl (by omega)
      rw [if_neg hfirst]
      refine ih.mpr fun k hk hkn => ?_
      rw [add_hour_add]
      exact h (k + 1) (by omega) (by omega)

/-- The first full hour after this time that is active. -/
structure IsNextActive (cfg : SchedulerConfig) (now t : ℤ) : Prop where
  later : now < t
  full : FullHour t
  active : Active cfg t
  first : ∀ t', now < t' → FullHour t' → Active cfg t' → t ≤ t'

/-- A later full hour is a number of hours behind the hour of this time. -/
theorem FullHour.exists_hours (h : FullHour t) (hlt : now < t) :
    ∃ k : ℕ, 1 ≤ k ∧ t = snap (now + k * hour) := by
  obtain ⟨a, rfl⟩ := h
  have hlt : now / hour < a := Int.ediv_lt_of_lt_mul hour_pos (by rwa [mul_comm])
  refine ⟨(a - now / hour).toNat, by omega, ?_⟩
  rw [snap_add, snap, Int.toNat_of_nonneg (by omega)]
  ring

/-- Some hour of the lookahead is active. -/
def InReach (cfg : SchedulerConfig) (now : ℤ) : Prop :=
  ∃ k : ℕ, 1 ≤ k ∧ k ≤ 48 ∧ Active cfg (now + k * hour)

theorem nextActiveWindow_of_inReach (h : InReach cfg now) :
    IsNextActive cfg now (nextActiveWindow now cfg) := by
  unfold nextActiveWindow
  cases hsearch : searchActive cfg 48 now with
  | none =>
    obtain ⟨k, hk, hk48, hactive⟩ := h
    exact absurd hactive (searchActive_none.mp hsearch k hk hk48)
  | some w =>
    obtain ⟨k, hk, -, hactive, rfl, hfirst⟩ := searchActive_some hsearch
    refine ⟨lt_snap_add k hk, snap_fullHour, active_snap.mpr hactive, fun t' hlt hfull hact => ?_⟩
    obtain ⟨j, hj, rfl⟩ := hfull.exists_hours hlt
    have hkj : k ≤ j := by
      by_contra hjk
      exact hfirst j hj (by omega) (active_snap.mp hact)
    have hkj : (k : ℤ) ≤ j := by exact_mod_cast hkj
    rw [Option.getD_some, snap_add, snap_add]
    nlinarith [hour_pos]

theorem nextActiveWindow_of_not_inReach (h : ¬ InReach cfg now) :
    nextActiveWindow now cfg = now + 24 * hour := by
  have hsearch : searchActive cfg 48 now = none :=
    searchActive_none.mpr fun k hk hk48 hactive => h ⟨k, hk, hk48, hactive⟩
  rw [nextActiveWindow, hsearch, Option.getD_none]

theorem isNextActive_iff_inReach :
    IsNextActive cfg now (nextActiveWindow now cfg) ↔ InReach cfg now := by
  refine ⟨fun h => ?_, nextActiveWindow_of_inReach⟩
  by_contra hreach
  have hactive := h.active
  rw [nextActiveWindow_of_not_inReach hreach] at hactive
  exact hreach ⟨24, by omega, by omega, by exact_mod_cast hactive⟩

/-- A skipped weekend hides the rest of the lookahead: on a Friday with no active hour left, and on
a Saturday none of whose hours up to now is active on the Monday after it. -/
def BehindWeekend (cfg : SchedulerConfig) (now : ℤ) : Prop :=
  cfg.weekendSkip ∧
    (weekday now = 4 ∧ (∀ h, hourOf now < h → h < 24 → QuietHour cfg h) ∨
      weekday now = 5 ∧ ∀ h, 0 ≤ h → h ≤ hourOf now → QuietHour cfg h)

theorem hourOf_add (k : ℕ) : hourOf (now + k * hour) = (now / hour + k) % 24 := by
  rw [hourOf, Int.add_mul_ediv_right _ _ hour_pos.ne']

theorem weekday_add (k : ℕ) : weekday (now + k * hour) = (now / hour + k) / 24 % 7 := by
  rw [weekday, mul_comm 24, ← Int.ediv_ediv_of_nonneg hour_pos.le,
    Int.add_mul_ediv_right _ _ hour_pos.ne']

/-- An hour of the day that is not quiet is met on every day that is not skipped. -/
theorem active_add (hquiet : ¬ QuietHour cfg ((now / hour + k) % 24))
    (hday : cfg.weekendSkip → (now / hour + k) / 24 % 7 < 5) : Active cfg (now + k * hour) := by
  refine ⟨by rwa [InQuietHours, hourOf_add], ?_⟩
  rintro ⟨hskip, hweekend⟩
  rw [weekday_add] at hweekend
  exact absurd (hday hskip) (not_lt.mpr hweekend)

theorem inReach_iff (hopen : ∃ t, Active cfg t) : InReach cfg now ↔ ¬ BehindWeekend cfg now := by
  have hhour : hourOf now = now / hour % 24 := rfl
  have hweekday : weekday now = now / hour / 24 % 7 := by
    simpa using @weekday_add now 0
  constructor
  · rintro ⟨k, hk, hk48, hquiet, hweekend⟩ ⟨hskip, hfriday | hsaturday⟩
    all_goals
      rw [InQuietHours, hourOf_add] at hquiet
      rw [IsWeekend, weekday_add] at hweekend
      have hday : (now / hour + k) / 24 % 7 < 5 := by
        by_contra hle
        exact hweekend ⟨hskip, not_lt.mp hle⟩
    · obtain ⟨hday', hrest⟩ := hfriday
      refine hquiet (hrest _ ?_ ?_) <;> omega
    · obtain ⟨hday', hrest⟩ := hsaturday
      refine hquiet (hrest _ ?_ ?_) <;> omega
  · intro hfree
    obtain ⟨t, hquiet, -⟩ := hopen
    obtain ⟨a, ha₀, ha₂₄, hquiet⟩ : ∃ a, 0 ≤ a ∧ a < 24 ∧ ¬ QuietHour cfg a :=
      ⟨hourOf t, by unfold hourOf; omega, by unfold hourOf; omega, hquiet⟩
    -- k hours from now it is a o'clock
    have hreach : ∀ (k : ℕ) (a : ℤ), 1 ≤ k → k ≤ 48 → ¬ QuietHour cfg a →
        (now / hour + k) % 24 = a → (cfg.weekendSkip → (now / hour + k) / 24 % 7 < 5) →
        InReach cfg now := fun k a hk hk48 ha hat hday =>
      ⟨k, hk, hk48, active_add (hat ▸ ha) hday⟩
    by_cases hskip : cfg.weekendSkip = true
    · rcases (show weekday now < 4 ∨ weekday now = 4 ∨ weekday now = 5 ∨ weekday now = 6 by
        omega) with hd | hd | hd | hd
      · refine hreach (24 - now / hour % 24 + a).toNat a ?_ ?_ hquiet ?_ fun _ => ?_ <;> omega
      · obtain ⟨b, hb, hb₂₄, hquiet⟩ : ∃ b, hourOf now < b ∧ b < 24 ∧ ¬ QuietHour cfg b := by
          by_contra hall
          refine hfree ⟨hskip, .inl ⟨hd, fun h h₁ h₂ => ?_⟩⟩
          by_contra hq
          exact hall ⟨h, h₁, h₂, hq⟩
        refine hreach (b - now / hour % 24).toNat b ?_ ?_ hquiet ?_ fun _ => ?_ <;> omega
      · obtain ⟨b, hb₀, hb, hquiet⟩ : ∃ b, 0 ≤ b ∧ b ≤ hourOf now ∧ ¬ QuietHour cfg b := by
          by_contra hall
          refine hfree ⟨hskip, .inr ⟨hd, fun h h₁ h₂ => ?_⟩⟩
          by_contra hq
          exact hall ⟨h, h₁, h₂, hq⟩
        refine hreach (48 - now / hour % 24 + b).toNat b ?_ ?_ hquiet ?_ fun _ => ?_ <;> omega
      · refine hreach (24 - now / hour % 24 + a).toNat a ?_ ?_ hquiet ?_ fun _ => ?_ <;> omega
    · refine hreach (24 - now / hour % 24 + a).toNat a ?_ ?_ hquiet ?_
        fun h => absurd h hskip <;> omega

/-- The window is the earliest active full hour, unless that lies behind a skipped weekend. -/
theorem nextActiveWindow_iff (hopen : ∃ t, Active cfg t) :
    IsNextActive cfg now (nextActiveWindow now cfg) ↔ ¬ BehindWeekend cfg now :=
  isNextActive_iff_inReach.trans (inReach_iff hopen)

/-- Equities: no wake on weekends. -/
def equities : SchedulerConfig := { weekendSkip := true }

/-- A time in the week of 19 January 1970, whose Monday is day 0. -/
def weekTime (day hours minutes : ℤ) : ℤ :=
  (24 * (719180 + day) + hours) * hour + minutes * minute

theorem nextActiveWindow_evening :
    IsNextActive equities (weekTime 3 23 30) (nextActiveWindow (weekTime 3 23 30) equities) :=
  (nextActiveWindow_iff ⟨weekTime 0 12 0, by decide⟩).mpr fun h => by
    rcases h.2 with h | h <;> exact absurd h.1 (by decide)

/-- On a Friday night the lookahead ends before the weekend does. -/
theorem nextActiveWindow_friday : (∃ t, Active equities t) ∧
    nextActiveWindow (weekTime 4 23 30) equities = weekTime 5 23 30 ∧
    ¬ IsNextActive equities (weekTime 4 23 30)
      (nextActiveWindow (weekTime 4 23 30) equities) := by
  refine ⟨⟨weekTime 0 12 0, by decide⟩, by decide +kernel, fun h => ?_⟩
  exact absurd h.active (by decide +kernel)

/-- `quiet_hours_end` of the next calendar day. -/
def tomorrowMorning (cfg : SchedulerConfig) (now : ℤ) : ℤ :=
  (now / (24 * hour) + 1) * (24 * hour) + cfg.quietHoursEnd * hour

/-- The minutes to the next wake that follow from the age of the last improvement. -/
def recencyMinutes (cfg : SchedulerConfig) (lastAge : Option ℚ) : ℤ :=
  if ∃ age ∈ lastAge, age < 24 then 15
  else if ∃ age ∈ lastAge, age < 24 * 7 then 30
  else cfg.maxIntervalMinutes

/-- The configuration under which the history is no plateau. -/
def withoutPlateau (cfg : SchedulerConfig) (history : List HistoryRecord) : SchedulerConfig :=
  { cfg with plateauBackoffGens := plateauCountFromHistory history + 1 }

variable {ft : ℚ → ℤ} {history : List HistoryRecord}

theorem nextWakeAt_plateau (hplateau : cfg.plateauBackoffGens ≤ plateauCountFromHistory history)
    (hactive : Active cfg now) :
    (nextWakeAt ft now cfg history false).wakeAt = nextActiveWindow now cfg := by
  simp [nextWakeAt, hactive, hplateau]

theorem nextWakeAt_withoutPlateau (hactive : Active cfg now) :
    (nextWakeAt ft now (withoutPlateau cfg history) history false).wakeAt =
      now + recencyMinutes cfg (lastImprovementAgeHours ft history now) * minute := by
  have hactive : Active (withoutPlateau cfg history) now := hactive
  have hno : ¬ (withoutPlateau cfg history).plateauBackoffGens ≤
      plateauCountFromHistory history := by
    show ¬ (plateauCountFromHistory history : ℤ) + 1 ≤ plateauCountFromHistory history
    omega
  unfold nextWakeAt recencyMinutes
  rw [if_neg (not_not.mpr hactive), if_neg Bool.false_ne_true, if_neg hno]
  simp only
  split_ifs <;> rfl

/-- No active full hour comes before this time; behind a skipped weekend it comes within a day. -/
structure Rests (cfg : SchedulerConfig) (now till : ℤ) : Prop where
  hours : ¬ BehindWeekend cfg now → ∀ t, now < t → FullHour t → Active cfg t → till ≤ t
  weekend : BehindWeekend cfg now → till ≤ now + 24 * hour

theorem le_nextActiveWindow_iff {till : ℤ} (hactive : Active cfg now) :
    till ≤ nextActiveWindow now cfg ↔ Rests cfg now till := by
  have hreach : InReach cfg now ↔ ¬ BehindWeekend cfg now := inReach_iff ⟨now, hactive⟩
  by_cases hweekend : BehindWeekend cfg now
  · rw [nextActiveWindow_of_not_inReach fun h => hreach.mp h hweekend]
    exact ⟨fun hle => ⟨fun h => absurd hweekend h, fun _ => hle⟩, fun h => h.weekend hweekend⟩
  · have hnext := nextActiveWindow_of_inReach (hreach.mpr hweekend)
    constructor
    · intro hle
      refine ⟨fun _ t hlt hfull hact => ?_, fun h => absurd h hweekend⟩
      exact hle.trans (hnext.first t hlt hfull hact)
    · intro hrests
      exact hrests.hours hweekend _ hnext.later hnext.full hnext.active

/-- The back-off lasts until the next morning, and no shorter than the wait without a plateau,
exactly where no active full hour comes before either; with none left before a skipped weekend,
where both come within a day. -/
theorem backoff_iff (hplateau : cfg.plateauBackoffGens ≤ plateauCountFromHistory history)
    (hactive : Active cfg now) :
    (tomorrowMorning cfg now ≤ (nextWakeAt ft now cfg history false).wakeAt ∧
      (nextWakeAt ft now (withoutPlateau cfg history) history false).wakeAt ≤
        (nextWakeAt ft now cfg history false).wakeAt) ↔
    Rests cfg now (tomorrowMorning cfg now) ∧
      Rests cfg now
        (now + recencyMinutes cfg (lastImprovementAgeHours ft history now) * minute) := by
  rw [nextWakeAt_plateau hplateau hactive, nextWakeAt_withoutPlateau hactive,
    le_nextActiveWindow_iff hactive, le_nextActiveWindow_iff hactive]

/-- Six generations of the same fitness. -/
def flatHistory : List HistoryRecord :=
  (List.range 6).map fun g => plainRecord g "C1 Geometry" .accepted 1

/-- UTC -/
def utc (ts : ℚ) : ℤ := 719162 * (24 * hour) + ⌊ts * 1000000⌋

theorem backoff_evening : Rests {} (weekTime 0 22 30) (tomorrowMorning {} (weekTime 0 22 30)) ∧
    Rests {} (weekTime 0 22 30) (weekTime 0 22 30 +
      recencyMinutes {} (lastImprovementAgeHours utc flatHistory (weekTime 0 22 30)) * minute) :=
  (backoff_iff (by decide +kernel) (by decide +kernel)).mp (by decide +kernel)

/-- At noon the back-off ends within the hour. -/
theorem backoff_noon : (5 : ℤ) ≤ plateauCountFromHistory flatHistory ∧
    Active {} (weekTime 0 12 30) ∧
    (nextWakeAt utc (weekTime 0 12 30) {} flatHistory false).wakeAt = weekTime 0 13 0 ∧
    weekTime 0 13 0 < tomorrowMorning {} (weekTime 0 12 30) ∧
    weekTime 0 13 0 <
      (nextWakeAt utc (weekTime 0 12 30) (withoutPlateau {} flatHistory) flatHistory false).wakeAt := by
  decide +kernel

end Pyharmonics.Scheduler
