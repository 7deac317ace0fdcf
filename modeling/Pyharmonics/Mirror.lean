import Pyharmonics.PublishedStop

/-! The trade geometry of a market and of its mirror image: every price `p` turned into `M - p`. -/
namespace Pyharmonics

variable {N : Numerics} {w : Process} {c : Candidate} {level : String} {a : StopArgs}
  {r : StopPlan} {M atr : ℚ} {cs : List Candidate} {cts : Option (List ℤ)}

/-- The same pattern upside down. -/
def Candidate.reflect (M : ℚ) (c : Candidate) : Candidate :=
  { c with
    bullish := !c.bullish
    points := c.points.map (M - ·)
    completionMin := M - c.completionMax
    completionMax := M - c.completionMin }

def StopArgs.reflect (M : ℚ) (a : StopArgs) : StopArgs :=
  { a with swingAnchor := a.swingAnchor.map (M - ·), entry := a.entry.map (M - ·) }

def SignalTarget.reflect (M : ℚ) (t : SignalTarget) : SignalTarget := { t with price := M - t.price }

def Rejection.reflect (M : ℚ) (r : Rejection) : Rejection :=
  { r with candidate := r.candidate.reflect M }

/-- The stop and the invalidation point of a plan. -/
def StopPlan.levels (r : StopPlan) : ℚ × ℚ := (r.stop, r.invalidation)

def StopPlan.reflectedLevels (M : ℚ) (r : StopPlan) : ℚ × ℚ := (M - r.stop, M - r.invalidation)

/-- The prices of a candidate and the entry are positive, and so are their images. -/
structure Between (M : ℚ) (a : StopArgs) (c : Candidate) : Prop where
  points : ∀ p ∈ c.points, 0 < p ∧ p < M
  zone : 0 < c.przLow ∧ c.przHigh < M
  entry : ∀ e ∈ a.entry, 0 < e ∧ e < M

/-- The stop and its image are positive as well. -/
structure Reflectable (N : Numerics) (w : Process) (atr M : ℚ) (level : String) (a : StopArgs)
    (c : Candidate) : Prop extends Between M a c where
  stop : ∀ r, placeStop N w c atr level a = .ok r → 0 < r.stop ∧ r.stop < M

theorem przLow_reflect : (c.reflect M).przLow = M - c.przHigh := by
  change min (M - c.completionMax) (M - c.completionMin) = M - max c.completionMin c.completionMax
  rw [min_sub_sub_left, max_comm]

theorem przHigh_reflect : (c.reflect M).przHigh = M - c.przLow := by
  change max (M - c.completionMax) (M - c.completionMin) = M - min c.completionMin c.completionMax
  rw [max_sub_sub_left, min_comm]

theorem point_reflect (k : ℕ) : (c.reflect M).point k = (c.point k).map (M - ·) := by
  have hpoint : (c.reflect M).points[k]? = c.points[k]?.map (M - ·) := List.getElem?_map
  unfold Candidate.point
  rw [hpoint]
  cases c.points[k]? <;> rfl

theorem aPrice_reflect : (c.reflect M).aPrice = c.aPrice.map (M - ·) := by
  unfold Candidate.aPrice
  change (if c.family = "XABCD" then _ else _) = _
  split_ifs
  · exact point_reflect 1
  · exact point_reflect 0

theorem map_bind {α β γ : Type} {x : Except PyError α} {f : α → Except PyError β} {g : β → γ} :
    (x >>= f).map g = x >>= fun a => (f a).map g := by
  cases x <;> rfl

/-- Two calls whose first parts show the same, and whose rests look at nothing else. -/
theorem bind_eq_of_map_eq {α β γ δ : Type} {x : Except PyError α} {y : Except PyError β}
    {f : α → γ} {g : β → γ} {h : α → Except PyError δ} {k : β → Except PyError δ}
    (hxy : x.map f = y.map g) (hk : ∀ a b, y = .ok b → f a = g b → h a = k b) :
    (x >>= h) = (y >>= k) := by
  cases x with
  | error e =>
    cases y with
    | error e' =>
      obtain rfl : e = e' := Except.error.inj hxy
      rfl
    | ok b => cases hxy
  | ok a =>
    cases y with
    | error e => cases hxy
    | ok b => exact hk a b rfl (Except.ok.inj hxy)

/-! The anchor. -/

theorem longAnchor_reflect {e : Bool} {l l' : String} :
    (shortAnchor (c.reflect M) level e l').map Prod.fst =
      (longAnchor c level e l).map fun p => M - p.1 := by
  have hx : (c.reflect M).xPrice = c.xPrice.map (M - ·) := point_reflect 0
  unfold shortAnchor longAnchor
  rw [przHigh_reflect, hx]
  cases c.xPrice <;> split_ifs <;>
    simp [Except.map, bind, Except.bind, max_sub_sub_left]

theorem shortAnchor_reflect {e : Bool} {l l' : String} :
    (longAnchor (c.reflect M) level e l').map Prod.fst =
      (shortAnchor c level e l).map fun p => M - p.1 := by
  have hx : (c.reflect M).xPrice = c.xPrice.map (M - ·) := point_reflect 0
  unfold shortAnchor longAnchor
  rw [przLow_reflect, hx]
  cases c.xPrice <;> split_ifs <;>
    simp [Except.map, bind, Except.bind, min_sub_sub_left]

theorem xPrice_mem {x : ℚ} (h : c.xPrice = .ok x) : x ∈ c.points := by
  unfold Candidate.xPrice Candidate.point at h
  split at h
  · next p hp =>
    cases h
    exact List.mem_of_getElem? hp
  · cases h

theorem longAnchor_pos {e : Bool} {l : String} {p : ℚ × String} (hp : ∀ x ∈ c.points, 0 < x)
    (hz : 0 < c.przLow) (h : longAnchor c level e l = .ok p) : 0 < p.1 := by
  unfold longAnchor at h
  split_ifs at h
  · cases h
    exact hz
  · obtain ⟨x, hx, h⟩ := bind_ok.mp h
    cases h
    exact lt_min (hp x (xPrice_mem hx)) hz
  · cases h
    exact hz
  · obtain ⟨x, hx, h⟩ := bind_ok.mp h
    cases h
    exact lt_min (hp x (xPrice_mem hx)) hz

theorem shortAnchor_lt {e : Bool} {l : String} {p : ℚ × String} (hp : ∀ x ∈ c.points, x < M)
    (hz : c.przHigh < M) (h : shortAnchor c level e l = .ok p) : p.1 < M := by
  unfold shortAnchor at h
  split_ifs at h
  · cases h
    exact hz
  · obtain ⟨x, hx, h⟩ := bind_ok.mp h
    cases h
    exact max_lt (hp x (xPrice_mem hx)) hz
  · cases h
    exact hz
  · obtain ⟨x, hx, h⟩ := bind_ok.mp h
    cases h
    exact max_lt (hp x (xPrice_mem hx)) hz

/-- A swing replaces the anchor of a long exactly when its image replaces the anchor's image. -/
theorem swingLong_reflect {swing entry : Option ℚ} {anchor : ℚ} (ha : 0 < anchor)
    (he : ∀ e ∈ entry, e < M) :
    (swingShort (swing.map (M - ·)) (entry.map (M - ·)) (M - anchor)).1 =
      M - (swingLong swing entry anchor).1 := by
  cases swing with
  | none => rfl
  | some s =>
    cases entry with
    | none => rfl
    | some e =>
      have hiff : (M - e < M - s ∧ 0 < M - s ∧ M - s < M - anchor) ↔
          (s < e ∧ 0 < s ∧ anchor < s) := by
        have he := he e rfl
        constructor
        · rintro ⟨h, -, h'⟩
          exact ⟨by linarith, by linarith, by linarith⟩
        · rintro ⟨h, -, h'⟩
          exact ⟨by linarith, by linarith, by linarith⟩
      simp only [swingShort, swingLong, Option.map_some, hiff]
      split_ifs <;> rfl

theorem swingShort_reflect {swing entry : Option ℚ} {anchor : ℚ} (ha : anchor < M)
    (he : ∀ e ∈ entry, 0 < e) :
    (swingLong (swing.map (M - ·)) (entry.map (M - ·)) (M - anchor)).1 =
      M - (swingShort swing entry anchor).1 := by
  have hentry : ∀ e ∈ entry.map (M - ·), e < M := by
    intro e h
    obtain ⟨x, hx, rfl⟩ := Option.mem_map.mp h
    exact sub_lt_self M (he x hx)
  have htwice : ∀ x : Option ℚ, (x.map (M - ·)).map (M - ·) = x := by
    intro x
    cases x <;> simp
  -- the image of the image
  have h : (swingShort ((swing.map (M - ·)).map (M - ·)) ((entry.map (M - ·)).map (M - ·))
      (M - (M - anchor))).1 = M - (swingLong (swing.map (M - ·)) (entry.map (M - ·)) (M - anchor)).1 :=
    swingLong_reflect (sub_pos.mpr ha) hentry
  rw [htwice, htwice, sub_sub_cancel] at h
  rw [h, sub_sub_cancel]

theorem stopAnchor_reflect {l l' : String} (h : Between M a c) :
    (stopAnchor w (c.reflect M) level l' (a.reflect M).swingAnchor (a.reflect M).entry).map
        StopAnchor.price =
      (stopAnchor w c level l a.swingAnchor a.entry).map fun s => M - s.price := by
  have hname : (c.reflect M).name = c.name := rfl
  have hbull : (c.reflect M).bullish = !c.bullish := rfl
  unfold stopAnchor
  simp only [hname, hbull]
  cases c.bullish with
  | true =>
    simp only [Bool.not_true, Bool.false_eq_true, if_false, if_true, map_bind]
    refine bind_eq_of_map_eq longAnchor_reflect ?_
    rintro ⟨p, t⟩ q hq hpq
    obtain rfl : p = M - q.1 := hpq
    have hpos := longAnchor_pos (fun x hx => (h.points x hx).1) h.zone.1 hq
    exact congrArg Except.ok (swingLong_reflect hpos fun e he => (h.entry e he).2)
  | false =>
    simp only [Bool.not_false, Bool.false_eq_true, if_false, if_true, map_bind]
    refine bind_eq_of_map_eq shortAnchor_reflect ?_
    rintro ⟨p, t⟩ q hq hpq
    obtain rfl : p = M - q.1 := hpq
    have hlt := shortAnchor_lt (fun x hx => (h.points x hx).2) h.zone.2 hq
    exact congrArg Except.ok (swingShort_reflect hlt fun e he => (h.entry e he).1)

theorem stopAnchor_mem {l : String} {s : StopAnchor} (h : Between M a c)
    (hs : stopAnchor w c level l a.swingAnchor a.entry = .ok s) : 0 < s.price ∧ s.price < M := by
  have hzone : c.przLow ≤ c.przHigh := min_le_max
  unfold stopAnchor at hs
  simp only at hs
  split_ifs at hs
  · obtain ⟨p, hp, hs⟩ := bind_ok.mp hs
    cases hs
    have hpos := longAnchor_pos (fun x hx => (h.points x hx).1) h.zone.1 hp
    have hlt := (longAnchor_le hp).trans_lt (hzone.trans_lt h.zone.2)
    unfold swingLong
    split
    · next s e _ he =>
      split_ifs with hin
      · exact ⟨hin.2.1, hin.1.trans (h.entry e he).2⟩
      · exact ⟨hpos, hlt⟩
    · exact ⟨hpos, hlt⟩
  · obtain ⟨p, hp, hs⟩ := bind_ok.mp hs
    cases hs
    have hlt := shortAnchor_lt (fun x hx => (h.points x hx).2) h.zone.2 hp
    have hpos := h.zone.1.trans_le (hzone.trans (le_shortAnchor hp))
    unfold swingShort
    split
    · next s e _ _ =>
      split_ifs with hin
      · exact ⟨hin.2.1, hin.2.2.trans hlt⟩
      · exact ⟨hpos, hlt⟩
    · exact ⟨hpos, hlt⟩

/-! The stop. -/

theorem placeStop_reflect (hN : ∀ x, N.round 8 x = x) (h : Between M a c) :
    (placeStop N w (c.reflect M) atr level (a.reflect M)).map StopPlan.levels =
      (placeStop N w c atr level a).map (StopPlan.reflectedLevels M) := by
  have hbull : (c.reflect M).bullish = !c.bullish := rfl
  have hbase : ∀ l, stopBase w l (a.reflect M) = stopBase w l a := fun _ => rfl
  have hmult : ∀ b, effectiveMult b (a.reflect M) = effectiveMult b a := fun _ => rfl
  unfold placeStop
  simp only [map_bind, hbase, hmult, hN, hbull]
  congr 1
  funext base
  refine bind_eq_of_map_eq (stopAnchor_reflect h) ?_
  intro p q _ hpq
  refine congrArg Except.ok (Prod.ext ?_ hpq)
  change (if !c.bullish then _ else _) = M - (if c.bullish then _ else _)
  rw [hpq]
  cases c.bullish with
  | true => simp only [Bool.not_true, Bool.false_eq_true, if_false, if_true]; ring
  | false => simp only [Bool.not_false, Bool.false_eq_true, if_false, if_true]; ring

/-- The reason for a stop is given, and the stop hangs from its anchor. -/
theorem placeStop_spec (hN : ∀ x, N.round 8 x = x) (h : placeStop N w c atr level a = .ok r) :
    0 < r.basis.length ∧ ∃ l l' s, stopAnchor w c l l' a.swingAnchor a.entry = .ok s ∧
      r.invalidation = s.price := by
  obtain ⟨base, -, h⟩ := bind_ok.mp h
  obtain ⟨s, hs, h⟩ := bind_ok.mp h
  cases h
  exact ⟨append_length_pos (append_length_pos (stopAnchor_basis hs) _) _, _, _, s, hs, hN _⟩

/-- Under its contract a stop is placed wherever the ATR is positive. -/
theorem computeStop_eq (hN : ∀ x, N.round 8 x = x) (hc : c.Positive)
    (hr : ∀ r, placeStop N w c atr level a = .ok r → 0 < r.stop ∧ 0 < r.invalidation) :
    computeStop N w c atr level a =
      require (0 < atr) "ATR must be positive; compute_stop is undefined for zero volatility" >>=
        fun _ => placeStop N w c atr level a := by
  unfold computeStop
  rw [require_ok.mpr hc.1, require_ok.mpr hc.2, ok_bind, ok_bind]
  congr 1
  funext _
  cases h : placeStop N w c atr level a with
  | error e => rfl
  | ok r =>
    obtain ⟨hbasis, -⟩ := placeStop_spec hN h
    obtain ⟨hstop, hinv⟩ := hr r h
    rw [ok_bind, require_ok.mpr hbasis, ok_bind, require_ok.mpr hinv, ok_bind,
      require_ok.mpr hstop]
    rfl

theorem positive_of_between (h : Between M a c) : c.Positive :=
  ⟨fun p hp => (h.points p hp).1, h.zone.1, h.zone.1.trans_le min_le_max⟩

theorem positive_reflect (h : Between M a c) : (c.reflect M).Positive := by
  refine ⟨?_, ?_, ?_⟩
  · intro p hp
    obtain ⟨q, hq, rfl⟩ := List.mem_map.mp hp
    exact sub_pos.mpr (h.points q hq).2
  · rw [przLow_reflect]
    exact sub_pos.mpr h.zone.2
  · rw [przHigh_reflect]
    exact sub_pos.mpr ((show c.przLow ≤ c.przHigh from min_le_max).trans_lt h.zone.2)

/-- `compute_stop` turns into its image: the same failures, and the images of its levels. -/
theorem computeStop_reflect (hN : ∀ x, N.round 8 x = x) (h : Reflectable N w atr M level a c) :
    (computeStop N w (c.reflect M) atr level (a.reflect M)).map StopPlan.levels =
      (computeStop N w c atr level a).map (StopPlan.reflectedLevels M) := by
  have hplace : (placeStop N w (c.reflect M) atr level (a.reflect M)).map StopPlan.levels =
      (placeStop N w c atr level a).map (StopPlan.reflectedLevels M) :=
    placeStop_reflect hN h.toBetween
  have hinv : ∀ r, placeStop N w c atr level a = .ok r → 0 < r.invalidation ∧ r.invalidation < M := by
    intro r hr
    obtain ⟨-, _, _, s, hs, hprice⟩ := placeStop_spec hN hr
    rw [hprice]
    exact stopAnchor_mem h.toBetween hs
  have himage : ∀ r', placeStop N w (c.reflect M) atr level (a.reflect M) = .ok r' →
      0 < r'.stop ∧ 0 < r'.invalidation := by
    intro r' hr'
    rw [hr'] at hplace
    cases hr : placeStop N w c atr level a with
    | error e =>
      rw [hr] at hplace
      cases hplace
    | ok r =>
      rw [hr] at hplace
      obtain ⟨hstop, hanchor⟩ := Prod.mk.inj (Except.ok.inj hplace)
      rw [hstop, hanchor]
      exact ⟨sub_pos.mpr (h.stop r hr).2, sub_pos.mpr (hinv r hr).2⟩
  rw [computeStop_eq hN (positive_reflect h.toBetween) himage,
    computeStop_eq hN (positive_of_between h.toBetween) fun r hr => ⟨(h.stop r hr).1, (hinv r hr).1⟩,
    map_bind, map_bind, hplace]

/-! The targets. -/

/-- `compute_targets` turns into its image. -/
theorem computeTargets_reflect (hN : ∀ x, N.round 8 x = x) (entry : ℚ) :
    computeTargets N w (c.reflect M) (M - entry) =
      (computeTargets N w c entry).map (List.map (SignalTarget.reflect M)) := by
  have hbull : (c.reflect M).bullish = !c.bullish := rfl
  have hspan : ∀ p : ℚ, |M - p - (M - entry)| = |p - entry| := by
    intro p
    rw [sub_sub_sub_cancel_left, abs_sub_comm]
  unfold computeTargets
  rw [aPrice_reflect]
  cases c.aPrice with
  | error e => rfl
  | ok p =>
    simp only [Except.map, ok_bind, hspan, hbull, hN]
    cases closePctAt w.getTuning.toTuningFields 0 with
    | error e => rfl
    | ok p1 =>
      cases closePctAt w.getTuning.toTuningFields 1 with
      | error e => rfl
      | ok p2 =>
        cases closePctAt w.getTuning.toTuningFields 2 with
        | error e => rfl
        | ok p3 =>
          cases c.bullish with
          | true => simp [pure, Except.pure, SignalTarget.reflect, sub_sub]
          | false => simp [pure, Except.pure, SignalTarget.reflect, sub_add]

/-! The filter. -/

theorem violated_reflect (hN : ∀ x, N.round 8 x = x) (h : Reflectable N w atr M "standard" {} c)
    (price : ℚ) {α : Type} (k : Bool → Except PyError α) :
    (do
      let s ← computeStop N w (c.reflect M) atr
      let violated ← pure (if !c.bullish then decide (M - price < s.stop)
        else decide (s.stop < M - price))
      k violated) =
    (do
      let s ← computeStop N w c atr
      let violated ← pure (if c.bullish then decide (price < s.stop) else decide (s.stop < price))
      k violated) := by
  have hplain : StopArgs.reflect M {} = {} := rfl
  have hlevels := computeStop_reflect hN h
  rw [hplain] at hlevels
  refine bind_eq_of_map_eq hlevels ?_
  intro r' r _ hr
  have hstop : r'.stop = M - r.stop := congrArg Prod.fst hr
  rw [hstop]
  simp only [sub_lt_sub_iff_left]
  cases c.bullish with
  | true => rfl
  | false => rfl

theorem completed_reflect (hN : ∀ x, N.round 8 x = x) {α : Type} (entry price : ℚ) (x y : α) :
    (do
      let targets ← computeTargets N w (c.reflect M) (M - entry)
      let tp2 := (targets[1]?.map SignalTarget.price).getD 0
      if ((!c.bullish) = true ∧ tp2 < M - price) ∨ ((!!c.bullish) = true ∧ M - price < tp2) then
        pure x
      else pure y) =
    (do
      let targets ← computeTargets N w c entry
      let tp2 := (targets[1]?.map SignalTarget.price).getD 0
      if (c.bullish = true ∧ tp2 < price) ∨ ((!c.bullish) = true ∧ price < tp2) then pure x
      else pure y : Except PyError α) := by
  rw [computeTargets_reflect hN]
  cases ht : computeTargets N w c entry with
  | error e => rfl
  | ok targets =>
    obtain ⟨aPrice, -, hprices⟩ := computeTargets_prices ht
    have hsecond : ∃ tp2, targets[1]?.map SignalTarget.price = some tp2 := by
      rw [← List.getElem?_map, hprices]
      exact ⟨_, rfl⟩
    obtain ⟨tp2, hsecond⟩ := hsecond
    obtain ⟨target, htarget, rfl⟩ := Option.map_eq_some_iff.mp hsecond
    simp only [Except.map, ok_bind, List.getElem?_map, htarget, Option.map_some, Option.getD_some,
      SignalTarget.reflect, sub_lt_sub_iff_left, Bool.not_not]
    congr 1
    rw [or_comm]

/-- A candidate and its image are rejected for the same reason. -/
theorem rejectionReason_reflect (hN : ∀ x, N.round 8 x = x)
    (h : Reflectable N w atr M "standard" {} c) (price : ℚ) :
    rejectionReason N w (c.reflect M) (M - price) atr cts = rejectionReason N w c price atr cts := by
  have hmid : (M - c.przHigh + (M - c.przLow)) / 2 = M - (c.przLow + c.przHigh) / 2 := by ring
  have hdist : |M - price - (M - (c.przLow + c.przHigh) / 2)| =
      |price - (c.przLow + c.przHigh) / 2| := by
    rw [sub_sub_sub_cancel_left, abs_sub_comm]
  have hwidth : M - c.przLow - (M - c.przHigh) = c.przHigh - c.przLow := by ring
  have hbull : (c.reflect M).bullish = !c.bullish := rfl
  have htimes : (c.reflect M).times = c.times := rfl
  have hformed : (c.reflect M).formed = c.formed := rfl
  unfold rejectionReason
  simp only [przLow_reflect, przHigh_reflect, hmid, hdist, hwidth, hbull, htimes, hformed,
    completed_reflect hN, violated_reflect hN h]

/-- `filter_candidates` keeps the images of what it keeps. -/
theorem filterCandidates_reflect (hN : ∀ x, N.round 8 x = x)
    (h : ∀ c ∈ cs, Reflectable N w atr M "standard" {} c) (price : ℚ) :
    filterCandidates N w (M - price) atr cts (cs.map (Candidate.reflect M)) =
      (filterCandidates N w price atr cts cs).map fun split =>
        (split.1.map (Candidate.reflect M), split.2.map (Rejection.reflect M)) := by
  induction cs with
  | nil => rfl
  | cons c cs ih =>
    have hreason : boundRejectionReason N w (c.reflect M) (M - price) atr cts =
        boundRejectionReason N w c price atr cts := by
      unfold boundRejectionReason
      rw [rejectionReason_reflect hN (h c (by simp))]
    rw [List.map_cons, filterCandidates, hreason, ih fun d hd => h d (List.mem_cons_of_mem c hd),
      filterCandidates]
    cases boundRejectionReason N w c price atr cts with
    | error e => rfl
    | ok reason =>
      cases filterCandidates N w price atr cts cs with
      | error e => rfl
      | ok split => cases reason <;> rfl

/-- The geometry of a trade in the mirror: the stop and its anchor, the targets, the reason to
reject a candidate and the candidates that are kept are the images of those of the market. -/
theorem geometry_mirrored (hN : ∀ x, N.round 8 x = x) (hc : Reflectable N w atr M level a c)
    (hcs : ∀ d ∈ cs, Reflectable N w atr M "standard" {} d) (entry price : ℚ)
    (cts : Option (List ℤ)) :
    (computeStop N w (c.reflect M) atr level (a.reflect M)).map StopPlan.levels =
        (computeStop N w c atr level a).map (StopPlan.reflectedLevels M) ∧
      computeTargets N w (c.reflect M) (M - entry) =
        (computeTargets N w c entry).map (List.map (SignalTarget.reflect M)) ∧
      (∀ d ∈ cs, rejectionReason N w (d.reflect M) (M - price) atr cts =
        rejectionReason N w d price atr cts) ∧
      filterCandidates N w (M - price) atr cts (cs.map (Candidate.reflect M)) =
        (filterCandidates N w price atr cts cs).map fun split =>
          (split.1.map (Candidate.reflect M), split.2.map (Rejection.reflect M)) := by
  refine ⟨computeStop_reflect hN hc, computeTargets_reflect hN entry, ?_,
    filterCandidates_reflect hN hcs price⟩
  intro d hd
  exact rejectionReason_reflect hN (hcs d hd) price

theorem gartley_reflectable : Reflectable exactNumerics defaultProcess 4 300 "standard" {} gartley where
  points := by decide +kernel
  zone := by decide +kernel
  entry := by decide +kernel
  stop := by
    intro r hr
    have hlevels : (placeStop exactNumerics defaultProcess gartley 4 "standard" {}).map
        StopPlan.levels = .ok (958 / 10, 97) := by
      decide +kernel
    rw [hr] at hlevels
    have hstop : r.stop = 958 / 10 := congrArg Prod.fst (Except.ok.inj hlevels)
    rw [hstop]
    norm_num

/-- The image of the long from 100 around 150 is rejected at 201 for the reason the long is
rejected for at 99. -/
theorem gartley_mirrored :
    rejectionReason exactNumerics defaultProcess (gartley.reflect 300) (300 - 99) 4 none =
      rejectionReason exactNumerics defaultProcess gartley 99 4 none := by
  have hcs : ∀ d ∈ [gartley], Reflectable exactNumerics defaultProcess 4 300 "standard" {} d := by
    intro d hd
    rw [List.mem_singleton.mp hd]
    exact gartley_reflectable
  have hmirror := geometry_mirrored (fun _ => rfl) gartley_reflectable hcs 100 99 none
  exact hmirror.2.2.1 gartley (List.mem_singleton_self gartley)

end Pyharmonics
