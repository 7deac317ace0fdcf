import Pyharmonics.SignalContracts

/-! The stop a signal is published with: its side of the entry, and the override of its buffer. -/
namespace Pyharmonics

variable {N : Numerics} {w : Process} {ctx : ScoreContext} {c : Candidate} {level : String}
  {S : Signal} {i : BuildInput} {b : ℚ}

/-- The chain of a signal's levels: stop, entry, three targets. -/
def Chained (S : Signal) : Prop :=
  ∃ tp1 tp2 tp3, S.targets.map SignalTarget.price = [tp1, tp2, tp3] ∧
    if S.direction = .long then
      S.stopLoss < S.entryReference ∧ S.entryReference ≤ tp1 ∧ tp1 < tp2 ∧ tp2 < tp3
    else S.entryReference < S.stopLoss ∧ tp1 ≤ S.entryReference ∧ tp2 < tp1 ∧ tp3 < tp2

/-- The grade of the first pass, which has neither multipliers nor override. -/
def ScoreContext.firstGrade (ctx : ScoreContext) (N : Numerics) (w : Process) (c : Candidate)
    (level : String) : Except PyError (Option Grade) := do
  let entry := ctx.entryPrice c
  let first ← computeStop N w c ctx.atr level
    { swingAnchor := computeSwingAnchor ctx.df ctx.atr c.bullish, entry := some entry }
  let targets ← computeTargets N w c entry
  let rr1 ← netRr N w entry first.stop (targetPrice targets 0)
  let rr2 ← netRr N w entry first.stop (targetPrice targets 1)
  let (total, _) ← confluenceScore w ctx.df ctx.last c ctx.atr ctx.rsi ctx.trend
    ctx.divergences ctx.paScale ctx.momentum
  gradeSignal (max 0 (min 100 (total + patternBaseScore w c.name))) rr1 rr2
    (htfAligned c ctx.trend) (htfCounter c ctx.trend) ctx.aMin (some (widthPct c))

/-- The override reaches the clamp by itself, or nothing multiplies it. -/
def Literal (N : Numerics) (w : Process) (ctx : ScoreContext) (c : Candidate) (level : String)
    (b : ℚ) : Prop :=
  maxStopBufferMult ≤ b ∨
    ctx.regime ≠ .highQuant ∧ ctx.firstGrade N w c level ≠ .ok (some .reference)

/-! The side of the stop. -/

/-- The entry lies in the zone: the price inside it, or the edge the price comes to first. -/
theorem entryPrice_mem (ctx : ScoreContext) (c : Candidate) :
    c.przLow ≤ ctx.entryPrice c ∧ ctx.entryPrice c ≤ c.przHigh := by
  have hzone : c.przLow ≤ c.przHigh := min_le_max
  have hswept : isSwept ctx.last.low ctx.last.high ctx.price c.przLow c.przHigh = true →
      c.przLow ≤ ctx.price ∧ ctx.price ≤ c.przHigh := by
    simp only [isSwept, Bool.or_eq_true, decide_eq_true_eq]
    rintro (⟨-, hlow, hhigh⟩ | ⟨-, hhigh, hlow⟩)
    · exact ⟨hlow, hhigh⟩
    · exact ⟨hlow, hhigh⟩
  have hprice : przState ctx.price c.przLow c.przHigh
      (isSwept ctx.last.low ctx.last.high ctx.price c.przLow c.przHigh) ≠ .approaching →
      c.przLow ≤ ctx.price ∧ ctx.price ≤ c.przHigh := by
    unfold przState
    split_ifs with hs hin
    · exact fun _ => hswept hs
    · exact fun _ => hin
    · exact fun h => absurd rfl h
  unfold ScoreContext.entryPrice ScoreContext.entryState
  simp only
  split_ifs with hrev hconf hb happ hb
  · exact hprice fun h => by simp [h] at hrev
  · exact absurd (by decide) hconf
  · exact absurd (by decide) hconf
  · exact hprice happ
  · exact ⟨hzone, le_rfl⟩
  · exact ⟨le_rfl, hzone⟩

theorem longAnchor_le {e : Bool} {l t : String} {p : ℚ} (h : longAnchor c level e l = .ok (p, t)) :
    p ≤ c.przLow := by
  unfold longAnchor at h
  split_ifs at h
  · cases h
    exact le_rfl
  · obtain ⟨x, -, h⟩ := bind_ok.mp h
    cases h
    exact min_le_right _ _
  · cases h
    exact le_rfl
  · obtain ⟨x, -, h⟩ := bind_ok.mp h
    cases h
    exact min_le_right _ _

theorem le_shortAnchor {e : Bool} {l t : String} {p : ℚ}
    (h : shortAnchor c level e l = .ok (p, t)) : c.przHigh ≤ p := by
  unfold shortAnchor at h
  split_ifs at h
  · cases h
    exact le_rfl
  · obtain ⟨x, -, h⟩ := bind_ok.mp h
    cases h
    exact le_max_right _ _
  · cases h
    exact le_rfl
  · obtain ⟨x, -, h⟩ := bind_ok.mp h
    cases h
    exact le_max_right _ _

/-- An anchor is never beyond an entry in the zone. -/
theorem stopAnchor_side {l : String} {swing : Option ℚ} {entry : ℚ} {a : StopAnchor}
    (hin : c.przLow ≤ entry ∧ entry ≤ c.przHigh)
    (h : stopAnchor w c level l swing (some entry) = .ok a) :
    if c.bullish then a.price ≤ entry else entry ≤ a.price := by
  unfold stopAnchor at h
  simp only at h
  split_ifs at h ⊢ with hb
  · obtain ⟨⟨p, t⟩, hp, h⟩ := bind_ok.mp h
    cases h
    have hle := (longAnchor_le hp).trans hin.1
    cases swing with
    | none => exact hle
    | some s =>
      unfold swingLong
      simp only
      split_ifs with hs
      · exact hs.1.le
      · exact hle
  · obtain ⟨⟨p, t⟩, hp, h⟩ := bind_ok.mp h
    cases h
    have hle := hin.2.trans (le_shortAnchor hp)
    cases swing with
    | none => exact hle
    | some s =>
      unfold swingShort
      simp only
      split_ifs with hs
      · exact hs.1.le
      · exact hle

theorem one_le_regimeStopMultiplier (r : Regime) : 1 ≤ regimeStopMultiplier r := by
  cases r <;> norm_num [regimeStopMultiplier]

theorem one_le_gradeStopMultiplier (g : Option Grade) : 1 ≤ gradeStopMultiplier g := by
  cases g with
  | none => exact le_rfl
  | some g => cases g <;> norm_num [gradeStopMultiplier]

theorem effectiveMult_pos {base : ℚ} {a : StopArgs} (h : 0 < base) : 0 < effectiveMult base a := by
  have htrap : (1 : ℚ) ≤ max 1 a.trapMultiplier := le_max_left _ _
  have hregime := one_le_regimeStopMultiplier a.regime
  have hgrade := one_le_gradeStopMultiplier a.grade
  unfold effectiveMult maxStopBufferMult
  refine lt_min ?_ (by norm_num)
  positivity

/-- The base of a stop is positive when the override and the buffers of the tuning are. -/
theorem stopBase_pos {a : StopArgs} {base : ℚ}
    (hbuffer : ∀ v ∈ w.getTuning.atrStopBuffer.values, 0 < v) (hb : ∀ v ∈ a.stopBufferAtr, 0 < v)
    (h : stopBase w level a = .ok base) : 0 < base := by
  unfold stopBase at h
  cases ha : a.stopBufferAtr with
  | some v =>
    rw [ha] at h
    cases h
    exact hb _ ha
  | none =>
    rw [ha] at h
    simp only at h
    cases hget : w.getTuning.atrStopBuffer.get? level with
    | none => simp [hget] at h
    | some v =>
      simp only [hget, Except.ok.injEq] at h
      subst h
      exact hbuffer v (List.mem_map.mpr ⟨_, Dict.get?_eq_some_iff.mp hget, rfl⟩)

/-- The published levels of a scoring are a chain. -/
theorem Scoring.chained (s : Scoring N w ctx c level) (hN : ∀ x, N.round 8 x = x)
    (hbuffer : ∀ v ∈ w.getTuning.atrStopBuffer.values, 0 < v)
    (hb : ∀ v ∈ ctx.stopBufferAtr, 0 < v) : Chained s.signal := by
  obtain ⟨anchor, base, hbase, hanchor, hstop, -⟩ := computeStop_ok s.final_ok s.level_mem
  have hpos := stopBase_pos hbuffer hb hbase
  have hmult : ∀ a, 0 < effectiveMult base a * ctx.atr :=
    fun a => mul_pos (effectiveMult_pos hpos) s.atr_pos
  have hside := stopAnchor_side (entryPrice_mem ctx c) hanchor
  obtain ⟨aPrice, -, hprices⟩ := computeTargets_prices s.targets_ok
  have hgeo := s.geometry
  rw [hprices] at hgeo
  refine ⟨_, _, _, hprices, ?_⟩
  have hentry : s.signal.entryReference = (ctx.entryState c).2 := hN _
  have hfinal : s.signal.stopLoss = s.final.stop := rfl
  rw [hentry, hfinal, hstop, hN]
  have hdir : s.signal.direction = c.direction := rfl
  rw [hdir]
  cases hbull : c.bullish with
  | true =>
    rw [hbull] at hside
    simp only [directionInvariantOk, Candidate.direction, hbull, if_true, decide_eq_true_eq,
      List.map_cons, List.map_nil] at hgeo ⊢
    refine ⟨?_, hgeo.2⟩
    exact (sub_lt_self _ (hmult _)).trans_le hside
  | false =>
    rw [hbull] at hside
    simp only [directionInvariantOk, Candidate.direction, hbull, Bool.false_eq_true, if_false,
      reduceCtorEq, decide_eq_true_eq, List.map_cons, List.map_nil] at hgeo ⊢
    refine ⟨?_, hgeo.2⟩
    exact lt_of_le_of_lt hside (lt_add_of_pos_right _ (hmult _))

theorem chained_withStability (T : Signal) (k : Option ℤ) :
    Chained (T.withStability k) ↔ Chained T := Iff.rfl

/-- The override of the input is the one every candidate is scored with. -/
theorem prepareScoreContext_buffer {df : Frame} {last : Row} {interval : String}
    {divergences : Option Divergences} {buffer : Option ℚ}
    (h : prepareScoreContext N w df last interval divergences buffer = .ok (some ctx)) :
    ctx.stopBufferAtr = buffer := by
  obtain ⟨atr, -, h⟩ := bind_ok.mp h
  obtain ⟨-, h⟩ := unless_none_ok.mp h
  obtain ⟨rsi, -, h⟩ := bind_ok.mp h
  obtain ⟨trend, -, h⟩ := bind_ok.mp h
  cases h
  rfl

theorem Origin.buffer (ho : Origin N w i S ctx c) : ctx.stopBufferAtr = i.stopBufferAtr := by
  obtain ⟨df, last, -, -, h⟩ := ho.prepared
  exact prepareScoreContext_buffer h

/-- Every returned signal has its stop before its entry and its targets in order behind it. -/
theorem published_chained (hN : ∀ x, N.round 8 x = x)
    (hbuffer : ∀ v ∈ w.getTuning.atrStopBuffer.values, 0 < v)
    (hb : ∀ v ∈ i.stopBufferAtr, 0 < v) (h : buildSignal N w i = .ok (some S)) : Chained S := by
  obtain ⟨ctx, c, ho⟩ := buildSignal_some h
  obtain ⟨T, k, hT, rfl⟩ := ho.scored
  rw [chained_withStability]
  obtain ⟨s, rfl⟩ := scoreCandidate_some hT
  rw [← ho.buffer] at hb
  exact s.chained hN hbuffer hb

/-! The alternating market once more, in exact arithmetic and with the buffer overridden. -/

def exactNumerics : Numerics := { plainNumerics with round := fun _ x => x }

/-- A call on the alternating market that asks for a stop `b` ATRs from the anchor. -/
def overriddenInput (b : ℚ) : BuildInput := { alternatingInput with stopBufferAtr := some b }

theorem overridden_view : (buildSignal exactNumerics defaultProcess
    (overriddenInput (1 / 2))).toOption.join.map
      (fun S => (S.stopLoss, S.invalidationPoint)) = some (474 / 5, 489 / 5) := by
  decide +kernel

/-- A stop asked for at half an ATR from the anchor: its place in the chain. -/
theorem overridden_chained : ∃ S, buildSignal exactNumerics defaultProcess
    (overriddenInput (1 / 2)) = .ok (some S) ∧ Chained S := by
  obtain ⟨S, hS, -⟩ := exists_of_view overridden_view
  have hbuffer : ∀ v ∈ defaultProcess.getTuning.atrStopBuffer.values, 0 < v := by decide +kernel
  have hb : ∀ v ∈ (overriddenInput (1 / 2)).stopBufferAtr, 0 < v := by decide +kernel
  exact ⟨S, hS, published_chained (fun _ => rfl) hbuffer hb hS⟩

/-! The override of the buffer. -/

/-- A scored candidate is published with the grade of its first pass. -/
theorem firstGrade_ok (h : scoreCandidate N w ctx c level = .ok (some S)) :
    ctx.firstGrade N w c level = .ok (some S.grade) := by
  obtain ⟨first, targets, rr1, rr2, total, factors, g, _, _, _, _, -, -, hfirst, htargets, -, hrr1,
    hrr2, htotal, hgraded, -, -, -, -, rfl⟩ := scoreCandidate_inv h
  exact bind_ok.mpr ⟨first, hfirst, bind_ok.mpr ⟨targets, htargets, bind_ok.mpr ⟨rr1, hrr1,
    bind_ok.mpr ⟨rr2, hrr2, bind_ok.mpr ⟨(total, factors), htotal, hgraded⟩⟩⟩⟩⟩

/-- The factors of the regime and the grade are one together only when both are. -/
theorem chain_eq_one_iff {r : Regime} {g : Grade} (hg : g ≠ .c) :
    regimeStopMultiplier r * gradeStopMultiplier (some g) = 1 ↔
      r ≠ .highQuant ∧ g ≠ .reference := by
  cases r <;> cases g <;> simp [regimeStopMultiplier, gradeStopMultiplier] at hg ⊢ <;> norm_num

/-- A factor of at least one disappears in the clamp, or is one. -/
theorem clamp_eq_iff {m : ℚ} (hb : 0 < b) (hm : 1 ≤ m) :
    min (b * m) maxStopBufferMult = min b maxStopBufferMult ↔ maxStopBufferMult ≤ b ∨ m = 1 := by
  have hle : b ≤ b * m := le_mul_of_one_le_right hb.le hm
  constructor
  · intro h
    by_contra hnot
    obtain ⟨hlt, hne⟩ := not_or.mp hnot
    have hgt : b < b * m := lt_mul_of_one_lt_right hb (lt_of_le_of_ne hm (Ne.symm hne))
    rw [min_eq_left (not_le.mp hlt).le] at h
    exact absurd h (lt_min hgt (not_le.mp hlt)).ne'
  · rintro (hclamp | rfl)
    · rw [min_eq_right hclamp, min_eq_right (hclamp.trans hle)]
    · rw [mul_one]

theorem abs_offset {p x : ℚ} {bullish : Bool} (hx : 0 < x) :
    |(if bullish then p - x else p + x) - p| = x := by
  split_ifs
  · rw [sub_sub_cancel_left, abs_neg, abs_of_pos hx]
  · rw [add_sub_cancel_left, abs_of_pos hx]

/-- The distance of the published stop from the published anchor, under an override. -/
theorem Scoring.buffer_eq (s : Scoring N w ctx c level) (hN : ∀ x, N.round 8 x = x) (hb : 0 < b)
    (ho : ctx.stopBufferAtr = some b) : |s.final.stop - s.final.invalidation| =
      min (b * (regimeStopMultiplier ctx.regime * gradeStopMultiplier (some s.grade)))
        maxStopBufferMult * ctx.atr := by
  obtain ⟨anchor, base, hbase, -, hstop, hinv⟩ := computeStop_ok s.final_ok s.level_mem
  simp only [stopBase, ho, Except.ok.injEq] at hbase
  subst hbase
  rw [hstop, hinv, hN, hN, abs_offset (mul_pos (effectiveMult_pos hb) s.atr_pos), effectiveMult,
    s.trapM_eq, max_self, mul_one, mul_assoc]

/-- The buffer of a published stop is the override, clamped, exactly when the override is literal. -/
theorem override_literal_iff (hN : ∀ x, N.round 8 x = x) (hb : 0 < b)
    (hi : i.stopBufferAtr = some b) (h : buildSignal N w i = .ok (some S)) :
    ∃ ctx c, Origin N w i S ctx c ∧
      (|S.stopLoss - S.invalidationPoint| = min b maxStopBufferMult * ctx.atr ↔
        Literal N w ctx c i.stopLevel b) := by
  obtain ⟨ctx, c, ho⟩ := buildSignal_some h
  obtain ⟨T, k, hT, rfl⟩ := ho.scored
  refine ⟨ctx, c, ho, ?_⟩
  have hgrade := firstGrade_ok hT
  obtain ⟨s, rfl⟩ := scoreCandidate_some hT
  have hbuffer := s.buffer_eq hN hb (ho.buffer.trans hi)
  change |s.final.stop - s.final.invalidation| = _ ↔ _
  change _ = Except.ok (some s.grade) at hgrade
  have hne : s.grade ≠ .c := fun hc => gradeOf_ne_c (hc ▸ gradeSignal_ok s.grade_ok)
  have hone : 1 ≤ regimeStopMultiplier ctx.regime * gradeStopMultiplier (some s.grade) :=
    one_le_mul_of_one_le_of_one_le (one_le_regimeStopMultiplier _) (one_le_gradeStopMultiplier _)
  rw [hbuffer, mul_left_inj' s.atr_pos.ne', clamp_eq_iff hb hone, chain_eq_one_iff hne, Literal,
    hgrade]
  simp only [ne_eq, Except.ok.injEq, Option.some.injEq]

/-- The high-quant regime moves it to three quarters of an ATR of four. -/
theorem overridden_widened : ∃ S atr, buildSignal exactNumerics defaultProcess
    (overriddenInput (1 / 2)) = .ok (some S) ∧
      computeAtr defaultProcess alternatingFrame = .ok atr ∧
      |S.stopLoss - S.invalidationPoint| ≠ min (1 / 2) maxStopBufferMult * atr := by
  obtain ⟨S, hS, hv⟩ := exists_of_view overridden_view
  obtain ⟨hstop, hinv⟩ := Prod.mk.inj hv
  have hatr : computeAtr defaultProcess alternatingFrame = .ok 4 := by decide +kernel
  refine ⟨S, 4, hS, hatr, ?_⟩
  rw [hstop, hinv]
  norm_num [maxStopBufferMult]

theorem clamped_view : (buildSignal exactNumerics defaultProcess
    (overriddenInput 2)).toOption.join.map (fun S => S.stopLoss) = some (449 / 5) := by
  decide +kernel

/-- Asked for at the clamp, the stop is where it was asked for. -/
theorem clamped_literal : ∃ S ctx c, Origin exactNumerics defaultProcess (overriddenInput 2) S ctx c ∧
    |S.stopLoss - S.invalidationPoint| = min 2 maxStopBufferMult * ctx.atr := by
  obtain ⟨S, hS, -⟩ := exists_of_view clamped_view
  obtain ⟨ctx, c, ho, hiff⟩ := override_literal_iff (fun _ => rfl) (by norm_num) rfl hS
  exact ⟨S, ctx, c, ho, hiff.mpr (Or.inl le_rfl)⟩

end Pyharmonics
