import Pyharmonics.SignalEngine

/-! What a returned signal says about the calls that produced it. -/
namespace Pyharmonics

variable {N : Numerics} {w : Process} {ctx : ScoreContext} {c : Candidate} {level : String}
  {S T : Signal} {cs : List Candidate} {i : BuildInput} {df : Frame}

/-- Every intermediate result of a candidate that was scored. -/
structure Scoring (N : Numerics) (w : Process) (ctx : ScoreContext) (c : Candidate)
    (level : String) where
  first : StopPlan
  targets : List SignalTarget
  rr1 : Option ℚ
  rr2 : Option ℚ
  total : ℚ
  factors : List (String × ℚ)
  grade : Grade
  trapM : ℚ
  final : StopPlan
  finalRr1 : Option ℚ
  finalRr2 : Option ℚ
  atr_pos : 0 < ctx.atr
  level_mem : level ∈ stopLevels
  first_ok : computeStop N w c ctx.atr level
    { swingAnchor := computeSwingAnchor ctx.df ctx.atr c.bullish
      entry := some (ctx.entryState c).2 } = .ok first
  targets_ok : computeTargets N w c (ctx.entryState c).2 = .ok targets
  geometry : directionInvariantOk c.direction (ctx.entryState c).2 first.stop
    (targets.map SignalTarget.price) = true
  rr1_ok : netRr N w (ctx.entryState c).2 first.stop (targetPrice targets 0) = .ok rr1
  rr2_ok : netRr N w (ctx.entryState c).2 first.stop (targetPrice targets 1) = .ok rr2
  grade_ok : gradeSignal (max 0 (min 100 (total + patternBaseScore w c.name))) rr1 rr2
    (htfAligned c ctx.trend) (htfCounter c ctx.trend) ctx.aMin (some (widthPct c)) =
      .ok (some grade)
  trapM_ok : trapStopMultiplier (quantTrapRisk ctx.df c.przLow c.przHigh c.bullish
    w.tuning.quantTrapLookback).score = .ok trapM
  final_ok : ctx.finalStop N w c level (ctx.entryState c).2
    (computeSwingAnchor ctx.df ctx.atr c.bullish) trapM grade = .ok final
  finalRr1_ok : netRr N w (ctx.entryState c).2 final.stop (targetPrice targets 0) = .ok finalRr1
  finalRr2_ok : netRr N w (ctx.entryState c).2 final.stop (targetPrice targets 1) = .ok finalRr2

/-- The signal a scoring publishes. -/
def Scoring.signal (s : Scoring N w ctx c level) : Signal :=
  ctx.publish N c level (ctx.entryState c).1 (ctx.entryState c).2 s.final s.targets s.finalRr1
    s.finalRr2 (max 0 (min 100 (s.total + patternBaseScore w c.name))) s.factors s.grade
    (quantTrapRisk ctx.df c.przLow c.przHigh c.bullish w.tuning.quantTrapLookback).score

/-- A stop that was returned: the zone of its candidate, and the placement it comes from. -/
theorem computeStop_inv {atr : ℚ} {a : StopArgs} {r : StopPlan}
    (h : computeStop N w c atr level a = .ok r) :
    (0 < c.przLow ∧ 0 < c.przHigh) ∧ placeStop N w c atr level a = .ok r ∧ 0 < r.stop := by
  unfold computeStop at h
  obtain ⟨_, -, h⟩ := bind_ok.mp h
  obtain ⟨_, hzone, h⟩ := bind_ok.mp h
  obtain ⟨_, -, h⟩ := bind_ok.mp h
  obtain ⟨plan, hplan, h⟩ := bind_ok.mp h
  obtain ⟨_, -, h⟩ := bind_ok.mp h
  obtain ⟨_, -, h⟩ := bind_ok.mp h
  obtain ⟨_, hstop, h⟩ := bind_ok.mp h
  obtain rfl := Except.ok.inj h
  exact ⟨require_ok.mp hzone, hplan, require_ok.mp hstop⟩

/-- What a scoring that published a signal went through, with any binding of `grade`. -/
theorem scoreCandidate_inv {grade : GradeFn}
    (h : scoreCandidate N w ctx c level grade = .ok (some S)) :
    ∃ first targets rr1 rr2 total factors g trapM final finalRr1 finalRr2,
      0 < ctx.atr ∧ level ∈ stopLevels ∧
      computeStop N w c ctx.atr level
        { swingAnchor := computeSwingAnchor ctx.df ctx.atr c.bullish
          entry := some (ctx.entryState c).2 } = .ok first ∧
      computeTargets N w c (ctx.entryState c).2 = .ok targets ∧
      directionInvariantOk c.direction (ctx.entryState c).2 first.stop
        (targets.map SignalTarget.price) = true ∧
      netRr N w (ctx.entryState c).2 first.stop (targetPrice targets 0) = .ok rr1 ∧
      netRr N w (ctx.entryState c).2 first.stop (targetPrice targets 1) = .ok rr2 ∧
      confluenceScore w ctx.df ctx.last c ctx.atr ctx.rsi ctx.trend ctx.divergences ctx.paScale
        ctx.momentum = .ok (total, factors) ∧
      grade (max 0 (min 100 (total + patternBaseScore w c.name))) rr1 rr2 (htfAligned c ctx.trend)
        (htfCounter c ctx.trend) ctx.aMin (some (widthPct c)) = .ok (some g) ∧
      trapStopMultiplier (quantTrapRisk ctx.df c.przLow c.przHigh c.bullish
        w.tuning.quantTrapLookback).score = .ok trapM ∧
      ctx.finalStop N w c level (ctx.entryState c).2
        (computeSwingAnchor ctx.df ctx.atr c.bullish) trapM g = .ok final ∧
      netRr N w (ctx.entryState c).2 final.stop (targetPrice targets 0) = .ok finalRr1 ∧
      netRr N w (ctx.entryState c).2 final.stop (targetPrice targets 1) = .ok finalRr2 ∧
      S = ctx.publish N c level (ctx.entryState c).1 (ctx.entryState c).2 final targets finalRr1
        finalRr2 (max 0 (min 100 (total + patternBaseScore w c.name))) factors g
        (quantTrapRisk ctx.df c.przLow c.przHigh c.bullish w.tuning.quantTrapLookback).score := by
  unfold scoreCandidate at h
  obtain ⟨_, hatr, h⟩ := bind_ok.mp h
  obtain ⟨_, hlevel, h⟩ := bind_ok.mp h
  obtain ⟨-, h⟩ := unless_none_ok.mp h
  obtain ⟨first, hfirst, h⟩ := bind_ok.mp h
  obtain ⟨-, h⟩ := unless_none_ok.mp h
  obtain ⟨-, h⟩ := unless_none_ok.mp h
  obtain ⟨targets, htargets, h⟩ := bind_ok.mp h
  obtain ⟨hskip, h⟩ := unless_none_ok.mp h
  have hgeo := Bool.of_not_eq_false fun hf => hskip (congrArg (!·) hf)
  obtain ⟨rr1, hrr1, h⟩ := bind_ok.mp h
  obtain ⟨rr2, hrr2, h⟩ := bind_ok.mp h
  obtain ⟨⟨total, factors⟩, htotal, h⟩ := bind_ok.mp h
  obtain ⟨graded, hgraded, h⟩ := bind_ok.mp h
  cases graded with
  | none => simp [pure, Except.pure] at h
  | some g =>
    obtain ⟨trapM, htrap, h⟩ := bind_ok.mp h
    obtain ⟨final, hfinal, h⟩ := bind_ok.mp h
    obtain ⟨finalRr1, hfinal1, h⟩ := bind_ok.mp h
    obtain ⟨finalRr2, hfinal2, h⟩ := bind_ok.mp h
    have hS := (Option.some.inj (Except.ok.inj h)).symm
    exact ⟨first, targets, rr1, rr2, total, factors, g, trapM, final, finalRr1, finalRr2,
      require_ok.mp hatr, require_ok.mp hlevel, hfirst, htargets, hgeo, hrr1, hrr2, htotal,
      hgraded, htrap, hfinal, hfinal1, hfinal2, hS⟩

theorem scoreCandidate_some (h : scoreCandidate N w ctx c level = .ok (some S)) :
    ∃ s : Scoring N w ctx c level, S = s.signal := by
  obtain ⟨first, targets, rr1, rr2, total, factors, g, trapM, final, finalRr1, finalRr2, hatr,
    hlevel, hfirst, htargets, hgeo, hrr1, hrr2, -, hgraded, htrap, hfinal, hfinal1, hfinal2, rfl⟩ :=
    scoreCandidate_inv h
  exact ⟨⟨first, targets, rr1, rr2, total, factors, g, trapM, final, finalRr1, finalRr2, hatr,
    hlevel, hfirst, htargets, hgeo, hrr1, hrr2, hgraded, htrap, hfinal, hfinal1, hfinal2⟩, rfl⟩

theorem mem_scoreAll {l : List Signal} {grade : GradeFn}
    (h : scoreAll N w ctx level cs grade = .ok l) (hs : S ∈ l) :
    ∃ c ∈ cs, scoreCandidate N w ctx c level grade = .ok (some S) := by
  induction cs generalizing l with
  | nil =>
    cases h
    simp at hs
  | cons c cs ih =>
    obtain ⟨s, hc, h⟩ := bind_ok.mp h
    obtain ⟨rest, hrest, h⟩ := bind_ok.mp h
    simp only [pure, Except.pure, Except.ok.injEq] at h
    subst h
    rcases List.mem_append.mp hs with hs | hs
    · cases s with
      | none => simp at hs
      | some s =>
        obtain rfl : S = s := by simpa using hs
        exact ⟨c, by simp, hc⟩
    · obtain ⟨d, hd, hsd⟩ := ih hrest hs
      exact ⟨d, by simp [hd], hsd⟩

theorem filterCandidates_subset {price atr : ℚ} {cts : Option (List ℤ)} {v : List Candidate}
    {r : List Rejection} (h : filterCandidates N w price atr cts cs = .ok (v, r)) : v ⊆ cs := by
  induction cs generalizing v r with
  | nil =>
    cases h
    exact List.Subset.refl _
  | cons c cs ih =>
    obtain ⟨reason, -, h⟩ := bind_ok.mp h
    obtain ⟨⟨v', r'⟩, hrest, h⟩ := bind_ok.mp h
    have hsub := ih hrest
    cases reason with
    | none =>
      cases h
      exact List.cons_subset_cons c hsub
    | some reason =>
      cases h
      exact List.subset_cons_of_subset c hsub

theorem rankLoop_mem {l : List Signal} {best : Option Signal} {r : ℤ × ℤ × Bool}
    (h : rankLoop best r l = some S) : best = some S ∨ S ∈ l := by
  induction l generalizing best r with
  | nil => exact Or.inl h
  | cons s l ih =>
    unfold rankLoop at h
    split_ifs at h with hr
    · rcases ih h with hs | hs
      · exact Or.inr (by simp [Option.some.inj hs])
      · exact Or.inr (by simp [hs])
    · rcases ih h with hs | hs
      · exact Or.inl hs
      · exact Or.inr (by simp [hs])

theorem rankSignals_mem {l : List Signal} (h : rankSignals l = some S) : S ∈ l := by
  rcases rankLoop_mem h with h | h
  · simp at h
  · exact h

/-- The stability check returns the signal but for its stability score. -/
theorem applyStability_some {best : Option Signal} {detector : Option StabilityDetector}
    (h : applyStability w df best detector = some S) :
    ∃ T k, best = some T ∧ S = T.withStability k := by
  cases best with
  | none => simp [applyStability] at h
  | some T =>
    cases detector with
    | none =>
      obtain rfl : T = S := by simpa [applyStability] using h
      exact ⟨T, T.stabilityScore, rfl, rfl⟩
    | some detect =>
      unfold applyStability at h
      simp only at h
      split_ifs at h
      · obtain rfl : T = S := by simpa using h
        exact ⟨T, T.stabilityScore, rfl, rfl⟩
      · exact ⟨T, _, rfl, (Option.some.inj h).symm⟩

/-- Where a returned signal comes from: a candidate of the list scored in the frame's context. -/
structure Origin (N : Numerics) (w : Process) (i : BuildInput) (S : Signal) (ctx : ScoreContext)
    (c : Candidate) : Prop where
  prepared : ∃ df last, i.df = some df ∧ df.rows.getLast? = some last ∧
    prepareScoreContext N w df last i.interval i.divergences i.stopBufferAtr = .ok (some ctx)
  mem : c ∈ i.candidates
  scored : ∃ T k, scoreCandidate N w ctx c i.stopLevel = .ok (some T) ∧ S = T.withStability k

/-- A signal comes from a candidate scored in the frame's context, under any `grade`. -/
theorem buildSignal_scored {grade : GradeFn} (h : buildSignal N w i grade = .ok (some S)) :
    ∃ ctx c, (∃ df last, i.df = some df ∧ df.rows.getLast? = some last ∧
      prepareScoreContext N w df last i.interval i.divergences i.stopBufferAtr = .ok (some ctx)) ∧
      c ∈ i.candidates ∧ ∃ T k, scoreCandidate N w ctx c i.stopLevel grade = .ok (some T) ∧
        S = T.withStability k := by
  unfold buildSignal at h
  obtain ⟨_, -, h⟩ := bind_ok.mp h
  obtain ⟨_, -, h⟩ := bind_ok.mp h
  split at h
  · simp [pure, Except.pure] at h
  · next df hdf =>
    obtain ⟨-, h⟩ := unless_none_ok.mp h
    split at h
    · simp at h
    · next last hlast =>
      obtain ⟨ctx?, hctx, h⟩ := bind_ok.mp h
      cases ctx? with
      | none => simp [pure, Except.pure] at h
      | some ctx =>
        obtain ⟨⟨valid, rejected⟩, hvalid, h⟩ := bind_ok.mp h
        obtain ⟨scored, hscored, h⟩ := bind_ok.mp h
        simp only [pure, Except.pure, Except.ok.injEq] at h
        obtain ⟨T, k, hT, hS⟩ := applyStability_some h
        obtain ⟨c, hc, hcT⟩ := mem_scoreAll hscored (rankSignals_mem hT)
        exact ⟨ctx, c, ⟨df, last, hdf, hlast, hctx⟩, filterCandidates_subset hvalid hc, T, k, hcT, hS⟩

theorem buildSignal_some (h : buildSignal N w i = .ok (some S)) : ∃ ctx c, Origin N w i S ctx c := by
  obtain ⟨ctx, c, hprepared, hc, hscored⟩ := buildSignal_scored h
  exact ⟨ctx, c, hprepared, hc, hscored⟩

/-- The levels of a published signal, whatever `grade` is bound to. -/
structure Published (N : Numerics) (w : Process) (ctx : ScoreContext) (c : Candidate)
    (level : String) (S : Signal) : Prop where
  stops : ∃ a r, computeStop N w c ctx.atr level a = .ok r ∧ S.stopLoss = r.stop
  targets : computeTargets N w c (ctx.entryState c).2 = .ok S.targets
  geometry : ∃ stop, directionInvariantOk c.direction (ctx.entryState c).2 stop
    (S.targets.map SignalTarget.price) = true
  direction : S.direction = c.direction

theorem scoreCandidate_published {grade : GradeFn}
    (h : scoreCandidate N w ctx c level grade = .ok (some S)) : Published N w ctx c level S := by
  obtain ⟨first, targets, _, _, _, _, _, _, final, _, _, -, -, -, htargets, hgeo, -, -, -, -, -,
    hfinal, -, -, rfl⟩ := scoreCandidate_inv h
  exact ⟨⟨_, final, hfinal, rfl⟩, htargets, ⟨_, hgeo⟩, rfl⟩

end Pyharmonics
