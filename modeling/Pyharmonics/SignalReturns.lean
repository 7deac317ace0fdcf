import Pyharmonics.SignalContracts

/-! When `build_signal` returns: the checks of one candidate, of the frame, and of the whole call. -/
namespace Pyharmonics

variable {w : Process} {ctx : ScoreContext} {c : Candidate} {level : String}
  {i : BuildInput} {atr price : ℚ} {df : Frame} {last : Row} {cts : Option (List ℤ)}
  {cs : List Candidate} {sqrt : ℚ → ℚ} {resample : String → List (ℤ × ℚ) → List ℚ}
  {unknown : String → Bool} {α : Type}

namespace ScoreContext

/-- The score a candidate is graded on. -/
def score (ctx : ScoreContext) (w : Process) (c : Candidate) : ℚ :=
  let factors := confluenceFactors w ctx.df ctx.last c ctx.atr ctx.rsi ctx.trend ctx.divergences
    ctx.paScale ctx.momentum
  max 0 (min 100 ((factors.map Prod.snd).sum + patternBaseScore w c.name))

/-- The arguments of the stop that is graded. -/
def plainArgs (ctx : ScoreContext) (c : Candidate) : StopArgs :=
  { swingAnchor := computeSwingAnchor ctx.df ctx.atr c.bullish, entry := some (ctx.entryPrice c) }

/-- The arguments of the stop that is published. -/
def wideArgs (ctx : ScoreContext) (c : Candidate) (g : Grade) : StopArgs :=
  { ctx.plainArgs c with regime := ctx.regime, grade := some g, stopBufferAtr := ctx.stopBufferAtr }

/-- The gates in front of the stop, and those behind it. -/
def authentic (ctx : ScoreContext) (w : Process) (c : Candidate) : Prop :=
  (if c.formed then w.getTuning.authenticityVeto else w.getTuning.authenticityHalve) ≤
    ctx.volumeAuthenticity

def vetoed (ctx : ScoreContext) (w : Process) (c : Candidate) : Prop :=
  (quantTrapRisk ctx.df c.przLow c.przHigh c.bullish w.tuning.quantTrapLookback).veto = true ∨
    adverseMomentumVeto w c.direction ctx.sharpe = true

/-- The first two targets are fit for their ratios under a stop. -/
def RatiosFit (ctx : ScoreContext) (w : Process) (c : Candidate) (aPrice stop : ℚ) : Prop :=
  ∀ fib ∈ [w.getTuning.fibTp1, w.getTuning.fibTp2], RatioFits w.getTuning.toTuningFields
    (ctx.entryPrice c) stop (targetAt c aPrice (ctx.entryPrice c) fib)

/-- The grade under the first stop. -/
def gradeUnder (ctx : ScoreContext) (N : Numerics) (w : Process) (c : Candidate)
    (aPrice stop : ℚ) : Option Grade :=
  let t := w.getTuning.toTuningFields
  let ratio (fib : ℚ) : Option ℚ :=
    netRatio N t (ctx.entryPrice c) stop (targetAt c aPrice (ctx.entryPrice c) fib)
  gradeOf (ctx.score w c) (ratio t.fibTp1) (ratio t.fibTp2) (htfAligned c ctx.trend)
    (htfCounter c ctx.trend) ctx.aMin (some (widthPct c))

/-- What a graded candidate needs: its published stop fits, and so do the ratios under it. -/
def WideFits (ctx : ScoreContext) (w : Process) (c : Candidate) (level : String) (aPrice : ℚ)
    (g : Grade) : Prop :=
  ∃ p, plannedStop w c ctx.atr level (ctx.wideArgs c g) = some p ∧ p.Fits ∧
    ctx.RatiosFit w c aPrice p.stop

/-- What a candidate with a sound geometry needs. -/
structure GateFits (ctx : ScoreContext) (N : Numerics) (w : Process) (c : Candidate)
    (level : String) (aPrice : ℚ) (first : PlannedStop) : Prop where
  ratios : ctx.RatiosFit w c aPrice first.stop
  aMin : ctx.aMin ≤ 100
  wide : ∀ g, ctx.gradeUnder N w c aPrice first.stop = some g → ctx.WideFits w c level aPrice g

/-- What a candidate needs to be scored without an exception, gate by gate. -/
def ScoreFits (ctx : ScoreContext) (N : Numerics) (w : Process) (c : Candidate)
    (level : String) : Prop :=
  ctx.authentic w c → ∃ first, plannedStop w c ctx.atr level (ctx.plainArgs c) = some first ∧
    first.Fits ∧ (¬ ctx.vetoed w c → ∃ aPrice, Ladder w.getTuning.toTuningFields c aPrice ∧
      (directionInvariantOk c.direction (ctx.entryPrice c) first.stop
        (ladderPrices w.getTuning.toTuningFields c aPrice (ctx.entryPrice c)) = true →
          ctx.GateFits N w c level aPrice first))

/-- What a prepared context satisfies. -/
structure Sound (ctx : ScoreContext) : Prop where
  atr_pos : 0 < ctx.atr
  price_pos : 0 < ctx.price
  aMin_pos : 0 < ctx.aMin
  paScale : 0 ≤ ctx.paScale ∧ ctx.paScale ≤ 2
  rsi : 0 ≤ ctx.rsi ∧ ctx.rsi ≤ 100

theorem entryPrice_cases (ctx : ScoreContext) (c : Candidate) :
    ctx.entryPrice c = ctx.price ∨ ctx.entryPrice c = c.przHigh ∨ ctx.entryPrice c = c.przLow := by
  unfold entryPrice entryState
  simp only
  split_ifs <;> simp

theorem Sound.entryPrice_pos (h : ctx.Sound) (hc : c.Positive) : 0 < ctx.entryPrice c := by
  rcases ctx.entryPrice_cases c with he | he | he
  · exact he ▸ h.price_pos
  · exact he ▸ hc.2.2
  · exact he ▸ hc.2.1

theorem score_mem (ctx : ScoreContext) (w : Process) (c : Candidate) :
    0 ≤ ctx.score w c ∧ ctx.score w c ≤ 100 :=
  ⟨le_max_left _ _, max_le (by norm_num) (min_le_left _ _)⟩

/-- The confluence score of a sound context raises nothing. -/
theorem Sound.confluence (h : ctx.Sound) (hc : c.Positive) :
    confluenceScore w ctx.df ctx.last c ctx.atr ctx.rsi ctx.trend ctx.divergences ctx.paScale
      ctx.momentum = .ok (((confluenceFactors w ctx.df ctx.last c ctx.atr ctx.rsi ctx.trend
        ctx.divergences ctx.paScale ctx.momentum).map Prod.snd).sum,
          confluenceFactors w ctx.df ctx.last c ctx.atr ctx.rsi ctx.trend ctx.divergences
            ctx.paScale ctx.momentum) := by
  unfold confluenceScore
  simp only [require_bind_ok]
  exact ⟨hc.2, ⟨ctx.df.prices _ (by simp), ctx.df.prices _ (by simp)⟩, h.paScale, h.rsi,
    h.atr_pos.le, rfl⟩

end ScoreContext

/-- The two ratios of a target list, and what goes on with them. -/
theorem returns_ratios_bind {targets : List SignalTarget} {aPrice stop : ℚ}
    (ht : targets.map SignalTarget.price =
      ladderPrices w.getTuning.toTuningFields c aPrice (ctx.entryPrice c))
    (he : 0 < ctx.entryPrice c) (hs : 0 < stop) {f : Option ℚ → Option ℚ → Except PyError α} :
    Returns (do
      let rr1 ← netRr (.decimal sqrt resample unknown) w (ctx.entryPrice c) stop
        (targetPrice targets 0)
      let rr2 ← netRr (.decimal sqrt resample unknown) w (ctx.entryPrice c) stop
        (targetPrice targets 1)
      f rr1 rr2) ↔ ctx.RatiosFit w c aPrice stop ∧
        Returns (f (netRatio (.decimal sqrt resample unknown) w.getTuning.toTuningFields
          (ctx.entryPrice c) stop (targetAt c aPrice (ctx.entryPrice c) w.getTuning.fibTp1))
        (netRatio (.decimal sqrt resample unknown) w.getTuning.toTuningFields
          (ctx.entryPrice c) stop (targetAt c aPrice (ctx.entryPrice c) w.getTuning.fibTp2))) := by
  have hat : ∀ k, targetPrice targets k = ((targets.map SignalTarget.price)[k]?).getD 0 := by
    intro k
    rw [targetPrice, List.getElem?_map]
  have h0 : targetPrice targets 0 =
      targetAt c aPrice (ctx.entryPrice c) w.getTuning.fibTp1 := by
    rw [hat, ht]
    rfl
  have h1 : targetPrice targets 1 =
      targetAt c aPrice (ctx.entryPrice c) w.getTuning.fibTp2 := by
    rw [hat, ht]
    rfl
  rw [h0, h1, returns_netRr_bind he hs, returns_netRr_bind he hs]
  unfold ScoreContext.RatiosFit
  simp only [List.forall_mem_cons, List.not_mem_nil, false_implies, implies_true, and_true,
    and_assoc]

/-- The second pass over the stop and what goes on with it. -/
theorem returns_wide_iff (h : ctx.Sound) (hc : c.Positive) (hl : level ∈ stopLevels)
    {targets : List SignalTarget} {aPrice : ℚ} (ht : targets.map SignalTarget.price =
      ladderPrices w.getTuning.toTuningFields c aPrice (ctx.entryPrice c)) (g : Grade)
    {f : StopPlan → Option ℚ → Option ℚ → α} :
    Returns (do
      let trapM ← trapStopMultiplier (quantTrapRisk ctx.df c.przLow c.przHigh c.bullish
        w.tuning.quantTrapLookback).score
      let final ← ctx.finalStop (.decimal sqrt resample unknown) w c level (ctx.entryPrice c)
        (computeSwingAnchor ctx.df ctx.atr c.bullish) trapM g
      let rr1 ← netRr (.decimal sqrt resample unknown) w (ctx.entryPrice c) final.stop
        (targetPrice targets 0)
      let rr2 ← netRr (.decimal sqrt resample unknown) w (ctx.entryPrice c) final.stop
        (targetPrice targets 1)
      return f final rr1 rr2) ↔ ctx.WideFits w c level aPrice g := by
  rw [trapStopMultiplier_eq, ok_bind]
  refine returns_stop_bind hl hc h.atr_pos ?_
  intro final p hfits hp
  rw [hp]
  refine (returns_ratios_bind ht (h.entryPrice_pos hc) hfits.stop_pos).trans ?_
  exact and_iff_left returns_pure

/-- A context scores a candidate without an exception exactly when every gate it reaches fits. -/
theorem scoreCandidate_returns_iff (h : ctx.Sound) (hc : c.Positive) (hl : level ∈ stopLevels) :
    Returns (scoreCandidate (.decimal sqrt resample unknown) w ctx c level) ↔
      ctx.ScoreFits (.decimal sqrt resample unknown) w c level := by
  have he := h.entryPrice_pos hc
  unfold scoreCandidate
  rw [returns_require, and_iff_right h.atr_pos, returns_require, and_iff_right hl]
  rw [returns_ite]
  refine imp_congr not_lt ?_
  apply returns_stop_bind hl hc h.atr_pos
  intro first p hfits hp
  rw [returns_ite]
  have hveto : ¬ ctx.vetoed w c ↔ ¬ (quantTrapRisk ctx.df c.przLow c.przHigh c.bullish
      w.tuning.quantTrapLookback).veto = true ∧ ¬ adverseMomentumVeto w c.direction ctx.sharpe := by
    rw [ScoreContext.vetoed, not_or]
  rw [hveto, and_imp]
  refine imp_congr Iff.rfl ?_
  rw [returns_ite]
  refine imp_congr Iff.rfl ?_
  apply returns_targets_bind
  intro targets aPrice ht
  change _ = ladderPrices _ c aPrice (ctx.entryPrice c) at ht
  rw [returns_ite]
  have hgeo : ¬ (!directionInvariantOk c.direction (ctx.entryState c).2 first.stop
      (targets.map SignalTarget.price)) = true ↔ directionInvariantOk c.direction
        (ctx.entryPrice c) p.stop (ladderPrices w.getTuning.toTuningFields c aPrice
          (ctx.entryPrice c)) = true := by
    rw [ht, hp]
    simp [ScoreContext.entryPrice]
  refine imp_congr hgeo ?_
  rw [hp]
  refine (returns_ratios_bind ht he hfits.stop_pos).trans ?_
  rw [h.confluence hc, ok_bind]
  refine Iff.trans (and_congr_right fun _ => returns_grade_bind (not_aligned_and_counter c ctx.trend)
    h.aMin_pos (ctx.score_mem w c)) ?_
  constructor
  · rintro ⟨hratios, haMin, hrest⟩
    refine ⟨hratios, haMin, ?_⟩
    intro g hg
    change gradeOf _ _ _ _ _ _ _ = some g at hg
    rw [hg] at hrest
    exact (returns_wide_iff h hc hl ht g).mp hrest
  · rintro ⟨hratios, haMin, hwide⟩
    refine ⟨hratios, haMin, ?_⟩
    split
    · exact returns_pure
    · next g hg => exact (returns_wide_iff h hc hl ht g).mpr (hwide g hg)

/-! The filter. -/

/-- The bars that closed after the completion of a candidate, when both are known. -/
def barsSince (c : Candidate) (cts : Option (List ℤ)) : Option ℤ :=
  match cts, c.times.getLast? with
  | some times, some dTime => some (Series.count (fun ct => dTime < ct) times)
  | _, _ => none

/-- The first reasons to reject a candidate, which need no stop. -/
def Early (w : Process) (c : Candidate) (price atr : ℚ) (cts : Option (List ℤ)) : Prop :=
  let t := w.getTuning
  (0 < atr ∧ t.maxPrzDistanceAtr * atr < |price - (c.przLow + c.przHigh) / 2|) ∨
    (∃ age ∈ barsSince c cts, t.maxDAgeBars < age) ∨
    (!c.formed ∧ (c.przHigh - c.przLow ≤ 0 ∨
      (0 < atr ∧ t.maxFormingPrzWidthAtr * atr < c.przHigh - c.przLow)))

/-- What a candidate needs to pass or fail the filter without an exception. -/
def FilterFits (w : Process) (c : Candidate) (price atr : ℚ) (cts : Option (List ℤ)) : Prop :=
  w.rejectionReason = .original → ¬ Early w c price atr cts →
    ∃ p, plannedStop w c atr "standard" {} = some p ∧ p.Fits ∧
      (¬ (if c.bullish then price < p.stop else p.stop < price) →
        ∃ aPrice, Ladder w.getTuning.toTuningFields c aPrice)

theorem rejectionReason_returns_iff (hatr : 0 < atr) (hc : c.Positive) :
    Returns (rejectionReason (.decimal sqrt resample unknown) w c price atr cts) ↔
      (¬ Early w c price atr cts → ∃ p, plannedStop w c atr "standard" {} = some p ∧ p.Fits ∧
        (¬ (if c.bullish then price < p.stop else p.stop < price) →
          ∃ aPrice, Ladder w.getTuning.toTuningFields c aPrice)) := by
  unfold rejectionReason Early
  simp only [not_or, and_imp]
  rw [returns_ite]
  refine imp_congr Iff.rfl ?_
  rw [returns_ite]
  refine imp_congr Iff.rfl ?_
  rw [returns_ite]
  refine imp_congr Iff.rfl ?_
  rw [if_pos hatr]
  apply returns_stop_bind (by decide) hc hatr
  intro s p hfits hp
  rw [pure_bind, returns_ite]
  have hviolated : ¬ (if c.bullish then decide (price < s.stop) else decide (s.stop < price)) = true ↔
      ¬ (if c.bullish then price < p.stop else p.stop < price) := by
    rw [hp]
    cases c.bullish <;> simp
  refine imp_congr hviolated ?_
  refine (returns_targets_bind (Q := fun _ => True) ?_).trans (by simp only [and_true])
  intro targets aPrice _
  rw [returns_ite]
  exact iff_of_true (fun _ => returns_pure) trivial

theorem boundRejectionReason_returns_iff (hatr : 0 < atr) (hc : c.Positive) :
    Returns (boundRejectionReason (.decimal sqrt resample unknown) w c price atr cts) ↔
      FilterFits w c price atr cts := by
  unfold boundRejectionReason FilterFits
  cases hb : w.rejectionReason with
  | original => simpa using rejectionReason_returns_iff hatr hc
  | noop => simp

/-- The filter returns when it returns for every candidate, and keeps those without a reason. -/
theorem filterCandidates_returns_iff {N : Numerics} {price atr : ℚ} :
    Returns (filterCandidates N w price atr cts cs) ↔
      ∀ c ∈ cs, Returns (boundRejectionReason N w c price atr cts) := by
  induction cs with
  | nil => simp [filterCandidates]
  | cons c cs ih =>
    rw [filterCandidates, returns_bind, List.forall_mem_cons, ← ih]
    constructor
    · rintro ⟨reason, hr, hrest⟩
      obtain ⟨⟨v, rj⟩, hv, -⟩ := returns_bind.mp hrest
      exact ⟨⟨reason, hr⟩, _, hv⟩
    · rintro ⟨⟨reason, hr⟩, ⟨v, rj⟩, hv⟩
      refine ⟨reason, hr, returns_bind.mpr ⟨(v, rj), hv, ?_⟩⟩
      cases reason with
      | none => exact returns_ok
      | some reason => exact returns_ok

theorem mem_filterCandidates {N : Numerics} {v : List Candidate} {rj : List Rejection}
    (h : filterCandidates N w price atr cts cs = .ok (v, rj)) :
    c ∈ v ↔ c ∈ cs ∧ boundRejectionReason N w c price atr cts = .ok none := by
  induction cs generalizing v rj with
  | nil =>
    cases h
    simp
  | cons d cs ih =>
    obtain ⟨reason, hr, h⟩ := bind_ok.mp h
    obtain ⟨⟨v', rj'⟩, hrest, h⟩ := bind_ok.mp h
    have hv := ih hrest
    cases reason with
    | none =>
      cases h
      rw [List.mem_cons, List.mem_cons, hv]
      constructor
      · rintro (rfl | h)
        · exact ⟨Or.inl rfl, hr⟩
        · exact ⟨Or.inr h.1, h.2⟩
      · rintro ⟨rfl | h, hn⟩
        · exact Or.inl rfl
        · exact Or.inr ⟨h, hn⟩
    | some reason =>
      cases h
      rw [List.mem_cons, hv]
      constructor
      · rintro ⟨h, hn⟩
        exact ⟨Or.inr h, hn⟩
      · rintro ⟨rfl | h, hn⟩
        · rw [hr] at hn
          cases hn
        · exact ⟨h, hn⟩

theorem scoreAll_returns_iff {N : Numerics} : Returns (scoreAll N w ctx level cs) ↔
    ∀ c ∈ cs, Returns (scoreCandidate N w ctx c level) := by
  induction cs with
  | nil => simp [scoreAll]
  | cons c cs ih =>
    rw [scoreAll, returns_bind, List.forall_mem_cons, ← ih]
    constructor
    · rintro ⟨s, hs, hrest⟩
      obtain ⟨l, hl, -⟩ := returns_bind.mp hrest
      exact ⟨⟨s, hs⟩, l, hl⟩
    · rintro ⟨⟨s, hs⟩, l, hl⟩
      exact ⟨s, hs, returns_bind.mpr ⟨l, hl, returns_pure⟩⟩

/-! The context. -/

/-- A candle average needs a second bar. -/
theorem computeAtr_returns_iff : Returns (computeAtr w df) ↔ 2 ≤ df.length := by
  unfold computeAtr
  have hwindow : 1 ≤ w.getTuning.atrWindow :=
    w.getTuning.intFields_pos (by simp [TuningFields.intFields])
  have hcols : ∀ c ∈ ["high", "low", "close"], c ∈ df.columns := by
    intro c hc
    exact df.prices c (by simp at hc ⊢; tauto)
  simp only
  rw [returns_require, and_iff_right hcols, returns_require, and_iff_right hwindow,
    returns_require, returns_ite]
  exact and_iff_left fun _ => returns_pure

theorem rsi_bounds {gain loss : ℚ} (hg : 0 ≤ gain) (hl : 0 ≤ loss) :
    0 ≤ 100 - 100 / (1 + gain / loss) ∧ 100 - 100 / (1 + gain / loss) ≤ 100 := by
  have hratio := div_nonneg hg hl
  constructor
  · rw [sub_nonneg, div_le_iff₀ (by linarith)]
    linarith
  · have : 0 ≤ 100 / (1 + gain / loss) := by positivity
    linarith

/-- The weight of a new value in a smoothed move. -/
theorem alpha_mem {n : ℤ} (hn : 1 ≤ n) : (0 : ℚ) < 1 / n ∧ (1 : ℚ) / n ≤ 1 := by
  have hn : (1 : ℚ) ≤ n := by exact_mod_cast hn
  exact ⟨by positivity, by rwa [div_le_one (by linarith)]⟩

theorem rsiSeries_mem {window : ℤ} (hw : 1 ≤ window) {closes : List ℚ} {x : ℚ}
    (h : some x ∈ rsiSeries window closes) : 0 ≤ x ∧ x ≤ 100 := by
  obtain ⟨h0, h1⟩ := alpha_mem hw
  unfold rsiSeries at h
  split_ifs at h with hn
  · simp at h
  · rcases List.mem_cons.mp h with h | h
    · cases h
    · obtain ⟨gain, hgain, loss, hloss, hx⟩ := Series.exists_of_mem_zipWith h
      split_ifs at hx with hz
      obtain rfl := Option.some.inj hx
      exact rsi_bounds (Series.ewm_nonneg h0.le h1 (by simp) _ hgain)
        (Series.ewm_nonneg h0.le h1 (by simp) _ hloss)

theorem computeRsi_ok {closes : List ℚ} (h : closes ≠ []) :
    ∃ x, computeRsi w closes = .ok x ∧ 0 ≤ x ∧ x ≤ 100 := by
  have hw : 1 ≤ w.getTuning.rsiWindow :=
    w.getTuning.intFields_pos (by simp [TuningFields.intFields])
  unfold computeRsi
  simp only [require_bind_ok]
  cases hlast : (rsiSeries w.getTuning.rsiWindow closes).getLast? with
  | none =>
    rw [List.getLast?_eq_none_iff, rsiSeries, if_neg h] at hlast
    cases hlast
  | some value =>
    cases value with
    | none =>
      refine ⟨_, ⟨hw, rfl⟩, ?_⟩
      split_ifs <;> norm_num
    | some x => exact ⟨x, ⟨hw, rfl⟩, rsiSeries_mem hw (List.mem_of_getLast? hlast)⟩

/-- The rule of the interval, where it is used, is a frequency pandas knows. -/
def KnownRule (N : Numerics) (w : Process) (df : Frame) (interval : String) : Prop :=
  ∀ rule, w.getTuning.htfRule.get? interval = some rule → "dts" ∈ df.columns →
    ¬ N.unknownRule rule = true

theorem htfTrend_returns_iff {N : Numerics} {interval : String} (hi : 0 < interval.length) :
    Returns (htfTrend N w df interval) ↔ KnownRule N w df interval := by
  unfold htfTrend KnownRule
  simp only
  rw [returns_require, and_iff_right hi]
  cases hrule : w.getTuning.htfRule.get? interval with
  | none => simp
  | some rule =>
    by_cases hdts : "dts" ∈ df.columns
    · simp only [hdts, not_true_eq_false, if_false, Option.some.injEq, forall_eq', forall_const]
      rw [returns_bind]
      constructor
      · rintro ⟨_, h, -⟩
        exact refuse_ok.mp h
      · intro h
        refine ⟨(), refuse_ok.mpr h, ?_⟩
        rw [returns_ite]
        exact fun _ => returns_pure
    · simp [hdts]

theorem prepareScoreContext_returns_iff {N : Numerics} {interval : String}
    {d : Option Divergences} {b : Option ℚ} (hi : 0 < interval.length)
    (hlast : df.rows.getLast? = some last) :
    Returns (prepareScoreContext N w df last interval d b) ↔
      2 ≤ df.length ∧ ∀ atr, computeAtr w df = .ok atr → 0 < atr → KnownRule N w df interval := by
  have hcloses : df.closes ≠ [] := by
    intro h
    have : df.rows = [] := List.map_eq_nil_iff.mp h
    rw [this] at hlast
    cases hlast
  obtain ⟨rsi, hrsi, -⟩ := computeRsi_ok (w := w) hcloses
  unfold prepareScoreContext
  simp only
  rw [returns_bind, ← computeAtr_returns_iff (w := w)]
  constructor
  · rintro ⟨atr, hatr, h⟩
    refine ⟨⟨atr, hatr⟩, ?_⟩
    intro x hx hpos
    obtain rfl : atr = x := Except.ok.inj (hatr.symm.trans hx)
    have h := returns_ite.mp h (not_le.mpr hpos)
    rw [hrsi, ok_bind] at h
    obtain ⟨trend, ht, -⟩ := returns_bind.mp h
    exact (htfTrend_returns_iff hi).mp ⟨trend, ht⟩
  · rintro ⟨⟨atr, hatr⟩, hrule⟩
    refine ⟨atr, hatr, returns_ite.mpr ?_⟩
    intro hpos
    rw [hrsi, ok_bind]
    obtain ⟨trend, ht⟩ := (htfTrend_returns_iff hi).mpr (hrule atr hatr (not_le.mp hpos))
    exact returns_bind.mpr ⟨trend, ht, returns_pure⟩

/-- The context of a frame with a positive last close is sound. -/
theorem prepareScoreContext_sound {N : Numerics} {interval : String} {d : Option Divergences}
    {b : Option ℚ} (hlast : df.rows.getLast? = some last) (hclose : 0 < last.close)
    (h : prepareScoreContext N w df last interval d b = .ok (some ctx)) : ctx.Sound := by
  have hcloses : df.closes ≠ [] := by
    intro h
    have : df.rows = [] := List.map_eq_nil_iff.mp h
    rw [this] at hlast
    cases hlast
  unfold prepareScoreContext at h
  obtain ⟨atr, -, h⟩ := bind_ok.mp h
  obtain ⟨hpos, h⟩ := unless_none_ok.mp h
  obtain ⟨rsi, hrsi, h⟩ := bind_ok.mp h
  obtain ⟨trend, -, h⟩ := bind_ok.mp h
  obtain ⟨x, hx, hbounds⟩ := computeRsi_ok (w := w) hcloses
  obtain rfl : rsi = x := Except.ok.inj (hrsi.symm.trans hx)
  cases h
  have hplain : (0 : ℚ) < w.getTuning.aGradeMin := by
    exact_mod_cast w.getTuning.intFields_pos (by simp [TuningFields.intFields])
  have hquant : (0 : ℚ) < w.getTuning.aGradeMinHighQuant := by
    exact_mod_cast w.getTuning.intFields_pos (by simp [TuningFields.intFields])
  refine ⟨not_le.mp hpos, hclose, ite_pos hquant hplain, ?_, hbounds⟩
  change 0 ≤ (if _ then (1 / 2 : ℚ) else 1) ∧ (if _ then (1 / 2 : ℚ) else 1) ≤ 2
  split <;> norm_num

/-! The call. -/

/-- What a call with enough candles needs. -/
structure CallFits (N : Numerics) (w : Process) (i : BuildInput) (df : Frame) (last : Row) :
    Prop where
  bars : 2 ≤ df.length
  rule : ∀ atr, computeAtr w df = .ok atr → 0 < atr → KnownRule N w df i.interval
  candidates : ∀ ctx,
    prepareScoreContext N w df last i.interval i.divergences i.stopBufferAtr = .ok (some ctx) →
      ∀ c ∈ i.candidates, FilterFits w c ctx.price ctx.atr df.closeTimes? ∧
        (boundRejectionReason N w c ctx.price ctx.atr df.closeTimes? = .ok none →
          ctx.ScoreFits N w c i.stopLevel)

/-- What `build_signal` needs to return: it holds of every call that stops at its first gate. -/
def InputFits (N : Numerics) (w : Process) (i : BuildInput) : Prop :=
  ∀ df ∈ i.df, ∀ last ∈ df.rows.getLast?, w.getTuning.minCandles ≤ df.length →
    i.candidates ≠ [] → CallFits N w i df last

/-- The filter and the scores of a whole list. -/
theorem candidates_returns_iff (h : ctx.Sound) (hc : ∀ c ∈ cs, c.Positive)
    (hl : level ∈ stopLevels) {f : List Signal → α} :
    Returns (do
      let (valid, _) ← filterCandidates (.decimal sqrt resample unknown) w ctx.price ctx.atr cts cs
      let scored ← scoreAll (.decimal sqrt resample unknown) w ctx level valid
      return f scored) ↔
      ∀ c ∈ cs, FilterFits w c ctx.price ctx.atr cts ∧
        (boundRejectionReason (.decimal sqrt resample unknown) w c ctx.price ctx.atr cts = .ok none →
          ctx.ScoreFits (.decimal sqrt resample unknown) w c level) := by
  rw [returns_bind]
  constructor
  · rintro ⟨⟨v, rj⟩, hv, hrest⟩ c hmem
    obtain ⟨scored, hscored, -⟩ := returns_bind.mp hrest
    refine ⟨(boundRejectionReason_returns_iff h.atr_pos (hc c hmem)).mp
      (filterCandidates_returns_iff.mp ⟨_, hv⟩ c hmem), ?_⟩
    intro hnone
    exact (scoreCandidate_returns_iff h (hc c hmem) hl).mp
      (scoreAll_returns_iff.mp ⟨_, hscored⟩ c ((mem_filterCandidates hv).mpr ⟨hmem, hnone⟩))
  · intro hfits
    have hfilter : Returns (filterCandidates (.decimal sqrt resample unknown) w ctx.price ctx.atr
        cts cs) := by
      refine filterCandidates_returns_iff.mpr ?_
      intro c hmem
      exact (boundRejectionReason_returns_iff h.atr_pos (hc c hmem)).mpr (hfits c hmem).1
    obtain ⟨⟨v, rj⟩, hv⟩ := hfilter
    have hscores : Returns (scoreAll (.decimal sqrt resample unknown) w ctx level v) := by
      refine scoreAll_returns_iff.mpr ?_
      intro c hmem
      obtain ⟨hmem, hnone⟩ := (mem_filterCandidates hv).mp hmem
      exact (scoreCandidate_returns_iff h (hc c hmem) hl).mpr ((hfits c hmem).2 hnone)
    obtain ⟨scored, hscored⟩ := hscores
    exact ⟨(v, rj), hv, returns_bind.mpr ⟨scored, hscored, returns_pure⟩⟩

/-- `build_signal` returns exactly on the inputs whose prices leave every contract it reaches room:
stops and invalidation points above half a unit of their last digit, first two targets above zero
with ratios above half a unit of theirs, an A threshold up to 100, three closing shares, two bars
and a known resampling rule. -/
theorem buildSignal_returns_iff (hp : PositiveInput i) (hl : i.stopLevel ∈ stopLevels)
    (hi : 0 < i.interval.length) :
    Returns (buildSignal (.decimal sqrt resample unknown) w i) ↔
      InputFits (.decimal sqrt resample unknown) w i := by
  unfold buildSignal InputFits
  rw [returns_require, and_iff_right hl, returns_require, and_iff_right hi]
  cases hdf : i.df with
  | none => simp
  | some df =>
    simp only [Option.mem_def, Option.some.injEq, forall_eq']
    rw [returns_ite, not_or, not_lt]
    cases hlast : df.rows.getLast? with
    | none =>
      have hempty : df.rows = [] := List.getLast?_eq_none_iff.mp hlast
      have hmin : 0 < w.getTuning.minCandles :=
        w.getTuning.intFields_pos (by simp [TuningFields.intFields])
      simp only [not_returns_error, reduceCtorEq, false_implies, implies_true, iff_true, imp_false,
        not_and]
      intro hle
      have : (df.length : ℤ) = 0 := by simp [Frame.length, hempty]
      omega
    | some last =>
      simp only [Option.some.injEq, forall_eq', and_imp]
      refine imp_congr Iff.rfl (imp_congr Iff.rfl ?_)
      have hclose : 0 < last.close :=
        (hp.frame df hdf last (List.mem_of_getLast? hlast)).2.2.2
      rw [returns_bind]
      constructor
      · rintro ⟨o, ho, h⟩
        obtain ⟨hbars, hrule⟩ := (prepareScoreContext_returns_iff hi hlast).mp ⟨o, ho⟩
        refine ⟨hbars, hrule, ?_⟩
        intro ctx hctx
        obtain rfl : o = some ctx := Except.ok.inj (ho.symm.trans hctx)
        exact (candidates_returns_iff (prepareScoreContext_sound hlast hclose hctx) hp.candidates
          hl).mp h
      · rintro ⟨hbars, hrule, hcandidates⟩
        obtain ⟨o, ho⟩ := (prepareScoreContext_returns_iff hi hlast).mpr ⟨hbars, hrule⟩
        refine ⟨o, ho, ?_⟩
        cases o with
        | none => exact returns_pure
        | some ctx =>
          exact (candidates_returns_iff (prepareScoreContext_sound hlast hclose ho) hp.candidates
            hl).mpr (hcandidates ctx ho)

theorem alternatingInput_positive : PositiveInput alternatingInput where
  frame := by decide +kernel
  candidates := by decide +kernel

theorem alternating_fits : InputFits plainNumerics defaultProcess alternatingInput := by
  obtain ⟨S, hS, -⟩ := alternating_signal
  exact (buildSignal_returns_iff alternatingInput_positive (by decide) (by decide)).mp ⟨_, hS⟩

/-- The alternating market with a pattern in front whose X lies closer to zero than its stop buffer
is wide. -/
def shallowInput : BuildInput :=
  { alternatingInput with candidates := [{ gartley with points := [1, 111, 102, 107, 100] }, gartley] }

/-- One candidate whose stop would end below zero takes the signal of the other with it. -/
theorem shallow_raises : PositiveInput shallowInput ∧
    ¬ Returns (buildSignal plainNumerics defaultProcess shallowInput) ∧
    ∃ S, buildSignal plainNumerics defaultProcess { shallowInput with candidates := [gartley] } =
      .ok (some S) := by
  refine ⟨⟨by decide +kernel, by decide +kernel⟩, ?_, ?_⟩
  · rintro ⟨o, h⟩
    have : (buildSignal plainNumerics defaultProcess shallowInput).toOption = none := by
      decide +kernel
    rw [h] at this
    cases this
  · obtain ⟨S, hS, -⟩ := alternating_signal
    exact ⟨S, hS⟩

end Pyharmonics
