import Pyharmonics.SignalEngineSpec

/-! The grade of a signal against the risk/reward published with it. -/
namespace Pyharmonics

variable {N : Numerics} {w : Process} {ctx : ScoreContext} {c : Candidate} {level : String}
  {S : Signal} {i : BuildInput} {t : TuningFields} {entry stop target gate : ℚ} {g : Grade}
  {sqrt : ℚ → ℚ} {resample : String → List (ℤ × ℚ) → List ℚ}

/-- A and B signals publish the risk/reward their grade requires. -/
def MeetsGate (S : Signal) : Prop :=
  S.grade = .a ∨ S.grade = .b →
    1 ≤ S.netRrTp1 ∧ 3 / 2 ≤ S.netRrTp2 ∧ (S.grade = .a → 2 ≤ S.netRrTp2)

/-- The targets a grade looks at and the ratio it wants of each. -/
def gates : Grade → List (ℕ × ℚ)
  | .a => [(0, 1), (1, 3 / 2), (1, 2)]
  | .b => [(0, 1), (1, 3 / 2)]
  | .c | .reference => []

/-- Round-trip costs per unit. -/
def cost (t : TuningFields) (entry : ℚ) : ℚ := 2 * (t.feeRate + t.slippageRate) * entry

/-- How much a stop may still widen before the ratio of a target rounds below its gate. -/
def slack (t : TuningFields) (entry risk target gate : ℚ) : ℚ :=
  (|target - entry| - cost t entry) / (gate - 1 / 20000) - cost t entry - risk

namespace ScoreContext

/-- The entry a candidate is traded from. -/
def entryPrice (ctx : ScoreContext) (c : Candidate) : ℚ := (ctx.entryState c).2

/-- Where the stop hangs before any buffer. -/
def anchor (ctx : ScoreContext) (w : Process) (c : Candidate) (level : String) :
    Except PyError StopAnchor :=
  stopAnchor w c level "" (computeSwingAnchor ctx.df ctx.atr c.bullish) (some (ctx.entryPrice c))

/-- The distance of the entry from a stop `mult` ATRs beyond the anchor. -/
def risk (ctx : ScoreContext) (N : Numerics) (c : Candidate) (anchor mult : ℚ) : ℚ :=
  |ctx.entryPrice c - N.round 8
    (if c.bullish then anchor - mult * ctx.atr else anchor + mult * ctx.atr)|

/-- The buffer of the pass that is graded. -/
def plainMult (base : ℚ) : ℚ := min base maxStopBufferMult

/-- The buffer of the pass that is published: the override, and the factor of the regime. -/
def wideMult (ctx : ScoreContext) (base : ℚ) : ℚ :=
  min (ctx.stopBufferAtr.getD base * regimeStopMultiplier ctx.regime) maxStopBufferMult

end ScoreContext

/-- A stop that moves the risk from `plain` to `wide` leaves the ratio of a target at its gate. -/
structure Keeps (t : TuningFields) (entry plain wide target gate : ℚ) : Prop where
  off_entry : 0 < wide
  net : 0 < wide + cost t entry
  widening : wide - plain ≤ slack t entry plain target gate

/-- The published buffer widens the risk by no more than the gates of the grade have left. -/
def WithinSlack (N : Numerics) (w : Process) (ctx : ScoreContext) (c : Candidate)
    (level : String) (g : Grade) : Prop :=
  g = .a ∨ g = .b → ∃ anchor base targets, ctx.anchor w c level = .ok anchor ∧
    w.getTuning.atrStopBuffer.get? level = some base ∧
    computeTargets N w c (ctx.entryPrice c) = .ok targets ∧
    ∀ gate ∈ gates g, Keeps w.getTuning.toTuningFields (ctx.entryPrice c)
      (ctx.risk N c anchor.price (ScoreContext.plainMult base))
      (ctx.risk N c anchor.price (ctx.wideMult base)) (targetPrice targets gate.1) gate.2

/-! The risk/reward of one target. -/

theorem netRatio_some {r : ℚ} (h : netRatio N t entry stop target = some r) :
    0 < entry ∧ 0 < |target - entry| - cost t entry ∧ 0 < |entry - stop| ∧
      0 < |entry - stop| + cost t entry ∧
      r = N.round 4 ((|target - entry| - cost t entry) / (|entry - stop| + cost t entry)) := by
  unfold netRatio at h
  simp only at h
  split_ifs at h with h1 h2
  obtain ⟨hrisk, hentry⟩ := not_or.mp h1
  obtain ⟨hreward, hnet⟩ := not_or.mp h2
  exact ⟨not_le.mp hentry, not_le.mp hreward, not_le.mp hrisk, not_le.mp hnet,
    (Option.some.inj h).symm⟩

theorem netRatio_of (he : 0 < entry) (hr : 0 < |target - entry| - cost t entry)
    (hk : 0 < |entry - stop|) (hn : 0 < |entry - stop| + cost t entry) :
    netRatio N t entry stop target =
      some (N.round 4 ((|target - entry| - cost t entry) / (|entry - stop| + cost t entry))) := by
  unfold netRatio
  simp only
  rw [if_neg (not_or.mpr ⟨not_le.mpr hk, not_le.mpr he⟩)]
  exact if_neg (not_or.mpr ⟨not_le.mpr hr, not_le.mpr hn⟩)

/-- A rounded ratio reaches a gate as long as the risk stays below the reward the gate allows. -/
theorem gate_le_netRatio_iff {k : ℤ} (hk : k % 2 = 0) (hpos : 0 < k) (hg : gate = k / 10 ^ 4)
    (he : 0 < entry) (hr : 0 < |target - entry| - cost t entry) :
    gate ≤ (netRatio (.decimal sqrt resample) t entry stop target).getD 0 ↔
      0 < |entry - stop| ∧ 0 < |entry - stop| + cost t entry ∧
        |entry - stop| ≤ (|target - entry| - cost t entry) / (gate - 1 / 20000) - cost t entry := by
  have hk1 : (1 : ℚ) ≤ k := by exact_mod_cast hpos
  have hgate : 0 < gate - 1 / 20000 := by
    rw [hg]
    linarith
  by_cases hn : 0 < |entry - stop| ∧ 0 < |entry - stop| + cost t entry
  · rw [netRatio_of he hr hn.1 hn.2, Option.getD_some, hg, Numerics.decimal]
    simp only
    rw [Rounding.le_roundTo_iff hk, ← hg]
    have hunit : (1 : ℚ) / (2 * 10 ^ 4) = 1 / 20000 := by norm_num
    have hcross : gate - 1 / 20000 ≤
        (|target - entry| - cost t entry) / (|entry - stop| + cost t entry) ↔
        |entry - stop| ≤ (|target - entry| - cost t entry) / (gate - 1 / 20000) - cost t entry := by
      rw [le_div_iff₀ hn.2, mul_comm, ← le_div_iff₀ hgate]
      exact le_sub_iff_add_le.symm
    rw [hunit, hcross]
    exact ⟨fun h => ⟨hn.1, hn.2, h⟩, fun h => h.2.2⟩
  · refine iff_of_false ?_ (fun h => hn ⟨h.1, h.2.1⟩)
    cases hz : netRatio (.decimal sqrt resample) t entry stop target with
    | none =>
      rw [Option.getD_none]
      linarith
    | some r =>
      obtain ⟨-, -, h1, h2, -⟩ := netRatio_some hz
      exact absurd ⟨h1, h2⟩ hn

theorem netRr_ok {r : Option ℚ} (h : netRr N w entry stop target = .ok r) :
    r = netRatio N w.getTuning.toTuningFields entry stop target := by
  unfold netRr at h
  obtain ⟨_, -, h⟩ := bind_ok.mp h
  obtain ⟨_, -, h⟩ := bind_ok.mp h
  obtain ⟨_, -, h⟩ := bind_ok.mp h
  obtain ⟨_, -, h⟩ := bind_ok.mp h
  exact (Except.ok.inj h).symm

/-! The two passes over the stop. -/

/-- Trap evidence only lowers the score, so the soft knee never widens a stop. -/
theorem trapCurve_eq_one (df : Frame) (lo hi : ℚ) (b : Bool) (n : ℤ) :
    trapCurve (quantTrapRisk df lo hi b n).score = 1 := by
  have hle : (quantTrapRisk df lo hi b n).score ≤ 50 := by
    unfold quantTrapRisk
    simp only
    split_ifs <;> simp
  unfold trapCurve
  rw [if_pos (by omega)]

theorem trapStopMultiplier_ok {n : ℤ} {m : ℚ} (h : trapStopMultiplier n = .ok m) :
    m = trapCurve n := by
  unfold trapStopMultiplier at h
  obtain ⟨_, -, h⟩ := bind_ok.mp h
  obtain ⟨_, -, h⟩ := bind_ok.mp h
  exact (Except.ok.inj h).symm

theorem longAnchor_label {e : Bool} {l m b : String} {p : ℚ}
    (h : longAnchor c level e l = .ok (p, b)) : ∃ b', longAnchor c level e m = .ok (p, b') := by
  unfold longAnchor at h ⊢
  split_ifs at h ⊢
  · cases h
    exact ⟨_, rfl⟩
  · obtain ⟨x, hx, h⟩ := bind_ok.mp h
    cases h
    exact ⟨_, by rw [hx]; rfl⟩
  · cases h
    exact ⟨_, rfl⟩
  · obtain ⟨x, hx, h⟩ := bind_ok.mp h
    cases h
    exact ⟨_, by rw [hx]; rfl⟩

theorem shortAnchor_label {e : Bool} {l m b : String} {p : ℚ}
    (h : shortAnchor c level e l = .ok (p, b)) : ∃ b', shortAnchor c level e m = .ok (p, b') := by
  unfold shortAnchor at h ⊢
  split_ifs at h ⊢
  · cases h
    exact ⟨_, rfl⟩
  · obtain ⟨x, hx, h⟩ := bind_ok.mp h
    cases h
    exact ⟨_, by rw [hx]; rfl⟩
  · cases h
    exact ⟨_, rfl⟩
  · obtain ⟨x, hx, h⟩ := bind_ok.mp h
    cases h
    exact ⟨_, by rw [hx]; rfl⟩

/-- The label of the buffer only shows in the text of the basis. -/
theorem stopAnchor_label {l : String} (m : String) {swing e : Option ℚ} {a : StopAnchor}
    (h : stopAnchor w c level l swing e = .ok a) :
    ∃ a', stopAnchor w c level m swing e = .ok a' ∧ a'.price = a.price := by
  unfold stopAnchor at h ⊢
  simp only at h ⊢
  split_ifs at h ⊢ with hb
  · obtain ⟨⟨p, b⟩, hp, h⟩ := bind_ok.mp h
    obtain ⟨b', hp'⟩ := longAnchor_label (m := m) hp
    cases h
    exact ⟨⟨(swingLong swing e p).1, b', (swingLong swing e p).2⟩, by rw [hp']; rfl, rfl⟩
  · obtain ⟨⟨p, b⟩, hp, h⟩ := bind_ok.mp h
    obtain ⟨b', hp'⟩ := shortAnchor_label (m := m) hp
    cases h
    exact ⟨⟨(swingShort swing e p).1, b', (swingShort swing e p).2⟩, by rw [hp']; rfl, rfl⟩

/-- A stop of the engine is the anchor, which is its invalidation point, and a clamped multiple of
the base, rounded. -/
theorem computeStop_ok {a : StopArgs} {r : StopPlan}
    (h : computeStop N w c ctx.atr level a = .ok r) (hl : level ∈ stopLevels) :
    ∃ anchor base, stopBase w level a = .ok base ∧
      stopAnchor w c level "" a.swingAnchor a.entry = .ok anchor ∧
      r.stop = N.round 8 (if c.bullish then anchor.price - effectiveMult base a * ctx.atr
        else anchor.price + effectiveMult base a * ctx.atr) ∧
      r.invalidation = N.round 8 anchor.price := by
  obtain ⟨-, hplan, -⟩ := computeStop_inv h
  have hmem : level ∈ w.tuning.atrStopBuffer.keys := by
    refine w.tuning.stopLevel_mem ?_
    simpa [stopLevels, requiredStopLossLevels] using hl
  unfold placeStop at hplan
  simp only [if_pos hmem] at hplan
  obtain ⟨base, hbase, hplan⟩ := bind_ok.mp hplan
  obtain ⟨anchor, hanchor, hplan⟩ := bind_ok.mp hplan
  cases hplan
  obtain ⟨anchor', ha, hp⟩ := stopAnchor_label "" hanchor
  exact ⟨anchor', base, hbase, ha, by rw [hp], by rw [hp]⟩

theorem gradeSignal_ok {score a : ℚ} {rr1 rr2 : Option ℚ} {al co : Bool} {x : Option ℚ}
    (h : gradeSignal score rr1 rr2 al co a x = .ok (some g)) :
    gradeOf score rr1 rr2 al co a x = some g := by
  unfold gradeSignal at h
  obtain ⟨_, -, h⟩ := bind_ok.mp h
  obtain ⟨_, -, h⟩ := bind_ok.mp h
  obtain ⟨_, -, h⟩ := bind_ok.mp h
  obtain ⟨_, -, h⟩ := bind_ok.mp h
  exact Except.ok.inj h

/-- A graded candidate has two ratios. -/
theorem gradeOf_some {score a : ℚ} {rr1 rr2 : Option ℚ} {al co : Bool} {x : Option ℚ}
    (h : gradeOf score rr1 rr2 al co a x = some g) : ∃ r1 r2, rr1 = some r1 ∧ rr2 = some r2 := by
  unfold gradeOf at h
  split at h
  · next r1 r2 => exact ⟨r1, r2, rfl, rfl⟩
  · simp at h

namespace Scoring

variable (s : Scoring N w ctx c level)
include s

theorem trapM_eq : s.trapM = 1 :=
  (trapStopMultiplier_ok s.trapM_ok).trans (trapCurve_eq_one _ _ _ _ _)

/-- Both passes hang from one anchor; only the multiple of the ATR differs. -/
theorem passes (hg : s.grade = .a ∨ s.grade = .b) : ∃ anchor base,
    ctx.anchor w c level = .ok anchor ∧ w.getTuning.atrStopBuffer.get? level = some base ∧
      |ctx.entryPrice c - s.first.stop| =
        ctx.risk N c anchor.price (ScoreContext.plainMult base) ∧
      |ctx.entryPrice c - s.final.stop| = ctx.risk N c anchor.price (ctx.wideMult base) := by
  obtain ⟨anchor, base, hbase, hanchor, hstop, -⟩ := computeStop_ok s.first_ok s.level_mem
  obtain ⟨anchor', base', hbase', hanchor', hstop', -⟩ := computeStop_ok s.final_ok s.level_mem
  have ha : anchor = anchor' := Except.ok.inj (hanchor.symm.trans hanchor')
  subst ha
  have hb : w.getTuning.atrStopBuffer.get? level = some base := by
    cases hget : w.getTuning.atrStopBuffer.get? level with
    | none => simp [stopBase, hget] at hbase
    | some b =>
      have : b = base := by simpa [stopBase, hget] using hbase
      rw [this]
  have hbase₂ : base' = ctx.stopBufferAtr.getD base := by
    cases ho : ctx.stopBufferAtr with
    | none =>
      have : base = base' := by simpa [stopBase, ho, hb] using hbase'
      exact this.symm
    | some b =>
      have : b = base' := by simpa [stopBase, ho] using hbase'
      exact this.symm
  have hgm : gradeStopMultiplier (some s.grade) = 1 := by
    rcases hg with h | h <;> rw [h] <;> rfl
  refine ⟨anchor, base, hanchor, hb, ?_, ?_⟩
  · rw [hstop, ScoreContext.risk]
    simp [effectiveMult, ScoreContext.plainMult, regimeStopMultiplier, gradeStopMultiplier]
  · rw [hstop', ScoreContext.risk, hbase₂]
    simp [effectiveMult, ScoreContext.wideMult, hgm, s.trapM_eq]

end Scoring

/-- The published ratio of a target reaches a gate as long as the widening fits the slack. -/
theorem gate_le_published_iff {k : ℤ} {first final r : ℚ} (hk : k % 2 = 0) (hpos : 0 < k)
    (hg : gate = k / 10 ^ 4) (hr : netRatio N t entry first target = some r) :
    gate ≤ (netRatio (.decimal sqrt resample) t entry final target).getD 0 ↔
      Keeps t entry |entry - first| |entry - final| target gate := by
  obtain ⟨he, hreward, -, -, -⟩ := netRatio_some hr
  rw [gate_le_netRatio_iff hk hpos hg he hreward]
  constructor
  · rintro ⟨h1, h2, h3⟩
    exact ⟨h1, h2, sub_le_sub_right h3 _⟩
  · rintro ⟨h1, h2, h3⟩
    exact ⟨h1, h2, (sub_le_sub_iff_right _).mp h3⟩

namespace Scoring

/-- The ratio of one target under a stop. -/
def ratio (N : Numerics) (w : Process) (ctx : ScoreContext) (c : Candidate) (stop target : ℚ) :
    Option ℚ := netRatio N w.getTuning.toTuningFields (ctx.entryPrice c) stop target

theorem published_tp1 (s : Scoring N w ctx c level) : s.signal.netRrTp1 =
    (ratio N w ctx c s.final.stop (targetPrice s.targets 0)).getD 0 :=
  congrArg (Option.getD · 0) (netRr_ok s.finalRr1_ok)

theorem published_tp2 (s : Scoring N w ctx c level) : s.signal.netRrTp2 =
    (ratio N w ctx c s.final.stop (targetPrice s.targets 1)).getD 0 :=
  congrArg (Option.getD · 0) (netRr_ok s.finalRr2_ok)

theorem graded_ratios (s : Scoring N w ctx c level) : ∃ r1 r2,
    ratio N w ctx c s.first.stop (targetPrice s.targets 0) = some r1 ∧
      ratio N w ctx c s.first.stop (targetPrice s.targets 1) = some r2 := by
  obtain ⟨r1, r2, h1, h2⟩ := gradeOf_some (gradeSignal_ok s.grade_ok)
  exact ⟨r1, r2, (netRr_ok s.rr1_ok).symm.trans h1, (netRr_ok s.rr2_ok).symm.trans h2⟩

/-- What the two passes have to satisfy for one gate of one target. -/
def Keeps (s : Scoring N w ctx c level) (gate : ℕ × ℚ) : Prop :=
  Pyharmonics.Keeps w.getTuning.toTuningFields (ctx.entryPrice c)
    |ctx.entryPrice c - s.first.stop| |ctx.entryPrice c - s.final.stop|
    (targetPrice s.targets gate.1) gate.2

theorem meetsGate_iff_keeps (s : Scoring (.decimal sqrt resample) w ctx c level) :
    MeetsGate s.signal ↔ ∀ gate ∈ gates s.grade, s.Keeps gate := by
  obtain ⟨r1, r2, h1, h2⟩ := s.graded_ratios
  have g1 : 1 ≤ s.signal.netRrTp1 ↔ s.Keeps (0, 1) := by
    rw [s.published_tp1]
    exact gate_le_published_iff (k := 10000) (by norm_num) (by norm_num) (by norm_num) h1
  have g2 : 3 / 2 ≤ s.signal.netRrTp2 ↔ s.Keeps (1, 3 / 2) := by
    rw [s.published_tp2]
    exact gate_le_published_iff (k := 15000) (by norm_num) (by norm_num) (by norm_num) h2
  have g3 : 2 ≤ s.signal.netRrTp2 ↔ s.Keeps (1, 2) := by
    rw [s.published_tp2]
    exact gate_le_published_iff (k := 20000) (by norm_num) (by norm_num) (by norm_num) h2
  have hgrade : s.signal.grade = s.grade := rfl
  rw [MeetsGate, hgrade, g1, g2, g3]
  cases s.grade <;> simp [gates]

/-- A scored candidate meets its gates exactly when the second pass keeps within their slack. -/
theorem meetsGate_iff (s : Scoring (.decimal sqrt resample) w ctx c level) :
    MeetsGate s.signal ↔ WithinSlack (.decimal sqrt resample) w ctx c level s.grade := by
  by_cases hg : s.grade = .a ∨ s.grade = .b
  · obtain ⟨anchor, base, ha, hb, h₁, h₂⟩ := s.passes hg
    rw [s.meetsGate_iff_keeps]
    unfold Keeps
    rw [h₁, h₂]
    constructor
    · exact fun h _ => ⟨anchor, base, s.targets, ha, hb, s.targets_ok, h⟩
    · intro h
      obtain ⟨anchor', base', targets, ha', hb', ht, h⟩ := h hg
      obtain rfl : anchor = anchor' := Except.ok.inj (ha.symm.trans ha')
      obtain rfl : base = base' := Option.some.inj (hb.symm.trans hb')
      obtain rfl : s.targets = targets := Except.ok.inj (s.targets_ok.symm.trans ht)
      exact h
  · exact iff_of_true (fun h => absurd h hg) (fun h => absurd h hg)

end Scoring

theorem meetsGate_withStability (T : Signal) (k : Option ℤ) :
    MeetsGate (T.withStability k) ↔ MeetsGate T := Iff.rfl

/-- The binary digits of an integer square root, from the highest. -/
def sqrtDigits (m : ℕ) : ℕ → ℕ → ℕ
  | 0, r => r
  | k + 1, r => sqrtDigits m k (if (r + 2 ^ k) ^ 2 ≤ m then r + 2 ^ k else r)

/-- The square root of a number below a million to twelve digits. -/
def decimalSqrt (x : ℚ) : ℚ := sqrtDigits ⌊x * 10 ^ 24⌋.toNat 60 0 / 10 ^ 12

/-- Decimal numerics for frames without a `dts` column, which are never resampled. -/
def plainNumerics : Numerics := .decimal decimalSqrt fun _ _ => []

/-- Closes and volumes alternate, every bar is wide and opens away from the last close. -/
def alternatingBar (k : ℕ) : Row :=
  let close : ℚ := if k % 2 = 0 then 101 else 100
  { openPrice := close - 1 / 10, high := close + 9 / 5, low := close - 11 / 5, close := close
    volume := if k % 2 = 0 then 3 else 1, closeTime := k, dts := k, index := k }

def alternatingFrame : Frame := frameOf ((List.range 60).map alternatingBar)

/-- A formed Gartley whose zone holds the last close. -/
def gartley : Candidate :=
  { family := "XABCD", name := "gartley", bullish := true, formed := true
    points := [97, 111, 102, 107, 100], completionMin := 199 / 2, completionMax := 201 / 2 }

def regularDivergences : Divergences :=
  ⟨[("rsi", [{ name := "Regular", bullish := true }]),
    ("macd", [{ name := "Regular", bullish := true }])], by decide⟩

def alternatingInput : BuildInput :=
  { df := alternatingFrame, interval := "4h", candidates := [gartley]
    divergences := regularDivergences }

/-- A process as it starts, under the default tuning. -/
def defaultProcess : Process := { tuning := .defaults }

theorem alternating_view : (buildSignal plainNumerics defaultProcess
    alternatingInput).toOption.join.map (fun S => ((S.grade, S.netRrTp1), S.direction,
      S.entryReference, S.stopLoss, S.targets.map SignalTarget.price)) =
      some ((.b, 9074 / 10000), .long, 100, 96, [104202 / 1000, 106798 / 1000, 113992 / 1000]) := by
  decide +kernel

theorem alternating_signal : ∃ S, buildSignal plainNumerics defaultProcess alternatingInput =
    .ok (some S) ∧ (S.grade = .b ∧ S.netRrTp1 = 9074 / 10000) ∧ S.direction = .long ∧
      S.entryReference = 100 ∧ S.stopLoss = 96 ∧
      S.targets.map SignalTarget.price = [104202 / 1000, 106798 / 1000, 113992 / 1000] := by
  obtain ⟨S, hS, hv⟩ := exists_of_view alternating_view
  simp only [Prod.mk.injEq] at hv
  exact ⟨S, hS, hv⟩

end Pyharmonics
