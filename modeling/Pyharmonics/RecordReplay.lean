import Pyharmonics.BenchPaths
import Pyharmonics.BenchRunner
import Pyharmonics.ForwardWindows
import Pyharmonics.SignalGeometry

/-! Walk-forward records replayed by the backtest engine on their forward bars. -/
namespace Pyharmonics.Backtest

open Bench Firsts

variable {N : Numerics} {w : Process} {df forward : Frame} {interval : String} {detect : Detect}
  {o : WalkOptions} {d : WindowDetection} {S : Signal} {s a b : Setup} {T : Trade}
  {rest : List Trade} {ov : Overrides} {e : ℕ} {tp : ℚ} {r : BacktestSignalRecord}
  {records : List BacktestSignalRecord}

/-- What the engine is asked to trade for a record with a first target. -/
def BacktestSignalRecord.replayed (r : BacktestSignalRecord) (tp : ℚ) : Setup :=
  ⟨r.direction, r.entryPrice, r.stopLoss, tp⟩

/-- What the walk traded for it: a short unless the word is `bullish`, from the mid of the zone in
`prz` mode. -/
def BacktestSignalRecord.simulated (o : WalkOptions) (r : BacktestSignalRecord) (tp : ℚ) : Setup :=
  ⟨if r.direction = .bullish then .long else .short,
    if o.entryMode = .prz then r.entryReference else r.entryPrice, r.stopLoss, tp⟩

/-- The first trade of the replay is the one recorded, and a skipped record has none. -/
def Replays (forward : Frame) (r : BacktestSignalRecord) : Prop :=
  ∃ tp, r.tp1 = some tp ∧ Agrees ⟨r.result, r.rMultiple, r.exitTime, r.barsHeld⟩
    (simulateTrades forward (r.replayed tp))

/-- The levels are not in order for the direction, or no bar covers the entry. -/
def Untraded (s : Setup) (df : Frame) : Prop :=
  ¬ s.Ordered ∨ ∀ r ∈ df.rows, ¬ Covers r s.entryPrice

/-- Setups with one outcome: they are the same, neither is filled, or the first trades of both are
lost, or held to the end. -/
def SameTrade (a b : Setup) (df : Frame) : Prop :=
  a = b ∨ (Untraded a df ∧ Untraded b df) ∨
    ∃ side, side ≠ .win ∧ EndsOn a df side ∧ EndsOn b df side

theorem untraded_iff : Untraded s df ↔ ∀ T rest, simulateTrades df s ≠ .ok (T :: rest) := by
  constructor
  · rintro (ho | hbars) T rest h
    · exact simulateTrades_unordered ho h
    · obtain ⟨ho, -⟩ := filled_of_simulateTrades h
      rw [simulateTrades_ordered ho, (walk_eq_nil_iff none).mpr hbars] at h
      cases h
  · intro h
    by_contra hne
    obtain ⟨ho, hbars⟩ := not_or.mp hne
    have hwalk : walk s df.rows none none ≠ [] := fun hnil => hbars ((walk_eq_nil_iff none).mp hnil)
    obtain ⟨T, rest, heq⟩ := List.exists_cons_of_ne_nil hwalk
    exact h T rest ((simulateTrades_ordered (not_not.mp ho)).trans (congrArg Except.ok heq))

/-- A replay without a trade agrees with a skip only. -/
theorem agrees_untraded {x : ForwardResult} (h : Untraded s forward) :
    Agrees x (simulateTrades forward s) ↔ x.result = .skipped := by
  have hnone := untraded_iff.mp h
  unfold Agrees
  split
  · next T rest heq => exact absurd heq (hnone T rest)
  · rfl

theorem agrees_traded {x : ForwardResult} (h : simulateTrades forward s = .ok (T :: rest)) :
    Agrees x (simulateTrades forward s) ↔ x.result = .traded T.result ∧ x.rMultiple = T.rMultiple := by
  rw [h]
  rfl

/-- The multiple of a first trade that is won. -/
theorem firstTrade_won (h : simulateTrades forward s = .ok (T :: rest)) (hw : T.result = .win) :
    T.rMultiple = |s.targetPrice - s.entryPrice| / |s.entryPrice - s.stopLoss| := by
  obtain ⟨ho, j, r, -, -, hends⟩ := firstTrade_ends h
  rcases hends with ⟨e, q, side, -, -, rfl⟩ | ⟨-, last, -, rfl⟩
  · obtain rfl : side = .win := hw
    exact ho.leave_win _
  · cases hw

/-- Setups in order on one stop and one target trade in one direction. -/
theorem long_iff_long (ha : a.Ordered) (hb : b.Ordered) (hstop : a.stopLoss = b.stopLoss)
    (htarget : a.targetPrice = b.targetPrice) : a.direction = .long ↔ b.direction = .long := by
  unfold Setup.Ordered at ha hb
  split_ifs at ha hb with hal hbl hbl
  · exact iff_of_true hal hbl
  · linarith [ha.1, ha.2, hb.1, hb.2]
  · linarith [ha.1, ha.2, hb.1, hb.2]
  · exact iff_of_false hal hbl

/-- On one stop and one target the reward in units of the risk tells the entry. -/
theorem entry_of_reward (ha : a.Ordered) (hb : b.Ordered) (hstop : a.stopLoss = b.stopLoss)
    (htarget : a.targetPrice = b.targetPrice)
    (h : |a.targetPrice - a.entryPrice| / |a.entryPrice - a.stopLoss| =
      |b.targetPrice - b.entryPrice| / |b.entryPrice - b.stopLoss|) :
    a.entryPrice = b.entryPrice := by
  have hdir := long_iff_long ha hb hstop htarget
  rw [div_eq_div_iff ha.risk_pos.ne' hb.risk_pos.ne', hstop, htarget] at h
  unfold Setup.Ordered at ha hb
  rw [hstop, htarget] at ha
  have hlevels : (b.targetPrice - b.stopLoss) * (a.entryPrice - b.entryPrice) = 0 := by
    by_cases hl : a.direction = .long
    · rw [if_pos hl] at ha
      rw [if_pos (hdir.mp hl)] at hb
      rw [abs_of_pos (by linarith [ha.2]), abs_of_pos (by linarith [ha.1]),
        abs_of_pos (by linarith [hb.2]), abs_of_pos (by linarith [hb.1])] at h
      linarith
    · rw [if_neg hl] at ha
      rw [if_neg fun hbl => hl (hdir.mpr hbl)] at hb
      rw [abs_of_neg (by linarith [ha.2]), abs_of_neg (by linarith [ha.1]),
        abs_of_neg (by linarith [hb.2]), abs_of_neg (by linarith [hb.1])] at h
      linarith
  rcases mul_eq_zero.mp hlevels with hz | hz
  · split_ifs at hb <;> linarith [hb.1, hb.2]
  · exact sub_eq_zero.mp hz

/-- A won replay has the multiple of another won setup on its stop and target only if it is the
same setup. -/
theorem eq_of_won (ha : a.direction = .long ∨ a.direction = .short)
    (hb : b.direction = .long ∨ b.direction = .short) (hstop : a.stopLoss = b.stopLoss)
    (htarget : a.targetPrice = b.targetPrice) {T' : Trade} {rest' : List Trade}
    (hsim : simulateTrades forward a = .ok (T :: rest)) (hT : T.result = .win)
    (hsim' : simulateTrades forward b = .ok (T' :: rest')) (hT' : T'.result = .win)
    (hr : T.rMultiple = T'.rMultiple) : a = b := by
  have hoa := (firstTrade_ends hsim).1
  have hob := (firstTrade_ends hsim').1
  rw [firstTrade_won hsim hT, firstTrade_won hsim' hT'] at hr
  have hentry := entry_of_reward hoa hob hstop htarget hr
  have hdir : a.direction = b.direction := by
    have hiff := long_iff_long hoa hob hstop htarget
    rcases ha with ha | ha
    · rw [ha, hiff.mp ha]
    · rcases hb with hb | hb
      · rw [hiff.mpr hb, hb]
      · rw [ha, hb]
  cases a
  cases b
  simp_all only

/-- First trades that are not won have one multiple for each side. -/
theorem multiple_of_side {T' : Trade} {rest' : List Trade}
    (hsim : simulateTrades forward a = .ok (T :: rest))
    (hsim' : simulateTrades forward b = .ok (T' :: rest')) (hT : T.result ≠ .win)
    (hside : T'.result = T.result) : T'.rMultiple = T.rMultiple := by
  rcases firstTrade_cases hsim with ⟨hw, -⟩ | ⟨hl, hr⟩ | ⟨hs, hr⟩
  · exact absurd hw hT
  · rcases firstTrade_cases hsim' with ⟨hw', -⟩ | ⟨-, hr'⟩ | ⟨hs', -⟩
    · rw [hside, hl] at hw'
      cases hw'
    · rw [hr, hr']
    · rw [hside, hl] at hs'
      cases hs'
  · rcases firstTrade_cases hsim' with ⟨hw', -⟩ | ⟨hl', -⟩ | ⟨-, hr'⟩
    · rw [hside, hs] at hw'
      cases hw'
    · rw [hside, hs] at hl'
      cases hl'
    · rw [hr, hr']

/-- The forward simulation of a signal agrees with the trades of a setup on the same stop and
target exactly when the setups have one outcome. -/
theorem simulateOne_agrees_setup (hb : b.direction = .long ∨ b.direction = .short)
    (hstop : (setupOf S ov).stopLoss = b.stopLoss)
    (htarget : (setupOf S ov).targetPrice = b.targetPrice) :
    Agrees (simulateOne forward (some S) ov) (simulateTrades forward b) ↔
      SameTrade (setupOf S ov) b forward := by
  have ha : (setupOf S ov).direction = .long ∨ (setupOf S ov).direction = .short := by
    unfold setupOf
    dsimp only
    split_ifs
    · exact Or.inl rfl
    · exact Or.inr rfl
  constructor
  · intro hagree
    by_cases hnone : Untraded b forward
    · rw [agrees_untraded hnone] at hagree
      refine Or.inr (Or.inl ⟨untraded_iff.mpr fun T rest hsim => ?_, hnone⟩)
      rw [simulateOne_traded hsim] at hagree
      cases hagree
    · rw [untraded_iff] at hnone
      push Not at hnone
      obtain ⟨T, rest, hsim⟩ := hnone
      obtain ⟨hside, hr⟩ := (agrees_traded hsim).mp hagree
      have hends := simulateOne_result.mp hside
      by_cases hw : T.result = .win
      · obtain ⟨T', rest', hsim', hT'⟩ := endsOn_iff.mp hends
        rw [simulateOne_traded hsim'] at hr
        exact Or.inl (eq_of_won ha hb hstop htarget hsim' (hT'.trans hw) hsim hw hr)
      · exact Or.inr (Or.inr ⟨_, hw, hends, endsOn_iff.mpr ⟨T, rest, hsim, rfl⟩⟩)
  · rintro (heq | ⟨hna, hnb⟩ | ⟨side, hw, hea, heb⟩)
    · rw [← heq]
      by_cases hnone : Untraded (setupOf S ov) forward
      · rw [agrees_untraded hnone, simulateOne_skipped (untraded_iff.mp hnone)]
        rfl
      · rw [untraded_iff] at hnone
        push Not at hnone
        obtain ⟨T, rest, hsim⟩ := hnone
        rw [agrees_traded hsim, simulateOne_traded hsim]
        exact ⟨rfl, rfl⟩
    · rw [agrees_untraded hnb, simulateOne_skipped (untraded_iff.mp hna)]
      rfl
    · obtain ⟨T, rest, hsim, rfl⟩ := endsOn_iff.mp heb
      obtain ⟨T', rest', hsim', hT'⟩ := endsOn_iff.mp hea
      rw [agrees_traded hsim, simulateOne_traded hsim']
      exact ⟨congrArg ForwardOutcome.traded hT', multiple_of_side hsim hsim' hw hT'⟩

/-- A record with a direction of the engine is replayed exactly when the setup the walk traded and
the one recorded have one outcome. -/
theorem recordOf_replays_iff (hd : S.direction = .long ∨ S.direction = .short)
    (htp : (recordOf df o e S).tp1 = some tp) :
    Replays (forwardAt df o e) (recordOf df o e S) ↔
      SameTrade ((recordOf df o e S).simulated o tp) ((recordOf df o e S).replayed tp)
        (forwardAt df o e) := by
  have hhead : S.targets.head?.map SignalTarget.price = some tp := htp
  have hsim : (recordOf df o e S).simulated o tp = setupOf S (walkOverrides df o e S) := by
    by_cases ho : o.entryMode = .prz
    · simp only [setupOf, walkOverrides, BacktestSignalRecord.simulated, hhead, if_pos ho,
        Option.getD_some, Option.getD_none]
      rfl
    · simp only [setupOf, walkOverrides, BacktestSignalRecord.simulated, hhead, if_neg ho,
        Option.getD_some, Option.getD_none]
      rfl
  have hiff : Agrees (simulateOne (forwardAt df o e) (some S) (walkOverrides df o e S))
      (simulateTrades (forwardAt df o e) ((recordOf df o e S).replayed tp)) ↔
      SameTrade (setupOf S (walkOverrides df o e S)) ((recordOf df o e S).replayed tp)
        (forwardAt df o e) :=
    simulateOne_agrees_setup hd (by rw [← hsim]; rfl) (by rw [← hsim]; rfl)
  rw [hsim, ← hiff]
  constructor
  · rintro ⟨tp', htp', hagree⟩
    obtain rfl := Option.some.inj (htp.symm.trans htp')
    exact hagree
  · intro hagree
    exact ⟨tp, htp, hagree⟩

/-- A signal of the extraction has a direction of the engine and a first target. -/
theorem extractSignal_published
    (h : (extractSignal N w df interval d).result = .ok (some S)) :
    (S.direction = .long ∨ S.direction = .short) ∧
      ∃ tp, S.targets.head?.map SignalTarget.price = some tp := by
  have hbuild : ∃ w' input, buildSignal N w' input = .ok (some S) := by
    unfold extractSignal at h
    split at h
    · cases h
    · cases h
    · rw [maybeRelaxFilters_true] at h
      unfold dropViolation at h
      dsimp only at h
      split at h
      · cases h
      · exact ⟨_, _, h⟩
  obtain ⟨w', input, hbuild⟩ := hbuild
  obtain ⟨ctx, c, ho⟩ := buildSignal_some hbuild
  obtain ⟨T, k, hT, rfl⟩ := ho.scored
  have hp := scoreCandidate_published hT
  obtain ⟨aPrice, -, hprices⟩ := computeTargets_prices hp.targets
  constructor
  · have hdir : (T.withStability k).direction = c.direction := hp.direction
    rw [hdir, Candidate.direction]
    split_ifs
    · exact Or.inl rfl
    · exact Or.inr rfl
  · refine ⟨N.round 8 (projection c aPrice (ctx.entryState c).2 w'.getTuning.fibTp1), ?_⟩
    have htargets : (T.withStability k).targets = T.targets := rfl
    rw [htargets, ← List.head?_map, hprices]
    rfl

/-- A record whose first trade is the same on the setup the walk traded and on the one recorded. -/
def Replayable (o : WalkOptions) (forward : Frame) (r : BacktestSignalRecord) : Prop :=
  ∃ tp, r.tp1 = some tp ∧ SameTrade (r.simulated o tp) (r.replayed tp) forward

/-- A short entered at the market is recorded as it was traded. -/
theorem replayable_market_short (hm : o.entryMode = .market) (hs : r.direction = .short)
    (htp : r.tp1 = some tp) : Replayable o forward r := by
  refine ⟨tp, htp, Or.inl ?_⟩
  simp [BacktestSignalRecord.simulated, BacktestSignalRecord.replayed, hm, hs]

/-- Of the records of a walk exactly those can be replayed whose recorded setup has the outcome of
the setup that was traded. -/
theorem mem_walk_replays_iff
    (h : (walkForward N w df interval detect o).records = .ok records) (hr : r ∈ records) :
    Replays (forwardAt df o r.stepIndex) r ↔ Replayable o (forwardAt df o r.stepIndex) r := by
  obtain ⟨e, -, d, S, hS, rfl⟩ := mem_walkSteps h r hr
  obtain ⟨hd, tp, htp⟩ := extractSignal_published hS
  have hrec : (recordOf df o e S).tp1 = some tp := htp
  have hiff := recordOf_replays_iff hd hrec
  constructor
  · intro hreplays
    exact ⟨tp, hrec, hiff.mp hreplays⟩
  · rintro ⟨tp', htp', hsame⟩
    obtain rfl := Option.some.inj (hrec.symm.trans htp')
    exact hiff.mpr hsame

/-- Every record of a walk can be replayed. -/
def WalkReplays (N : Numerics) (w : Process) (df : Frame) (interval : String) (detect : Detect)
    (o : WalkOptions) : Prop :=
  ∀ records, (walkForward N w df interval detect o).records = .ok records →
    ∀ r ∈ records, Replays (forwardAt df o r.stepIndex) r

/-- The records of a walk can be replayed exactly when, for each of them, the setup the walk traded
and the setup it recorded have one outcome on the forward bars. -/
theorem walkReplays_iff (N : Numerics) (w : Process) (df : Frame) (interval : String)
    (detect : Detect) (o : WalkOptions) : WalkReplays N w df interval detect o ↔
      ∀ records, (walkForward N w df interval detect o).records = .ok records →
        ∀ r ∈ records, Replayable o (forwardAt df o r.stepIndex) r := by
  constructor
  · intro h records hrecords r hr
    exact (mem_walk_replays_iff hrecords hr).mp (h records hrecords r hr)
  · intro h records hrecords r hr
    exact (mem_walk_replays_iff hrecords hr).mpr (h records hrecords r hr)

/-! A long of the alternating market, and a short entered above the market in `prz` mode. -/

/-- The first trade of the replay. -/
def firstReplay (forward : Frame) (r : BacktestSignalRecord) : Option (TradeResult × ℚ) := do
  let tp ← r.tp1
  let trades ← (simulateTrades forward (r.replayed tp)).toOption
  trades.head?.map fun t => (t.result, t.rMultiple)

theorem Replays.first {x : TradeResult × ℚ} (h : Replays forward r)
    (hx : firstReplay forward r = some x) : r.result = .traded x.1 ∧ r.rMultiple = x.2 := by
  obtain ⟨tp, htp, hagree⟩ := h
  obtain ⟨tp', htp', hx⟩ := Option.bind_eq_some_iff.mp hx
  obtain rfl := Option.some.inj (htp.symm.trans htp')
  obtain ⟨trades, htrades, hx⟩ := Option.bind_eq_some_iff.mp hx
  rw [toOption_eq_some.mp htrades] at hagree
  cases trades with
  | nil => cases hx
  | cons t trades =>
    obtain rfl := Option.some.inj hx
    exact hagree

/-- The recorded results of a walk beside those of the replay. -/
def replayTable (df : Frame) (detect : Detect) (o : WalkOptions) :
    Option (List (ForwardOutcome × ℚ × Option (TradeResult × ℚ))) :=
  (walkForward plainNumerics defaultProcess df "4h" detect o).records.toOption.map <| List.map
    fun r => (r.result, r.rMultiple, firstReplay (forwardAt df o r.stepIndex) r)

theorem not_walkReplays {result : ForwardOutcome} {m : ℚ} {x : TradeResult × ℚ}
    (h : replayTable df detect o = some [(result, m, some x)])
    (hx : ¬ (result = .traded x.1 ∧ m = x.2)) :
    ¬ WalkReplays plainNumerics defaultProcess df "4h" detect o := by
  intro hall
  obtain ⟨records, hrecords, htable⟩ := Option.map_eq_some_iff.mp h
  obtain ⟨r, rs, rfl, hr, -⟩ := List.map_eq_cons_iff.mp htable
  simp only [Prod.mk.injEq] at hr
  obtain ⟨rfl, rfl, hfirst⟩ := hr
  exact hx ((hall _ (toOption_eq_some.mp hrecords) r (by simp)).first hfirst)

/-- Bars turned over, and one behind them that falls below the first target. -/
def plungeFrame : Frame :=
  frameOf ((List.range 60).map cappedBar ++ [({ cappedBar 60 with low := 90 } : Row)])

/-- A bat for shorts whose zone lies above the market. -/
def shortBat : Pattern :=
  { y := some [103, 89, 98, 93, 100], completionMinPrice := some (203 / 2)
    completionMaxPrice := some (205 / 2), name := some "bat", bullish := some false }

def shortBatDetection : WindowDetection :=
  { rawAssessment := some { patterns := some (.single "XABCD" [shortBat]) }
    patterns := some "XABCD" }

def przWalk : WalkOptions :=
  { window := 59, step := 2, horizon := 1, entryMode := .prz, windowPos := Nat.succ_pos 58
    stepPos := Nat.two_pos }

/-- A long record is skipped where its replay trades, and a short in `prz` mode is recorded with
another entry than it was traded at: 191/132 R against 9/8 R. -/
theorem alternating_unreplayable :
    ¬ WalkReplays plainNumerics defaultProcess alternatingFrame "4h" (fun _ => .ok batDetection)
      alternatingWalk ∧
    ¬ WalkReplays plainNumerics defaultProcess plungeFrame "4h" (fun _ => .ok shortBatDetection)
      przWalk := by
  have hlong : replayTable alternatingFrame (fun _ => .ok batDetection) alternatingWalk =
      some [(.skipped, 0, some (.scratch, 0))] := by
    rw [replayTable, alternating_records]
    decide +kernel
  have hshort : replayTable plungeFrame (fun _ => .ok shortBatDetection) przWalk =
      some [(.traded .win, 191 / 132, some (.win, 9 / 8))] := by
    decide +kernel
  refine ⟨not_walkReplays hlong fun h => ?_, not_walkReplays hshort fun h => ?_⟩
  · exact absurd h.1 (by decide)
  · exact absurd h.2 (by norm_num)

end Pyharmonics.Backtest
