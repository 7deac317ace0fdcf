import Pyharmonics.BenchRecord
import Pyharmonics.Library.Groups
import Pyharmonics.Library.Sorting

/-! The aggregator of the bench: stage scores to signal, pattern, config and bench totals. -/
namespace Pyharmonics.Bench

open Groups Sorting

/-- The stage scores weighted to 100; a missing one contributes nothing. -/
def rawScore (rec : SignalRecord) : ℚ :=
  rec.stage1Score.getD 0 / 12 * 20 + rec.stage3Score.getD 0 / 50 * 50 +
    rec.stage4aScore.getD 0 / 20 * 20 + rec.stage4bScore.getD 0 / 10 * 10

/-- `signal_score`, with the record as it leaves it. -/
def signalScore (N : Numerics) (rec : SignalRecord) : SignalRecord :=
  if rec.stage1Score.any fun s => decide (s < 4) then
    { rec with weakValidity := true, signalScore := some (N.round 4 (rawScore rec * (1 / 2))) }
  else { rec with weakValidity := false, signalScore := some (N.round 4 (rawScore rec)) }

structure PatternScore where
  patternFamily : String
  signalCount : ℕ
  winRate : ℚ
  avgSignalScore : ℚ
  avgRrWinning : ℚ
  patternScore : ℚ
  deriving DecidableEq

/-- `sum(xs) / len(xs) if xs else 0.0` -/
def meanOr0 (xs : List ℚ) : ℚ := if xs = [] then 0 else xs.sum / xs.length

/-- `_pattern_stats` -/
def patternStats (N : Numerics) (family : String) (recs : List SignalRecord) : PatternScore :=
  let n := recs.length
  let wins := recs.filter fun r => r.outcome.any Outcome.isWin
  let losses := recs.filter fun r => r.outcome = some .stoploss
  let decided := wins.length + losses.length
  let winRate : ℚ := if 0 < decided then (wins.length : ℚ) / decided else 0
  let avgScore := meanOr0 (recs.filterMap SignalRecord.signalScore)
  let avgRrWin := meanOr0 (wins.filterMap SignalRecord.netRr)
  let score := avgScore * (40 / 100) + winRate * 100 * (25 / 100) +
    min (avgRrWin / 5) 1 * 100 * (20 / 100) + min ((n : ℚ) / 100) 1 * 100 * (15 / 100)
  { patternFamily := family
    signalCount := n
    winRate := N.round 4 winRate
    avgSignalScore := N.round 4 avgScore
    avgRrWinning := N.round 4 avgRrWin
    patternScore := N.round 4 score }

/-- The statistics of the groups of `_group_by_pattern`, in the order of their families. -/
def patternScores (N : Numerics) (records : List SignalRecord) : List PatternScore :=
  (sortBy Prod.fst (groupBy SignalRecord.patternFamily records).entries).map fun (family, group) =>
    patternStats N family group

/-- `config_score_with_patterns` -/
def configScoreWithPatterns (N : Numerics) (records : List SignalRecord) :
    Option ℚ × Bool × List PatternScore :=
  if records = [] then (none, false, [])
  else
    let scores := patternScores N records
    let totalN := (scores.map PatternScore.signalCount).sum
    let weighted := (scores.map fun p => p.patternScore * (p.signalCount : ℚ)).sum / (totalN : ℚ)
    let lowConf := scores.any fun p => p.signalCount < 10
    (some (N.round 4 (if lowConf then weighted * (9 / 10) else weighted)), lowConf, scores)

/-- `bench_total` -/
def benchTotal (N : Numerics) (signal : ℚ) (config : Option ℚ) : ℚ :=
  match config with
  | none => N.round 4 signal
  | some c => N.round 4 (6 / 10 * signal + 4 / 10 * c)

structure AggregatorResult where
  signalScore : ℚ
  configScore : Option ℚ
  benchTotal : ℚ
  weakValidity : Bool
  lowConfidence : Bool
  nSignals : ℕ
  nPatterns : ℕ
  patternScores : List PatternScore
  deriving DecidableEq

/-- `aggregate`: the summary, and the records as it leaves them. -/
def aggregate (N : Numerics) (records : List SignalRecord) : AggregatorResult × List SignalRecord :=
  match records.map (signalScore N) with
  | [] => (⟨0, none, 0, false, false, 0, 0, []⟩, [])
  | first :: rest =>
    let scored := first :: rest
    let weakCount := scored.countP SignalRecord.weakValidity
    let (cfg, lowConf, patterns) := configScoreWithPatterns N scored
    let total := benchTotal N (first.signalScore.getD 0) cfg
    ({ signalScore := first.signalScore.getD 0
       configScore := cfg
       benchTotal := total
       weakValidity := decide (0 < weakCount)
       lowConfidence := lowConf
       nSignals := scored.length
       nPatterns := patterns.length
       patternScores := patterns },
     scored.map fun rec => { rec with configScore := cfg, benchTotal := some total })

variable {N : Numerics} {records records' : List SignalRecord} {rec a b : SignalRecord}
  {family : String}

/-- The score a record is given. -/
def scoreOf (N : Numerics) (rec : SignalRecord) : ℚ := (signalScore N rec).signalScore.getD 0

theorem signalScore_some : (signalScore N rec).signalScore = some (scoreOf N rec) := by
  unfold scoreOf signalScore
  split_ifs <;> rfl

theorem meanOr0_perm {xs ys : List ℚ} (h : xs.Perm ys) : meanOr0 xs = meanOr0 ys := by
  unfold meanOr0
  rw [h.sum_eq, h.length_eq]
  simp only [← List.length_eq_zero_iff, h.length_eq]

/-- The statistics of a pattern do not depend on the order of its records. -/
theorem patternStats_perm (h : records.Perm records') :
    patternStats N family records = patternStats N family records' := by
  have hwins := h.filter fun r => r.outcome.any Outcome.isWin
  have hlosses := h.filter fun r => decide (r.outcome = some .stoploss)
  unfold patternStats
  simp only [h.length_eq, hwins.length_eq, hlosses.length_eq,
    meanOr0_perm (h.filterMap SignalRecord.signalScore),
    meanOr0_perm (hwins.filterMap SignalRecord.netRr)]

theorem configScoreWithPatterns_perm (h : records.Perm records') :
    configScoreWithPatterns N records = configScoreWithPatterns N records' := by
  have hnil : records = [] ↔ records' = [] := by
    rw [← List.length_eq_zero_iff, ← List.length_eq_zero_iff, h.length_eq]
  have hpatterns : patternScores N records = patternScores N records' :=
    sorted_groups_perm h (patternStats N) fun _ _ _ => patternStats_perm
  unfold configScoreWithPatterns
  simp only [hnil, hpatterns]

end Pyharmonics.Bench
