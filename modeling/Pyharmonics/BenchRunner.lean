import Pyharmonics.BenchAggregator
import Pyharmonics.BenchStages

/-! The pipeline of the bench runner: the validity, outcome and technical scores of each record of a
walk, then the aggregate. -/
namespace Pyharmonics.Bench

open Backtest

variable {N : Numerics} {rec : SignalRecord} {records : List SignalRecord} {symbol interval : String}

/-- `_geometric_subscore` -/
def geometricSubscore (N : Numerics) (rec : SignalRecord) : ℚ :=
  let w := rec.przWidthAtr
  if w ≤ 0 then 4 else if 1 ≤ w then 0 else N.round 4 (4 * (1 - w))

/-- `_prz_subscore` -/
def przSubscore (rec : SignalRecord) : ℚ :=
  if rec.przWidthAtr < 1 / 2 then 2 else if rec.przWidthAtr < 1 then 1 else 0

/-- `_stop_subscore` -/
def stopSubscore (N : Numerics) (rec : SignalRecord) : ℚ :=
  if rec.atrAtEntry ≤ 0 then 0
  else
    let sdAtr := |rec.entryPrice - rec.stopPrice| / rec.atrAtEntry
    if 1 / 2 ≤ sdAtr ∧ sdAtr ≤ 3 then 2
    else if sdAtr < 1 / 2 then N.round 4 (2 * (sdAtr / (1 / 2)))
    else N.round 4 (max 0 (2 * (1 - (sdAtr - 3) / 3)))

/-- `_data_subscore`; no comparison with a NaN target holds. -/
def dataSubscore (rec : SignalRecord) : ℚ :=
  if rec.entryPrice ≤ 0 ∨ rec.stopPrice ≤ 0 ∨ ∃ tp1 ∈ rec.tp1, tp1 ≤ 0 then 0
  else if rec.direction = .long then
    if rec.stopPrice < rec.entryPrice ∧ ∃ tp1 ∈ rec.tp1, rec.entryPrice < tp1 then 2 else 0
  else if rec.entryPrice < rec.stopPrice ∧ ∃ tp1 ∈ rec.tp1, tp1 < rec.entryPrice then 2 else 0

/-- `_entry_zone_subscore` -/
def entryZoneSubscore (N : Numerics) (rec : SignalRecord) : ℚ :=
  let off := rec.entryOffsetAtr
  if 3 / 2 < off then 0 else if off ≤ 1 / 2 then 2 else N.round 4 (2 - (off - 1 / 2))

/-- `stage1_score`, with the record as it leaves it. -/
def stage1Score (N : Numerics) (rec : SignalRecord) : SignalRecord :=
  let total := geometricSubscore N rec + przSubscore rec + stopSubscore N rec + dataSubscore rec +
    entryZoneSubscore N rec
  { rec with stage1Score := some (N.round 4 total), weakValidity := decide (total < 4) }

/-- `_GRADE_SCORE` -/
def gradeScore : List (Grade × ℚ) := [(.a, 4), (.b, 2), (.c, 0)]

/-- `_grade_subscore`: a grade that is no key of the table raises. -/
def gradeSubscore (grade : Grade) : Except PyError ℚ :=
  match gradeScore.lookup grade with
  | some score => .ok score
  | none => .error (.other (gradeWord grade))

/-- `_confluence_subscore` -/
def confluenceSubscore (confluence : ℚ) : ℚ :=
  if 3 ≤ confluence then 3 else if 2 ≤ confluence then 2 else if 1 ≤ confluence then 1 else 0

/-- `_stability_subscore` -/
def stabilitySubscore (verdict : String) : ℚ :=
  let v := verdict.toLower
  if v = "stable" then 3 else if v = "mixed" then 1 else 0

/-- `stage4b_score`, with the record as it leaves it. -/
def stage4bScore (N : Numerics) (rec : SignalRecord) : Except PyError SignalRecord := do
  let grade ← gradeSubscore rec.grade
  let total := grade + confluenceSubscore rec.confluenceScore + stabilitySubscore rec.stabilityVerdict
  return { rec with stage4bScore := some (N.round 4 total) }

/-- The stages of the runner on one record; the structure stage is skipped. -/
def runStages (N : Numerics) (rec : SignalRecord) : Except PyError SignalRecord := do
  let rec ← stage4bScore N (stage3Score N (stage1Score N rec))
  return { rec with stage4aScore := some 0 }

/-- `run_pipeline`: the summary, and the records as it leaves them. -/
def runPipeline (N : Numerics) (records : List SignalRecord) :
    Except PyError (AggregatorResult × List SignalRecord) := do
  let scored ← records.mapM (runStages N)
  return aggregate N scored

/-- `convert_records` -/
def convertRecords (records : List BacktestSignalRecord) (symbol interval : String) :
    List SignalRecord :=
  records.map fun src => signalRecordFromBacktest src symbol interval

/-- The table has every grade but the one for reference. -/
theorem gradeSubscore_returns {grade : Grade} :
    Returns (gradeSubscore grade) ↔ grade ≠ .reference := by
  cases grade with
  | reference => exact iff_of_false not_returns_error fun h => h rfl
  | a => exact iff_of_true returns_ok (by decide)
  | b => exact iff_of_true returns_ok (by decide)
  | c => exact iff_of_true returns_ok (by decide)

/-- Of the stages only the technical one can raise, on the grade. -/
theorem runStages_returns : Returns (runStages N rec) ↔ rec.grade ≠ .reference := by
  rw [← gradeSubscore_returns]
  have hgrade : (stage3Score N (stage1Score N rec)).grade = rec.grade := rfl
  unfold runStages stage4bScore
  rw [hgrade]
  constructor
  · rintro ⟨out, h⟩
    obtain ⟨rec', h, -⟩ := bind_ok.mp h
    obtain ⟨score, h, -⟩ := bind_ok.mp h
    exact ⟨score, h⟩
  · rintro ⟨score, h⟩
    rw [h]
    exact returns_ok

/-- The aggregate takes whatever the stages return. -/
theorem runPipeline_returns :
    Returns (runPipeline N records) ↔ ∀ rec ∈ records, rec.grade ≠ .reference := by
  have hstages : Returns (runPipeline N records) ↔ Returns (records.mapM (runStages N)) := by
    constructor
    · rintro ⟨out, h⟩
      obtain ⟨scored, h, -⟩ := bind_ok.mp h
      exact ⟨scored, h⟩
    · rintro ⟨scored, h⟩
      unfold runPipeline
      rw [h]
      exact returns_pure
  rw [hstages, returns_mapM]
  exact forall₂_congr fun rec _ => runStages_returns

/-- The pipeline takes the records of a backtest exactly when none is graded for reference. -/
theorem bench_accepts_iff (records : List BacktestSignalRecord) (symbol interval : String) :
    Returns (runPipeline N (convertRecords records symbol interval)) ↔
      ∀ r ∈ records, r.grade ≠ .reference := by
  rw [runPipeline_returns, convertRecords, List.forall_mem_map]
  rfl

/-- One window of the alternating market, with a bar behind it. -/
def alternatingWalk : WalkOptions :=
  { window := 58, step := 1, horizon := 1, windowPos := by decide, stepPos := Nat.one_pos }

/-- The record of its only signal. -/
def alternatingRecord : BacktestSignalRecord where
  stepIndex := 57
  signalTime := some 57
  direction := .long
  grade := .reference
  patternName := "bat"
  family := "XABCD"
  formed := true
  entryPrice := 100
  stopLoss := 951 / 10
  tp1 := some (52101 / 500)
  rr1 := 469 / 625
  entryReference := 100
  entryZone := (199 / 2, 201 / 2)
  horizon := 1
  result := .skipped
  rMultiple := 0
  exitTime := none
  barsHeld := none

theorem alternating_records : (walkForward plainNumerics defaultProcess alternatingFrame "4h"
    (fun _ => .ok batDetection) alternatingWalk).records = .ok [alternatingRecord] :=
  toOption_eq_some.mp (by decide +kernel)

/-- A walk whose only signal is graded for reference stops the pipeline. -/
theorem alternating_raises : ∃ records, (walkForward plainNumerics defaultProcess alternatingFrame
    "4h" (fun _ => .ok batDetection) alternatingWalk).records = .ok records ∧
      ¬ Returns (runPipeline plainNumerics (convertRecords records "BTCUSDT" "4h")) := by
  refine ⟨_, alternating_records, ?_⟩
  intro hreturns
  rw [runPipeline_returns] at hreturns
  exact hreturns _ (List.mem_map_of_mem (List.mem_singleton_self alternatingRecord)) rfl

end Pyharmonics.Bench
