import Pyharmonics.BenchRunner
import Pyharmonics.ForwardWindows

/-! The split of a walk's records into in-sample and out-of-sample, and the bars behind it. -/
namespace Pyharmonics.Bench

open Backtest

inductive Split
  | is | oos
  deriving DecidableEq

/-- What the splitter reads and writes of a record. -/
structure SplitRecord where
  signalId : String
  split : Option Split := none
  crossesBoundary : Bool := false
  boundaryDistanceBars : Option ℤ := none
  deriving DecidableEq

/-- `split_boundary` -/
def splitBoundary (totalBars : ℤ) (isRatio : ℚ := 7 / 10) : Except PyError ℤ := do
  refuse (totalBars ≤ 0) "total_bars must be positive" []
  refuse (¬ (0 < isRatio ∧ isRatio < 1)) "is_ratio must be in (0, 1)" []
  return ⌊totalBars * isRatio⌋

/-- `assign_split` on one record. -/
def assignOne (barIndexOf : Dict String ℤ) (boundary : ℤ) (rec : SplitRecord) : SplitRecord :=
  match barIndexOf.get? rec.signalId with
  | none => rec
  | some idx => { rec with split := some (if idx ≤ boundary then .is else .oos) }

/-- `assign_split`: the records, and how many were assigned. -/
def assignSplit (records : List SplitRecord) (barIndexOf : Dict String ℤ) (boundary : ℤ) :
    List SplitRecord × ℕ :=
  (records.map (assignOne barIndexOf boundary),
    records.countP fun rec => (barIndexOf.get? rec.signalId).isSome)

/-- `find_boundary_crossings` on one record. -/
def markCrossing (barIndexOf : Dict String ℤ) (boundary : ℤ) (horizon : Option ℤ)
    (rec : SplitRecord) : SplitRecord :=
  let clear := { rec with crossesBoundary := false, boundaryDistanceBars := none }
  match barIndexOf.get? rec.signalId, horizon with
  | none, _ => clear
  | _, none => clear
  | some idx, some h =>
    if h ≤ 0 then clear
    else
      let exitBar := idx + h - 1
      if idx ≤ boundary ∧ boundary < exitBar then
        { rec with crossesBoundary := true, boundaryDistanceBars := some (exitBar - boundary) }
      else clear

/-- `find_boundary_crossings`: the records, and how many of them cross. -/
def findBoundaryCrossings (records : List SplitRecord) (barIndexOf : Dict String ℤ) (boundary : ℤ)
    (horizon : Option ℤ := none) (horizonOf : Option (Dict String ℤ) := none) :
    Except PyError (List SplitRecord × ℕ) := do
  refuse (horizonOf = none ∧ horizon = none) "either horizon or horizon_of must be provided" []
  refuse (horizonOf = none ∧ ∃ h ∈ horizon, h ≤ 0) "horizon must be positive" []
  let marked := records.map fun rec => markCrossing barIndexOf boundary
    (match horizonOf with
      | some given => given.get? rec.signalId
      | none => horizon) rec
  return (marked, marked.countP SplitRecord.crossesBoundary)

/-- The records of a walk, split and marked with one horizon for all. -/
def splitWalk (signalId : BacktestSignalRecord → String) (barIndexOf : Dict String ℤ)
    (boundary horizon : ℤ) (records : List BacktestSignalRecord) :
    Except PyError (List SplitRecord) := do
  let unsplit := records.map fun r => ({ signalId := signalId r } : SplitRecord)
  let (marked, _) ← findBoundaryCrossings (assignSplit unsplit barIndexOf boundary).1 barIndexOf
    boundary (some horizon)
  return marked

/-- The positions of the bars a window's signal is simulated on. -/
def simulatedBars (n : ℕ) (o : WalkOptions) (e : ℕ) : List ℕ :=
  ((List.range n).drop (e + 1)).take (e + 1 + o.horizon + 1 - (e + 1))

/-- The records kept in sample and not marked were simulated on no bar behind the boundary. -/
def LeakFree (n : ℕ) (o : WalkOptions) (boundary : ℤ) (records : List BacktestSignalRecord)
    (marked : List SplitRecord) : Prop :=
  ∀ r m, (r, m) ∈ records.zip marked → m.split = some .is → m.crossesBoundary = false →
    ∀ i ∈ simulatedBars n o r.stepIndex, (i : ℤ) ≤ boundary

variable {N : Numerics} {w : Process} {df : Frame} {interval : String} {detect : Detect}
  {o : WalkOptions} {records : List BacktestSignalRecord} {marked : List SplitRecord}
  {signalId : BacktestSignalRecord → String} {barIndexOf : Dict String ℤ}
  {boundary horizon idx : ℤ} {n e i : ℕ}

/-- The boundary of a frame is one of its bars. -/
theorem splitBoundary_range {totalBars : ℤ} {isRatio : ℚ}
    (h : splitBoundary totalBars isRatio = .ok boundary) :
    0 ≤ boundary ∧ boundary < totalBars := by
  obtain ⟨_, hbars, h⟩ := bind_ok.mp h
  obtain ⟨_, hratio, h⟩ := bind_ok.mp h
  obtain rfl := Except.ok.inj h
  have hpos : 0 < totalBars := not_le.mp (refuse_ok.mp hbars)
  obtain ⟨h0, h1⟩ := not_not.mp (refuse_ok.mp hratio)
  have hpos' : (0 : ℚ) < totalBars := by exact_mod_cast hpos
  constructor
  · exact Int.floor_nonneg.mpr (mul_nonneg hpos'.le h0.le)
  · exact Int.floor_lt.mpr (mul_lt_of_lt_one_right hpos' h1)

theorem mem_simulatedBars :
    i ∈ simulatedBars n o e ↔ e + 1 ≤ i ∧ i ≤ e + o.horizon + 1 ∧ i < n := by
  unfold simulatedBars
  rw [List.mem_iff_getElem?]
  constructor
  · rintro ⟨j, hj⟩
    obtain ⟨hlt, heq⟩ := List.getElem?_eq_some_iff.mp hj
    rw [List.getElem_take, List.getElem_drop, List.getElem_range] at heq
    rw [List.length_take, List.length_drop, List.length_range] at hlt
    omega
  · rintro ⟨hlow, hhigh, hn⟩
    refine ⟨i - (e + 1), ?_⟩
    rw [List.getElem?_take_of_lt (by omega), List.getElem?_drop, List.getElem?_range (by omega)]
    congr 1
    omega

/-- These are the positions of the forward bars. -/
theorem simulatedBars_rows (df : Frame) (o : WalkOptions) (e : ℕ) :
    (simulatedBars df.length o e).map (fun i => df.rows[i]?) = (forwardAt df o e).rows.map some := by
  have hall : (List.range df.length).map (fun i => df.rows[i]?) = df.rows.map some := by
    apply List.ext_getElem
    · simp [Frame.length]
    · intro j h h'
      rw [List.length_map] at h'
      simp [h']
  rw [simulatedBars, List.map_take, List.map_drop, hall, ← List.map_drop, ← List.map_take]
  rfl

/-- What the splitter makes of a record with an entry bar. -/
theorem marked_of_index (rec : SplitRecord) (hidx : barIndexOf.get? rec.signalId = some idx)
    (hh : 0 < horizon) :
    (markCrossing barIndexOf boundary (some horizon) (assignOne barIndexOf boundary rec)).split =
        some (if idx ≤ boundary then .is else .oos) ∧
      (markCrossing barIndexOf boundary (some horizon)
        (assignOne barIndexOf boundary rec)).crossesBoundary =
          decide (idx ≤ boundary ∧ boundary < idx + horizon - 1) := by
  have hassign : assignOne barIndexOf boundary rec =
      { rec with split := some (if idx ≤ boundary then .is else .oos) } := by
    unfold assignOne
    rw [hidx]
  unfold markCrossing
  rw [hassign, hidx]
  simp only [if_neg (not_le.mpr hh)]
  by_cases hcross : idx ≤ boundary ∧ boundary < idx + horizon - 1
  · rw [if_pos hcross]
    exact ⟨rfl, (decide_eq_true hcross).symm⟩
  · rw [if_neg hcross]
    exact ⟨rfl, (decide_eq_false hcross).symm⟩

theorem splitWalk_ok : splitWalk signalId barIndexOf boundary horizon records = .ok marked ↔
    0 < horizon ∧ marked = records.map fun r =>
      markCrossing barIndexOf boundary (some horizon)
        (assignOne barIndexOf boundary { signalId := signalId r }) := by
  unfold splitWalk
  constructor
  · intro h
    obtain ⟨⟨found, count⟩, hfind, h⟩ := bind_ok.mp h
    obtain ⟨_, -, hfind⟩ := bind_ok.mp hfind
    obtain ⟨_, hpos, hfind⟩ := bind_ok.mp hfind
    have hhorizon : 0 < horizon := not_le.mp fun hle => refuse_ok.mp hpos ⟨rfl, horizon, rfl, hle⟩
    obtain ⟨hfound, -⟩ := Prod.ext_iff.mp (Except.ok.inj hfind)
    obtain rfl := Except.ok.inj h
    refine ⟨hhorizon, hfound.symm.trans ?_⟩
    simp only [assignSplit, List.map_map]
    rfl
  · rintro ⟨hpos, rfl⟩
    have hnone : refuse ((none : Option (Dict String ℤ)) = none ∧ some horizon = none)
        "either horizon or horizon_of must be provided" [] = .ok () :=
      refuse_ok.mpr fun h => by cases h.2
    have hgiven : refuse ((none : Option (Dict String ℤ)) = none ∧ ∃ h ∈ some horizon, h ≤ 0)
        "horizon must be positive" [] = .ok () := by
      refine refuse_ok.mpr ?_
      rintro ⟨-, h, hh, hle⟩
      obtain rfl := Option.some.inj hh
      omega
    refine bind_ok.mpr ⟨_, bind_ok.mpr ⟨(), hnone, bind_ok.mpr ⟨(), hgiven, rfl⟩⟩, ?_⟩
    refine congrArg Except.ok ?_
    simp only [assignSplit, List.map_map]
    rfl

/-- Behind the step of a record there is one bar at least for each bar of the horizon. -/
theorem walk_horizon (h : (walkForward N w df interval detect o).records = .ok records) :
    ∀ r ∈ records, r.stepIndex + o.horizon < df.length := by
  intro r hr
  obtain ⟨e, he, d, s, -, rfl⟩ := mem_walkSteps h r hr
  exact (mem_windowEnds.mp he).2.2

/-- For one entry bar: kept in sample, not marked, and simulated up to the boundary only. -/
theorem leakFree_at {n e h : ℕ} {o : WalkOptions} (hh : o.horizon = h) (hpos : 0 < h)
    (he : e + h < n) :
    ((e : ℤ) ≤ boundary → ¬ ((e : ℤ) ≤ boundary ∧ boundary < e + h - 1) →
      ∀ i ∈ simulatedBars n o e, (i : ℤ) ≤ boundary) ↔
    (n : ℤ) - 1 ≤ boundary ∨ ((e : ℤ) + h ≠ boundary ∧ (e : ℤ) + h ≠ boundary + 1) := by
  simp only [mem_simulatedBars]
  constructor
  · intro hsafe
    by_contra hnear
    push Not at hnear
    obtain ⟨hn, hnear⟩ := hnear
    -- the bar behind the boundary is one of the two that the splitter does not count
    have hmid : (e : ℤ) + h = boundary ∨ (e : ℤ) + h = boundary + 1 := by
      by_cases hat : (e : ℤ) + h = boundary
      · exact Or.inl hat
      · exact Or.inr (hnear hat)
    have hbar := hsafe (by omega) (by omega) (boundary + 1).toNat (by omega)
    omega
  · rintro hsafe hin hmark i ⟨hlow, hhigh, hn⟩
    omega

/-- The records that are neither behind the boundary nor marked decide. -/
theorem leakFree_iff (hindex : ∀ r ∈ records, barIndexOf.get? (signalId r) = some (r.stepIndex : ℤ))
    (hsplit : splitWalk signalId barIndexOf boundary horizon records = .ok marked) :
    LeakFree n o boundary records marked ↔
      ∀ r ∈ records, (r.stepIndex : ℤ) ≤ boundary →
        ¬ ((r.stepIndex : ℤ) ≤ boundary ∧ boundary < r.stepIndex + horizon - 1) →
          ∀ i ∈ simulatedBars n o r.stepIndex, (i : ℤ) ≤ boundary := by
  obtain ⟨hpos, rfl⟩ := splitWalk_ok.mp hsplit
  unfold LeakFree
  simp only [← List.map_prod_left_eq_zip, List.mem_map, Prod.mk.injEq]
  constructor
  · intro hfree r hr hin hmark
    obtain ⟨hside, hcross⟩ := marked_of_index { signalId := signalId r } (hindex r hr) hpos
    refine hfree r _ ⟨r, hr, rfl, rfl⟩ ?_ ?_
    · rw [hside, if_pos hin]
    · rw [hcross, decide_eq_false hmark]
  · rintro hall r m ⟨r', hr, rfl, rfl⟩ hin hmark
    obtain ⟨hside, hcross⟩ := marked_of_index { signalId := signalId r' } (hindex r' hr) hpos
    rw [hcross, decide_eq_false_iff_not] at hmark
    refine hall r' hr ?_ hmark
    by_contra hout
    rw [hside, if_neg hout] at hin
    cases hin

/-- Counting the two bars that the splitter leaves out, it leaks nothing. -/
theorem splitWalk_wide_leakFree
    (hindex : ∀ r ∈ records, barIndexOf.get? (signalId r) = some (r.stepIndex : ℤ))
    (hsplit : splitWalk signalId barIndexOf boundary (o.horizon + 2) records = .ok marked) :
    LeakFree n o boundary records marked := by
  refine (leakFree_iff hindex hsplit).mpr ?_
  intro r _ hin hmark i hi
  obtain ⟨-, hhigh, -⟩ := mem_simulatedBars.mp hi
  omega

/-- The splitter leaks nothing exactly when the boundary is the last bar, or no record's horizon
ends at the boundary or one bar behind it: the last two bars of these records are not counted. -/
theorem splitWalk_leakFree_iff (h : (walkForward N w df interval detect o).records = .ok records)
    (hindex : ∀ r ∈ records, barIndexOf.get? (signalId r) = some (r.stepIndex : ℤ))
    (hsplit : splitWalk signalId barIndexOf boundary o.horizon records = .ok marked) :
    LeakFree df.length o boundary records marked ↔
      ((df.length : ℤ) - 1 ≤ boundary ∨ ∀ r ∈ records, (r.stepIndex : ℤ) + o.horizon ≠ boundary ∧
        (r.stepIndex : ℤ) + o.horizon ≠ boundary + 1) := by
  have hpos : 0 < o.horizon := by exact_mod_cast (splitWalk_ok.mp hsplit).1
  rw [leakFree_iff hindex hsplit]
  refine (forall₂_congr fun r hr => leakFree_at rfl hpos (walk_horizon h r hr)).trans ?_
  simp only [forall_or_left]

/-- The name and the entry bar of the only record of a walk. -/
def onlySignal : BacktestSignalRecord → String := fun _ => "signal"

def onlyEntry : Dict String ℤ := .single "signal" 57

theorem alternating_index : ∀ r ∈ [alternatingRecord],
    onlyEntry.get? (onlySignal r) = some (r.stepIndex : ℤ) := by
  intro r hr
  rw [List.mem_singleton.mp hr]
  rfl

/-- The record of the walk is split at bar 58. -/
theorem exists_marked : ∃ marked, splitWalk onlySignal onlyEntry 58 alternatingWalk.horizon
    [alternatingRecord] = .ok marked :=
  ⟨_, splitWalk_ok.mpr ⟨by decide, rfl⟩⟩

theorem alternating_split : ∃ records marked,
    splitWalk onlySignal onlyEntry 58 alternatingWalk.horizon records = .ok marked ∧
    (LeakFree alternatingFrame.length alternatingWalk 58 records marked ↔
      ((alternatingFrame.length : ℤ) - 1 ≤ 58 ∨ ∀ r ∈ records,
        (r.stepIndex : ℤ) + alternatingWalk.horizon ≠ 58 ∧
          (r.stepIndex : ℤ) + alternatingWalk.horizon ≠ 58 + 1)) := by
  obtain ⟨marked, hsplit⟩ := exists_marked
  exact ⟨_, marked, hsplit, splitWalk_leakFree_iff alternating_records alternating_index hsplit⟩

/-- The one signal enters at bar 57 with a horizon of one bar: it is kept in the sample up to bar 58
and not marked, and it is simulated on bar 59. -/
theorem alternating_leaks : ∃ records marked,
    (walkForward plainNumerics defaultProcess alternatingFrame "4h" (fun _ => .ok batDetection)
      alternatingWalk).records = .ok records ∧
    (∀ r ∈ records, onlyEntry.get? (onlySignal r) = some (r.stepIndex : ℤ)) ∧
    splitWalk onlySignal onlyEntry 58 alternatingWalk.horizon records = .ok marked ∧
    ¬ LeakFree alternatingFrame.length alternatingWalk 58 records marked := by
  obtain ⟨marked, hsplit⟩ := exists_marked
  refine ⟨_, marked, alternating_records, alternating_index, hsplit, ?_⟩
  rw [leakFree_iff alternating_index hsplit]
  intro hall
  have hstep : alternatingRecord.stepIndex = 57 := rfl
  have hwalk : alternatingWalk.horizon = 1 := rfl
  have hlen : alternatingFrame.length = 60 := rfl
  have hbar :
      59 ∈ simulatedBars alternatingFrame.length alternatingWalk alternatingRecord.stepIndex := by
    rw [mem_simulatedBars, hwalk, hlen, hstep]
    omega
  have hle := hall _ (List.mem_singleton_self _) (by omega) (by omega) 59 hbar
  omega

end Pyharmonics.Bench
