import Mathlib
import Pyharmonics.BacktestHarness
import Pyharmonics.Library.Calendar
import Pyharmonics.Library.Intervals

/-! The quarters of the walk-forward evaluation: their labels, and the bars the harness keeps. -/
namespace Pyharmonics.Harness

open Calendar Intervals

variable {df : Frame} {y : ℤ} {q n : ℕ} {p p' : ℤ × ℕ} {startYear : ℤ} {r : Row}

/-- `f"{year}-Q{q}"` -/
def quarterLabel (year : ℤ) (q : ℕ) : String := toString year ++ "-Q" ++ toString q

/-- The loop of `list_quarters`: `n` quarters from one on. -/
def quartersFrom : ℕ → ℤ → ℕ → List (ℤ × ℕ)
  | 0, _, _ => []
  | n + 1, year, q =>
    (year, q) :: if 4 < q + 1 then quartersFrom n (year + 1) 1 else quartersFrom n year (q + 1)

/-- `list_quarters` -/
def listQuarters (startYear : ℤ) (n : ℕ) : List String :=
  (quartersFrom n startYear 1).map fun p => quarterLabel p.1 p.2

/-- `quarter.split("-Q")` -/
def splitOnQ : List Char → List (List Char)
  | [] => [[]]
  | '-' :: 'Q' :: cs => [] :: splitOnQ cs
  | c :: cs =>
    match splitOnQ cs with
    | [] => [[c]]
    | part :: parts => (c :: part) :: parts

/-- The year and the number a label stands for. -/
def parseQuarter (quarter : String) : Except PyError (ℤ × ℤ) :=
  match splitOnQ quarter.toList with
  | [yearStr, qStr] =>
    match (String.ofList yearStr).toInt?, (String.ofList qStr).toInt? with
    | some year, some q => .ok (year, q)
    | _, _ => .error (.valueError "invalid literal for int() with base 10" [])
  | _ => .error (.valueError "wrong number of values to unpack (expected 2)" [])

/-- The bars of a frame between two times, both included, relabelled. -/
def between (df : Frame) (i : ℤ × ℤ) : Frame :=
  ({ df with rows := df.rows.filter (within Row.dts i) } : Frame).resetIndex

/-- `quarter_mask`; `start + QuarterEnd(1)` is the start of the quarter's last day. -/
def quarterMask (df : Frame) (quarter : Option String) : Except PyError Frame :=
  match quarter with
  | none => .ok df
  | some quarter => do
    let (year, q) ← parseQuarter quarter
    let month := (q - 1) * 3 + 1
    refuse (year < 1 ∨ 9999 < year) "year is out of range" []
    refuse (month < 1 ∨ 12 < month) "month must be in 1..12" []
    return between df (monthStart year month.toNat * secondsPerDay,
      quarterEnd year q.toNat * secondsPerDay)

/-- The times `quarter_mask` keeps of a quarter. -/
def keptSpan (p : ℤ × ℕ) : ℤ × ℤ :=
  (quarterStart p.1 p.2 * secondsPerDay, quarterEnd p.1 p.2 * secondsPerDay)

/-- A time of a quarter. -/
def InQuarter (p : ℤ × ℕ) (dts : ℤ) : Prop :=
  quarterStart p.1 p.2 * secondsPerDay ≤ dts ∧
    dts < quarterStart (nextQuarter p.1 p.2).1 (nextQuarter p.1 p.2).2 * secondsPerDay

/-- Behind the start of a quarter's last day, and on it. -/
def LateOnLastDay (p : ℤ × ℕ) (dts : ℤ) : Prop :=
  quarterEnd p.1 p.2 * secondsPerDay < dts ∧ dts < (quarterEnd p.1 p.2 + 1) * secondsPerDay

/-- The bars lie in quarters of the list, whose timestamps exist. -/
structure InSpan (startYear : ℤ) (n : ℕ) (df : Frame) : Prop where
  exist : ∀ p ∈ quartersFrom n startYear 1, 1 ≤ p.1 ∧ p.1 ≤ 9999
  bars : ∀ r ∈ df.rows, ∃ p ∈ quartersFrom n startYear 1, InQuarter p r.dts

/-- The row without its label. -/
def unlabelled (r : Row) : Row := { r with index := 0 }

/-- Frames that share no bar and have together every bar of a frame once, in order. -/
structure Partition (df : Frame) (frames : List Frame) : Prop where
  disjoint : frames.Pairwise fun f g => ∀ r ∈ f.rows, ∀ s ∈ g.rows, r.dts ≠ s.dts
  whole : (frames.flatMap Frame.rows).map unlabelled = df.rows.map unlabelled

/-- A character in front of a text that has no separator there joins its first part. -/
theorem splitOnQ_cons {c : Char} {cs part : List Char} {parts : List (List Char)}
    (hc : c ≠ '-' ∨ ∀ rest, cs ≠ 'Q' :: rest) (h : splitOnQ cs = part :: parts) :
    splitOnQ (c :: cs) = (c :: part) :: parts := by
  rw [splitOnQ, h]
  rintro rest rfl rfl
  rcases hc with hc | hc
  · exact hc rfl
  · exact hc rest rfl

theorem splitOnQ_plain {cs : List Char} (h : 'Q' ∉ cs) : splitOnQ cs = [cs] := by
  induction cs with
  | nil => rfl
  | cons c cs ih =>
    refine splitOnQ_cons (Or.inr ?_) (ih fun hq => h (List.mem_cons_of_mem _ hq))
    rintro rest rfl
    exact h (by simp)

theorem splitOnQ_label {year qs : List Char} (hy : 'Q' ∉ year) (hq : 'Q' ∉ qs) :
    splitOnQ (year ++ '-' :: 'Q' :: qs) = [year, qs] := by
  induction year with
  | nil =>
    change [] :: splitOnQ qs = _
    rw [splitOnQ_plain hq]
  | cons c year ih =>
    refine splitOnQ_cons (Or.inr ?_) (ih fun hq => hy (List.mem_cons_of_mem _ hq))
    intro rest heq
    cases year with
    | nil => cases heq
    | cons d year =>
      obtain ⟨rfl, -⟩ := List.cons.inj heq
      exact hy (by simp)

theorem notMem_digits (k : ℕ) : 'Q' ∉ (Nat.repr k).toList := by
  intro h
  rw [Nat.toList_repr] at h
  exact absurd (Nat.isDigit_of_mem_toDigits (by omega) (by omega) h) (by decide)

theorem notMem_repr (year : ℤ) : 'Q' ∉ year.repr.toList := by
  rw [Int.repr_eq_if]
  split_ifs with h
  · exact notMem_digits _
  · rw [String.toList_append, List.mem_append]
    rintro (hq | hq)
    · exact absurd hq (by decide)
    · exact notMem_digits _ hq

theorem parseQuarter_label (year : ℤ) (q : ℕ) :
    parseQuarter (quarterLabel year q) = .ok (year, (q : ℤ)) := by
  have hlist : (quarterLabel year q).toList =
      year.repr.toList ++ '-' :: 'Q' :: (Nat.repr q).toList := by
    unfold quarterLabel
    rw [String.toList_append, String.toList_append, List.append_assoc]
    rfl
  unfold parseQuarter
  rw [hlist, splitOnQ_label (notMem_repr year) (notMem_digits q)]
  simp only [String.ofList_toList, Int.toInt?_repr, Nat.toInt?_repr]

theorem quartersFrom_succ : quartersFrom (n + 1) y q =
    (y, q) :: quartersFrom n (nextQuarter y q).1 (nextQuarter y q).2 := by
  unfold nextQuarter
  by_cases h : 4 ≤ q
  · rw [quartersFrom, if_pos (by omega), if_pos h]
  · rw [quartersFrom, if_neg (by omega), if_neg h]

theorem nextQuarter_bounds (h₁ : 1 ≤ q) :
    1 ≤ (nextQuarter y q).2 ∧ (nextQuarter y q).2 ≤ 4 := by
  unfold nextQuarter
  split_ifs with h
  · simp
  · simp only
    omega

theorem quartersFrom_bounds (h₁ : 1 ≤ q) (h₄ : q ≤ 4) (hp : p ∈ quartersFrom n y q) :
    1 ≤ p.2 ∧ p.2 ≤ 4 := by
  induction n generalizing y q with
  | zero => cases hp
  | succ n ih =>
    rw [quartersFrom_succ] at hp
    rcases List.mem_cons.mp hp with rfl | hp
    · exact ⟨h₁, h₄⟩
    · obtain ⟨h, h'⟩ := nextQuarter_bounds (y := y) h₁
      exact ih h h' hp

/-- Later quarters of the list do not start earlier. -/
theorem quartersFrom_start (h₁ : 1 ≤ q) (h₄ : q ≤ 4) (hp : p ∈ quartersFrom n y q) :
    quarterStart y q ≤ quarterStart p.1 p.2 := by
  induction n generalizing y q with
  | zero => cases hp
  | succ n ih =>
    rw [quartersFrom_succ] at hp
    rcases List.mem_cons.mp hp with rfl | hp
    · exact le_rfl
    · obtain ⟨h, h'⟩ := nextQuarter_bounds (y := y) h₁
      have hnext := quarterStart_next (y := y) h₁ h₄
      exact (by omega : quarterStart y q ≤ _).trans (ih h h' hp)

/-- A quarter of the list is over before the next ones start. -/
theorem quartersFrom_pairwise (h₁ : 1 ≤ q) (h₄ : q ≤ 4) :
    (quartersFrom n y q).Pairwise fun p p' => quarterEnd p.1 p.2 < quarterStart p'.1 p'.2 := by
  induction n generalizing y q with
  | zero => exact List.Pairwise.nil
  | succ n ih =>
    obtain ⟨h, h'⟩ := nextQuarter_bounds (y := y) h₁
    rw [quartersFrom_succ, List.pairwise_cons]
    refine ⟨?_, ih h h'⟩
    intro p hp
    exact (Int.sub_one_lt_of_le le_rfl).trans_le (quartersFrom_start h h' hp)

/-- Of two quarters of the list one is over before the other starts, or they are the same. -/
theorem quartersFrom_apart (h₁ : 1 ≤ q) (h₄ : q ≤ 4) (hp : p ∈ quartersFrom n y q)
    (hp' : p' ∈ quartersFrom n y q) :
    p = p' ∨ quarterEnd p.1 p.2 < quarterStart p'.1 p'.2 ∨
      quarterEnd p'.1 p'.2 < quarterStart p.1 p.2 := by
  rcases List.mem_iff_getElem.mp hp with ⟨i, hi, rfl⟩
  rcases List.mem_iff_getElem.mp hp' with ⟨j, hj, rfl⟩
  have hpair := List.pairwise_iff_getElem.mp (quartersFrom_pairwise (n := n) (y := y) h₁ h₄)
  rcases lt_trichotomy i j with hlt | rfl | hgt
  · exact Or.inr (Or.inl (hpair i j hi hj hlt))
  · exact Or.inl rfl
  · exact Or.inr (Or.inr (hpair j i hj hi hgt))

/-- The mask on a label of the list. -/
theorem quarterMask_label (hy : 1 ≤ p.1 ∧ p.1 ≤ 9999) (hq : 1 ≤ p.2 ∧ p.2 ≤ 4) :
    quarterMask df (some (quarterLabel p.1 p.2)) = .ok (between df (keptSpan p)) := by
  have hyear : refuse (p.1 < 1 ∨ 9999 < p.1) "year is out of range" [] = .ok () :=
    refuse_ok.mpr (by omega)
  have hmonth : refuse (((p.2 : ℤ) - 1) * 3 + 1 < 1 ∨ 12 < ((p.2 : ℤ) - 1) * 3 + 1)
      "month must be in 1..12" [] = .ok () := refuse_ok.mpr (by omega)
  have hstart : (((p.2 : ℤ) - 1) * 3 + 1).toNat = (p.2 - 1) * 3 + 1 := by omega
  unfold quarterMask
  simp only [parseQuarter_label, ok_bind, hyear, hmonth, hstart, Int.toNat_natCast]
  rfl

theorem masks_ok (hspan : InSpan startYear n df) :
    (listQuarters startYear n).mapM (fun label => quarterMask df (some label)) =
      .ok ((quartersFrom n startYear 1).map fun p => between df (keptSpan p)) := by
  rw [listQuarters, List.mapM_map]
  apply mapM_ok
  intro p hp
  exact quarterMask_label (hspan.exist p hp) (quartersFrom_bounds (by omega) (by omega) hp)

/-- A bar of the span is in one of the sub-frames unless it is late on the last day of a quarter. -/
theorem kept_iff (hspan : InSpan startYear n df) (hr : r ∈ df.rows) :
    (∃ p ∈ quartersFrom n startYear 1, within Row.dts (keptSpan p) r = true) ↔
      ∀ p ∈ quartersFrom n startYear 1, ¬ LateOnLastDay p r.dts := by
  simp only [within_iff, keptSpan, LateOnLastDay]
  constructor
  · rintro ⟨p, hp, hstart, hlast⟩ p' hp' ⟨hlate, hday⟩
    have hbounds := quartersFrom_bounds (by omega) (by omega) hp'
    have hle := quarterStart_le_end (y := p'.1) hbounds.1 hbounds.2
    unfold secondsPerDay at hstart hlast hlate hday
    rcases quartersFrom_apart (by omega) (by omega) hp hp' with rfl | hbefore | hafter
    · omega
    · omega
    · omega
  · intro hnot
    obtain ⟨p, hp, hstart, hend⟩ := hspan.bars r hr
    refine ⟨p, hp, hstart, ?_⟩
    by_contra hlate
    refine hnot p hp ⟨not_le.mp hlate, ?_⟩
    change r.dts < (quarterStart _ _ - 1 + 1) * secondsPerDay
    rwa [sub_add_cancel]

theorem resetIndex_unlabelled (df : Frame) :
    df.resetIndex.rows.map unlabelled = df.rows.map unlabelled := by
  have hrow : ∀ p : Row × ℕ, unlabelled { p.1 with index := p.2 } = unlabelled p.1 := fun _ => rfl
  calc df.resetIndex.rows.map unlabelled = df.rows.zipIdx.map fun p => unlabelled p.1 := by
        rw [Frame.resetIndex, List.map_map]
        exact List.map_congr_left fun p _ => hrow p
    _ = (df.rows.zipIdx.map Prod.fst).map unlabelled := by rw [List.map_map]; rfl
    _ = df.rows.map unlabelled := by rw [List.zipIdx_map_fst]

theorem mem_between {i : ℤ × ℤ} (h : r ∈ (between df i).rows) : i.1 ≤ r.dts ∧ r.dts ≤ i.2 := by
  have hmem : unlabelled r ∈ (between df i).rows.map unlabelled := List.mem_map_of_mem h
  rw [between, resetIndex_unlabelled] at hmem
  obtain ⟨s, hs, heq⟩ := List.mem_map.mp hmem
  have hdts : (unlabelled s).dts = (unlabelled r).dts := by rw [heq]
  replace hdts : s.dts = r.dts := hdts
  exact hdts ▸ within_iff.mp (List.mem_filter.mp hs).2

/-- The `k`-th four-hour bar from the start of 2024-03-31 on. -/
def marchBar (k : ℕ) : Row :=
  let dts := 19813 * secondsPerDay + 14400 * k
  ⟨100, 101, 99, 100, 1, dts + 14399, dts, k⟩

/-- A frame of such bars. -/
def marchFrame (ks : List ℕ) : Frame := frameOf (ks.map marchBar)

end Pyharmonics.Harness
