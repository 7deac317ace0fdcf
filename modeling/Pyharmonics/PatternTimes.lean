import Pyharmonics.DisciplineFilters
import Pyharmonics.Extraction
import Pyharmonics.Grading

/-! The times and the bar positions of a pattern found in a frame with an index of its own. -/
namespace Pyharmonics

variable {f : Found} {fs : List Found} {c : Candidate} {cs : List Candidate}
  {raw : RawAssessment} {x : Except PyError (List ℤ × List ℤ)}

/-- The index of a frame: consecutive integers, or a time stamp for every row. -/
inductive FrameIndex
  | range (start : ℤ) | datetime (stamps : List ℤ)
  deriving DecidableEq

/-- A frame with close times, and its index. -/
structure IndexedFrame where
  df : Frame
  index : FrameIndex
  timed : "close_time" ∈ df.columns
  fits : ∀ stamps, index = .datetime stamps → stamps.length = df.length

namespace IndexedFrame

variable {F : IndexedFrame} {pos : Found → List ℕ} {ps : List ℕ}

/-- `df["close_time"]` -/
def closeColumn (F : IndexedFrame) : List ℤ := F.df.rows.map Row.closeTime

/-- `df.index[p]` -/
def label (F : IndexedFrame) (p : ℕ) : IndexLabel :=
  match F.index with
  | .range start => .position (start + p)
  | .datetime stamps => .timestamp (stamps.getD p 0)

/-- `close_times[i]` of the column: by label, or by position where the labels are time stamps. -/
def columnAt (F : IndexedFrame) (i : ℤ) : Except PyError ℤ :=
  let first := match F.index with
    | .range start => start
    | .datetime _ => 0
  match if first ≤ i then F.closeColumn[(i - first).toNat]? else none with
  | some time => .ok time
  | none => .error (.other "KeyError")

/-- The body of the loop over `pattern.x`; a label that is no position of the column is skipped. -/
def columnTime (F : IndexedFrame) : IndexLabel → Except PyError (Option ℤ)
  | .position i => if 0 ≤ i ∧ i < F.df.length then (F.columnAt i).map some else .ok none
  | .timestamp seconds => .ok (some seconds)
  | .unreadable => .ok none

def mappedTimes (F : IndexedFrame) : List IndexLabel → Except PyError (List ℤ)
  | [] => .ok []
  | t :: ts => do
    let time ← F.columnTime t
    let rest ← F.mappedTimes ts
    return time.toList ++ rest

/-- `_extract_times` with the column of the frame for its close times. -/
def extractTimes (F : IndexedFrame) (x : PatternX) : Except PyError (List ℤ × List ℤ) :=
  match x with
  | .ambiguous => .error (.valueError "The truth value is ambiguous" [])
  | .notIterable => .ok ([], [])
  | .labels xs => do
    let times ← F.mappedTimes xs
    return (times, xs.filterMap IndexLabel.toInt?)

end IndexedFrame

/-- The candidate of a pattern before its times are known; there is none where it is skipped. -/
def Found.untimed (f : Found) : Option Candidate :=
  match f.pattern.y, f.pattern.completionMinPrice, f.pattern.completionMaxPrice, f.pattern.name,
    f.pattern.bullish with
  | some points, some cMin, some cMax, some name, some bullish =>
    if points.length < 3 ∨ cMin ≤ 0 ∨ cMax ≤ 0 then none
    else some {
      family := f.family, name := name, bullish := bullish, formed := f.formed, points := points
      completionMin := cMin, completionMax := cMax }
  | _, _, _, _, _ => none

/-- `_to_candidate` with the outcome of `_extract_times`. -/
def candidateWith (x : Except PyError (List ℤ × List ℤ)) (f : Found) :
    Except PyError (Option Candidate) :=
  match f.untimed with
  | none => .ok none
  | some c => do
    let (times, indices) ← x
    return some { c with times := times, indices := indices }

/-- The loop of `extract_candidates` over an `_extract_times` of its own. -/
def candidatesWith (extract : PatternX → Except PyError (List ℤ × List ℤ)) :
    List Found → Except PyError (List Candidate)
  | [] => .ok []
  | f :: fs => do
    let c ← candidateWith (extract f.pattern.x) f
    let rest ← candidatesWith extract fs
    return c.toList ++ rest

theorem toCandidate_eq (closeTimes : Option (List ℤ)) (f : Found) :
    toCandidate closeTimes f = candidateWith (extractTimes f.pattern.x closeTimes) f := by
  obtain ⟨family, formed, y, cMin, cMax, name, bullish, x, direction, htfTrend⟩ := f
  unfold toCandidate candidateWith Found.untimed
  rcases y with - | points
  · rfl
  rcases cMin with - | cMin
  · rfl
  rcases cMax with - | cMax
  · rfl
  rcases name with - | name
  · rfl
  rcases bullish with - | bullish
  · rfl
  by_cases h : points.length < 3 ∨ cMin ≤ 0 ∨ cMax ≤ 0
  · simp only [if_pos h]
  · simp only [if_neg h]

/-- With a list of close times the loop is the one of `extract_candidates`. -/
theorem candidatesOf_eq (closeTimes : Option (List ℤ)) (fs : List Found) :
    candidatesOf closeTimes fs = candidatesWith (extractTimes · closeTimes) fs := by
  induction fs with
  | nil => rfl
  | cons f fs ih => rw [candidatesOf, candidatesWith, ih, toCandidate_eq]

/-- `extract_candidates` with `df["close_time"]`. -/
def extractCandidatesOn (F : IndexedFrame) (raw : RawAssessment) :
    Except PyError (List Candidate) :=
  candidatesWith F.extractTimes raw.found

namespace IndexedFrame

variable {F : IndexedFrame} {pos : Found → List ℕ} {ps : List ℕ}

/-- The close times of the bars at these positions. -/
def closeTimesAt (F : IndexedFrame) (ps : List ℕ) : List ℤ := ps.map fun p => F.closeColumn.getD p 0

/-- The candidate of a pattern whose pivots are at these positions. -/
def placed (F : IndexedFrame) (ps : List ℕ) (f : Found) : Option Candidate :=
  f.untimed.map fun c => { c with times := F.closeTimesAt ps, indices := ps.map Nat.cast }

/-- The discipline filters count the bars after `C`, and see whether one of them meets the zone. -/
def Reports (df : Frame) (c : Candidate) (C : ℕ) : Prop :=
  ∀ N w price maxTtl, 0 < price → (∀ t ∈ maxTtl, 0 ≤ t) →
    Returns (computeTargets N w c ((c.przLow + c.przHigh) / 2)) →
    ∃ r, Discipline.evaluate N w df c price maxTtl none = .ok r ∧
      r.metrics.barsSinceC = (df.rows.drop (C + 1)).length ∧
      (r.metrics.breachedStop = true ↔
        ∃ bar ∈ df.rows.drop (C + 1), c.przLow ≤ bar.high ∧ bar.low ≤ c.przHigh)

/-- The candidates carry the close times and the positions of their pivots, the last but one of
which is C. -/
structure Provenance (F : IndexedFrame) (raw : RawAssessment) (pos : Found → List ℕ) : Prop where
  extracted : extractCandidatesOn F raw = .ok (raw.found.filterMap fun f => F.placed (pos f) f)
  reported : ∀ f ∈ raw.found, ∀ c ∈ F.placed (pos f) f, ∀ C ∈ (pos f).dropLast.getLast?,
    Reports F.df c C

/-- Labels of a range from zero are positions, so every close time is found at its own. -/
theorem mappedTimes_of_range (hF : F.index = .range 0) (h : ∀ p ∈ ps, p < F.df.length) :
    F.mappedTimes (ps.map F.label) = .ok (F.closeTimesAt ps) := by
  induction ps with
  | nil => rfl
  | cons p ps ih =>
    have hp : p < F.closeColumn.length := by
      rw [closeColumn, List.length_map]
      exact h p (by simp)
    have hlen : p < F.df.length := h p (by simp)
    have hhead : F.columnTime (F.label p) = .ok (some (F.closeColumn.getD p 0)) := by
      simp [label, columnTime, columnAt, hF, hlen, hp, Except.map]
    rw [List.map_cons, mappedTimes, hhead, ih fun q hq => h q (by simp [hq])]
    rfl

theorem przWasTouched_iff {after : List Row} {lo hi : ℚ} {bullish : Bool} :
    Discipline.przWasTouched after lo hi bullish = true ↔
      ∃ bar ∈ after, lo ≤ bar.high ∧ bar.low ≤ hi := by
  cases bullish with
  | true => simp [Discipline.przWasTouched]
  | false => simp [Discipline.przWasTouched, and_comm]

/-- A candidate at known positions is judged from its C pivot on. -/
theorem pivotIndex_eq {C : ℕ} (hi : c.indices = ps.map Nat.cast)
    (hC : C ∈ ps.dropLast.getLast?) : Discipline.pivotIndex c = C := by
  rw [Option.mem_def, List.getLast?_eq_getElem?, List.length_dropLast, List.getElem?_dropLast] at hC
  split_ifs at hC with h
  unfold Discipline.pivotIndex
  rw [hi, List.length_map, if_pos (by omega), List.getD_eq_getElem?_getD, List.getElem?_map,
    show ps.length - 2 = ps.length - 1 - 1 by omega, hC]
  rfl

/-- The bars after a position of the frame. -/
theorem after_eq {df : Frame} {C : ℕ} (hC : C < df.length) :
    (if (C : ℤ) + 1 < df.length then Discipline.rowsFrom df (C + 1) else []) =
      df.rows.drop (C + 1) := by
  split_ifs with h
  · rw [Discipline.rowsFrom, if_pos (by omega)]
    rfl
  · rw [List.drop_eq_nil_of_le]
    change df.length ≤ C + 1
    omega

theorem untimed_zone (h : f.untimed = some c) : 0 < c.przLow ∧ 0 < c.przHigh := by
  unfold Found.untimed at h
  split at h
  · split_ifs at h with hskip
    push Not at hskip
    rw [← Option.some.inj h]
    exact ⟨lt_min hskip.2.1 hskip.2.2, lt_max_of_lt_left hskip.2.1⟩
  · cases h

/-- What the filters report of a candidate at positions of the frame they read. -/
theorem reports_of_indices {C : ℕ} (hps : ∀ p ∈ ps, p < F.df.length)
    (hzone : 0 < c.przLow ∧ 0 < c.przHigh) (hi : c.indices = ps.map Nat.cast)
    (hC : C ∈ ps.dropLast.getLast?) : Reports F.df c C := by
  have hlt : C < F.df.length := hps C (List.mem_of_mem_dropLast (List.mem_of_getLast? hC))
  intro N w price maxTtl hprice httl htargets
  obtain ⟨past, hpast⟩ : Returns (Discipline.pastTp2 N w price c c.bullish) :=
    Discipline.pastTp2_returns htargets
  have httl' : 0 ≤ maxTtl.getD w.getTuning.defaultTtlBars := by
    cases maxTtl with
    | none => exact Discipline.defaultTtl_nonneg
    | some t => exact httl t rfl
  unfold Discipline.evaluate
  simp only [require_bind_ok, Option.getD_none, pivotIndex_eq hi hC, after_eq hlt, hpast, ok_bind]
  refine ⟨_, ⟨httl', hprice, hzone, by omega, rfl⟩, ?_, przWasTouched_iff⟩
  change Discipline.barsSince C F.df.length = _
  rw [Discipline.barsSince, if_neg (by omega), List.length_drop]
  change max 0 ((F.df.length : ℤ) - 1 - C) = ((F.df.length - (C + 1) : ℕ) : ℤ)
  omega

theorem reports_placed {C : ℕ} (hps : ∀ p ∈ ps, p < F.df.length) (hc : c ∈ F.placed ps f)
    (hC : C ∈ ps.dropLast.getLast?) : Reports F.df c C := by
  obtain ⟨c₀, h₀, rfl⟩ := Option.map_eq_some_iff.mp hc
  have hzone := untimed_zone h₀
  exact reports_of_indices hps hzone rfl hC

/-- A pattern is placed at its pivots exactly when its times and positions are read so. -/
theorem candidateWith_placed_iff : candidateWith x f = .ok (F.placed ps f) ↔
    (f.untimed.isSome → x = .ok (F.closeTimesAt ps, ps.map Nat.cast)) := by
  unfold candidateWith placed
  cases f.untimed with
  | none => simp
  | some c =>
    simp only [Option.isSome_some, true_implies, Option.map_some]
    constructor
    · intro h
      obtain ⟨⟨times, indices⟩, hx, h⟩ := bind_ok.mp h
      cases h
      exact hx
    · rintro rfl
      rfl

theorem candidateWith_isSome {o : Option Candidate} (h : candidateWith x f = .ok o) :
    o.isSome = (F.placed ps f).isSome := by
  unfold candidateWith at h
  unfold placed
  cases hu : f.untimed with
  | none =>
    rw [hu] at h
    cases h
    rfl
  | some c =>
    rw [hu] at h
    obtain ⟨_, -, h⟩ := bind_ok.mp h
    cases h
    rfl

/-- The loop places every pattern exactly when each of them is placed. -/
theorem candidatesWith_placed_iff {extract : PatternX → Except PyError (List ℤ × List ℤ)} :
    candidatesWith extract fs = .ok (fs.filterMap fun f => F.placed (pos f) f) ↔
      ∀ f ∈ fs, candidateWith (extract f.pattern.x) f = .ok (F.placed (pos f) f) := by
  induction fs with
  | nil => simp [candidatesWith]
  | cons f fs ih =>
    have hcons : (f :: fs).filterMap (fun f => F.placed (pos f) f) =
        (F.placed (pos f) f).toList ++ fs.filterMap fun f => F.placed (pos f) f := by
      rw [List.filterMap_cons]
      cases F.placed (pos f) f <;> rfl
    rw [List.forall_mem_cons, ← ih, hcons]
    constructor
    · intro h
      obtain ⟨o, ho, h⟩ := bind_ok.mp h
      obtain ⟨rest, hrest, h⟩ := bind_ok.mp h
      have happ := Except.ok.inj h
      have hlen : o.toList.length = (F.placed (pos f) f).toList.length := by
        have hsome : o.isSome = (F.placed (pos f) f).isSome := candidateWith_isSome ho
        cases o <;> cases hp : F.placed (pos f) f <;> simp_all
      obtain ⟨hhead, htail⟩ := List.append_inj happ hlen
      have hsame : o = F.placed (pos f) f := by
        cases o <;> cases hp : F.placed (pos f) f <;> simp_all
      rw [ho, hrest, htail, hsame]
      exact ⟨rfl, rfl⟩
    · rintro ⟨hhead, htail⟩
      rw [candidatesWith, hhead, htail]
      rfl

/-- The pivots of a pattern are read back exactly from a range index that starts at zero. -/
theorem extractTimes_labels_iff (hps : ∀ p ∈ ps, p < F.df.length) :
    F.extractTimes (.labels (ps.map F.label)) = .ok (F.closeTimesAt ps, ps.map Nat.cast) ↔
      F.index = .range 0 ∨ ps = [] := by
  unfold extractTimes
  constructor
  · intro h
    obtain ⟨times, -, h⟩ := bind_ok.mp h
    have hi : (ps.map F.label).filterMap IndexLabel.toInt? = ps.map Nat.cast :=
      congrArg Prod.snd (Except.ok.inj h)
    cases ps with
    | nil => exact Or.inr rfl
    | cons p ps =>
      left
      cases hF : F.index with
      | range start =>
        -- the label of the first pivot is its position
        simp only [label, hF, List.map_cons, List.filterMap_cons, IndexLabel.toInt?,
          List.cons.injEq] at hi
        obtain rfl : start = 0 := by omega
        rfl
      | datetime stamps =>
        -- no label is a position
        have hnone : ((p :: ps).map F.label).filterMap IndexLabel.toInt? = [] := by
          simp [label, hF, IndexLabel.toInt?]
        rw [hnone] at hi
        cases hi
  · rintro (hF | rfl)
    · have hlabels : (ps.map F.label).filterMap IndexLabel.toInt? = ps.map Nat.cast := by
        simp [label, hF, List.filterMap_map, Function.comp_def, IndexLabel.toInt?]
      simp only [mappedTimes_of_range hF hps, ok_bind, hlabels]
      rfl
    · rfl

/-- The times and positions of the pivots are those of their bars exactly in a frame whose index
counts its rows from zero, or for patterns without pivots. -/
theorem provenance_iff (hpos : ∀ f ∈ raw.found, ∀ p ∈ pos f, p < F.df.length)
    (hx : ∀ f ∈ raw.found, f.pattern.x = .labels ((pos f).map F.label)) :
    Provenance F raw pos ↔
      F.index = .range 0 ∨ ∀ f ∈ raw.found, f.untimed.isSome → pos f = [] := by
  have hextracted : extractCandidatesOn F raw =
      .ok (raw.found.filterMap fun f => F.placed (pos f) f) ↔
        ∀ f ∈ raw.found, f.untimed.isSome → F.index = .range 0 ∨ pos f = [] := by
    unfold extractCandidatesOn
    rw [candidatesWith_placed_iff]
    refine forall₂_congr fun f hf => ?_
    rw [candidateWith_placed_iff, hx f hf, extractTimes_labels_iff (hpos f hf)]
  constructor
  · intro h
    have hall := hextracted.mp h.extracted
    by_cases hF : F.index = .range 0
    · exact Or.inl hF
    · exact Or.inr fun f hf hu => (hall f hf hu).resolve_left hF
  · intro h
    refine ⟨hextracted.mpr fun f hf hu => ?_, fun f hf c hc C hC => ?_⟩
    · rcases h with hF | hnil
      · exact Or.inl hF
      · exact Or.inr (hnil f hf hu)
    · exact reports_placed (hpos f hf) hc hC

end IndexedFrame

/-- Four hours between 95 and 101, under an index. -/
def hourlyFrame (index : FrameIndex) (fits : ∀ stamps, index = .datetime stamps →
    stamps.length = 4) : IndexedFrame where
  df := frameOf ((List.range 4).map fun k =>
    { openPrice := 100, high := 101, low := 95, close := 100, volume := 1
      closeTime := 3600 * (k + 1), dts := 3600 * k, index := k })
  index := index
  timed := by decide
  fits := fits

def countedFrame : IndexedFrame := hourlyFrame (.range 0) (by simp)

/-- The same hours cut out of a longer frame. -/
def slicedFrame : IndexedFrame := hourlyFrame (.range 100) (by simp)

/-- The same hours under the times they open at. -/
def stampedFrame : IndexedFrame := hourlyFrame (.datetime [0, 3600, 7200, 10800]) (by simp)

/-- A pattern on the first three bars, with a zone every bar reaches. -/
def hourlyRaw (F : IndexedFrame) : RawAssessment :=
  { patterns := some ⟨[("ABC", some [{
      y := some [100, 110, 105], completionMinPrice := some 95, completionMaxPrice := some 96
      name := some "abc", bullish := some true
      x := .labels ([0, 1, 2].map F.label) }])], by simp⟩ }

theorem counted_provenance : IndexedFrame.Provenance countedFrame (hourlyRaw countedFrame)
    fun _ => [0, 1, 2] :=
  (IndexedFrame.provenance_iff (by decide +kernel) (by decide +kernel)).mpr (Or.inl rfl)

/-- What becomes of the pattern: its times and positions, the bars after C, and the breach. -/
def hourlyView (F : IndexedFrame) : Option (List (List ℤ × List ℤ × ℤ × Bool)) := do
  let cs ← (extractCandidatesOn F (hourlyRaw F)).toOption
  cs.mapM fun c => do
    let r ← (Discipline.evaluate plainNumerics defaultProcess F.df c 100 none none).toOption
    return (c.times, c.indices, r.metrics.barsSinceC, r.metrics.breachedStop)

/-- Beside the counted frame, neither the slice nor the stamped one tells that two bars follow C. -/
theorem pivots_lost : hourlyView countedFrame =
      some [([3600, 7200, 10800], [0, 1, 2], 2, true)] ∧
    hourlyView slicedFrame = some [([], [100, 101, 102], 0, false)] ∧
    hourlyView stampedFrame = some [([0, 3600, 7200], [], 0, false)] ∧
    ¬ IndexedFrame.Provenance slicedFrame (hourlyRaw slicedFrame) (fun _ => [0, 1, 2]) ∧
    ¬ IndexedFrame.Provenance stampedFrame (hourlyRaw stampedFrame) (fun _ => [0, 1, 2]) := by
  refine ⟨by decide +kernel, by decide +kernel, by decide +kernel, ?_, ?_⟩
  · intro h
    exact absurd h.extracted (by decide +kernel)
  · intro h
    exact absurd h.extracted (by decide +kernel)

end Pyharmonics
