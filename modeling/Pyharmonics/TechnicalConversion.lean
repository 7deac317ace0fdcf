import Pyharmonics.SignalReturns
import Pyharmonics.TechnicalResult

/-! The detections and the signals the response schema can be filled from. -/
namespace Pyharmonics

variable {w : Process} {t : TuningFields} {r : DetectionResult} {signal : Option Signal}
  {entry stop target : Option ℚ} {s : Signal} {p : PatternPosition}
  {sqrt : ℚ → ℚ} {resample : String → List (ℤ × ℚ) → List ℚ} {unknown : String → Bool}

/-- The conversion returns, without a ratio or with a positive one. -/
def Converts (N : Numerics) (w : Process) (r : DetectionResult) (signal : Option Signal) : Prop :=
  ∃ result, technicalResultToSchema N w r signal = .ok result ∧
    ∀ x ∈ result.riskRewardRatio, 0 < x

/-- The texts of the detected pattern are as short as the fields they go to. -/
structure TextsFit (r : DetectionResult) : Prop where
  family : ∀ s ∈ r.patterns, s.family.length ≤ 32
  direction : ∀ s ∈ r.patterns, s.direction.length ≤ 16

/-- A signal passes the schema it is nested in the result as. -/
def SchemaFits (s : Signal) : Prop := ∀ c ∈ s.schemaChecks, c.2 = true

/-- A level is zero or missing, or the three of them can be rated. -/
def LevelsFit (t : TuningFields) (entry stop target : Option ℚ) : Prop :=
  ∀ e ∈ orNone entry, ∀ s ∈ orNone stop, ∀ x ∈ orNone target,
    0 < e ∧ 0 < s ∧ RatioFits t e s x

/-- What the levels of the result are taken from can be rated. -/
def SourceFits (t : TuningFields) : Option Signal → Option PatternPosition → Prop
  | some s, _ => SchemaFits s ∧
      ∀ x ∈ s.targets.head?, RatioFits t s.entryReference s.stopLoss x.price
  | none, some p => LevelsFit t (some p.strike) p.stop p.targets.head?
  | none, none => True

theorem mem_orNone {x : Option ℚ} {a : ℚ} : a ∈ orNone x ↔ x = some a ∧ a ≠ 0 := by
  simp [orNone, Option.filter_eq_some_iff]

theorem orNone_orNone {x : Option ℚ} : orNone (orNone x) = orNone x := by
  simp [orNone]

theorem validate_ok_iff {checks : List (String × Bool)} :
    validate checks = .ok () ↔ ∀ c ∈ checks, c.2 = true := by
  unfold validate
  cases h : checks.filter fun c => !c.2 with
  | nil => simpa [List.filter_eq_nil_iff] using h
  | cons c l =>
    have hc : c ∈ checks.filter fun c => !c.2 := by simp [h]
    refine iff_of_false (by simp) fun hall => ?_
    obtain ⟨hmem, hfalse⟩ := List.mem_filter.mp hc
    simp [hall c hmem] at hfalse

/-- The constructor checks the texts of the pattern and the signal, and sets no ratio. -/
theorem construct_ok_iff {P : TechnicalResult → Prop} :
    (∃ result, TechnicalResult.construct r signal = .ok result ∧ P result) ↔
      (TextsFit r ∧ ∀ s ∈ signal, SchemaFits s) ∧ P {
        patternFamily := r.patterns.map PatternSummary.family
        patternType := some (if r.patterns.any PatternSummary.forming then "forming" else "formed")
        direction := r.patterns.map PatternSummary.direction
        divergences := r.divergences
        rawPatterns := r.patterns
        signal := signal } := by
  have hchecks : (TextsFit r ∧ ∀ s ∈ signal, SchemaFits s) ↔
      validate ([("pattern_family", (r.patterns.map PatternSummary.family).all (lengthIn 0 32)),
        ("direction", (r.patterns.map PatternSummary.direction).all (lengthIn 0 16))] ++
          (signal.map Signal.schemaChecks).getD []) = .ok () := by
    rw [validate_ok_iff, List.forall_mem_append, List.forall_mem_cons, List.forall_mem_singleton]
    refine and_congr ?_ ?_
    · constructor
      · rintro ⟨hf, hd⟩
        exact ⟨by simpa [Option.all_eq_true, lengthIn] using hf,
          by simpa [Option.all_eq_true, lengthIn] using hd⟩
      · rintro ⟨hf, hd⟩
        exact ⟨by simpa [Option.all_eq_true, lengthIn] using hf,
          by simpa [Option.all_eq_true, lengthIn] using hd⟩
    · cases signal with
      | none => simp
      | some s => simp [SchemaFits]
  rw [hchecks]
  unfold TechnicalResult.construct
  constructor
  · rintro ⟨result, h, hP⟩
    obtain ⟨_, hv, h⟩ := bind_ok.mp h
    cases h
    exact ⟨hv, hP⟩
  · rintro ⟨hv, hP⟩
    exact ⟨_, bind_ok.mpr ⟨(), hv, rfl⟩, hP⟩

/-- A ratio is rated under its contract exactly when its levels fit. -/
theorem ratioOf_ok_iff : (∃ rr, ratioOf (.decimal sqrt resample unknown) w entry stop target =
    .ok rr ∧ ∀ x ∈ rr, 0 < x) ↔ LevelsFit w.getTuning.toTuningFields entry stop target := by
  unfold ratioOf LevelsFit
  cases orNone entry with
  | none => simp
  | some e =>
    cases orNone stop with
    | none => simp
    | some s =>
      cases orNone target with
      | none => simp
      | some x =>
        simp only [Option.mem_some_iff, forall_eq']
        constructor
        · rintro ⟨rr, h, -⟩
          unfold netRr at h
          simp only [require_bind_ok] at h
          obtain ⟨hx, hs, he, hr, -⟩ := h
          exact ⟨he, hs, hx, (netRatio_pos_iff he).mp hr⟩
        · rintro ⟨he, hs, hx, hr⟩
          have hpos : ∀ y ∈ netRatio (.decimal sqrt resample unknown)
              w.getTuning.toTuningFields e s x, 0 < y := (netRatio_pos_iff he).mpr hr
          refine ⟨_, ?_, hpos⟩
          unfold netRr
          simp only [require_bind_ok]
          exact ⟨hx, hs, he, hpos, rfl⟩

/-- The levels of a signal in its schema are positive. -/
theorem SchemaFits.levels (h : SchemaFits s) :
    0 < s.entryReference ∧ 0 < s.stopLoss ∧ ∀ x ∈ s.targets, 0 < x.price := by
  unfold SchemaFits Signal.schemaChecks at h
  simp only [List.forall_mem_cons] at h
  obtain ⟨-, -, he, hs, -, -, -, ht, -⟩ := h
  refine ⟨of_decide_eq_true he, of_decide_eq_true hs, fun x hx => ?_⟩
  have hx := List.all_eq_true.mp ht x hx
  simp only [SignalTarget.schemaOk, Bool.and_eq_true, decide_eq_true_eq] at hx
  exact hx.1.1.1.2

/-- The levels of a signal in its schema are all there, so its first target is rated. -/
theorem SchemaFits.levelsFit_iff (h : SchemaFits s) :
    LevelsFit t (some s.entryReference) (some s.stopLoss)
      (s.targets.head?.map SignalTarget.price) ↔
        ∀ x ∈ s.targets.head?, RatioFits t s.entryReference s.stopLoss x.price := by
  obtain ⟨he, hs, hx⟩ := h.levels
  unfold LevelsFit
  constructor
  · intro hfit x hmem
    have hpos := hx x (List.mem_of_mem_head? hmem)
    exact (hfit _ (mem_orNone.mpr ⟨rfl, he.ne'⟩) _ (mem_orNone.mpr ⟨rfl, hs.ne'⟩) _
      (mem_orNone.mpr ⟨by rw [hmem]; rfl, hpos.ne'⟩)).2.2
  · intro hfit e hemem s' hsmem y hymem
    obtain ⟨he', -⟩ := mem_orNone.mp hemem
    obtain ⟨hs', -⟩ := mem_orNone.mp hsmem
    obtain ⟨hy, -⟩ := mem_orNone.mp hymem
    obtain ⟨x, hmem, rfl⟩ := Option.map_eq_some_iff.mp hy
    cases he'
    cases hs'
    exact ⟨he, hs, hfit x hmem⟩

/-- What holds of the value of a call holds of it at its second part. -/
theorem bind_ok_and {α β : Type} {x : Except PyError α} {f : α → Except PyError β} {P : β → Prop} :
    (∃ b, (x >>= f) = .ok b ∧ P b) ↔ ∃ a, x = .ok a ∧ ∃ b, f a = .ok b ∧ P b := by
  simp only [bind_ok]
  constructor
  · rintro ⟨b, ⟨a, ha, hb⟩, hP⟩
    exact ⟨a, ha, b, hb, hP⟩
  · rintro ⟨a, ha, b, hb, hP⟩
    exact ⟨b, ⟨a, ha, hb⟩, hP⟩

/-- A result that is completed with a ratio. -/
theorem rated_iff {x : Except PyError (Option ℚ)} {f : Option ℚ → TechnicalResult}
    (hf : ∀ rr, (f rr).riskRewardRatio = rr) :
    (∃ result, (x >>= fun rr => pure (f rr)) = .ok result ∧
      ∀ y ∈ result.riskRewardRatio, 0 < y) ↔ ∃ rr, x = .ok rr ∧ ∀ y ∈ rr, 0 < y := by
  rw [bind_ok_and]
  simp [pure, Except.pure, hf]

/-- The schema is filled exactly when the texts fit it and the levels that are there can be
rated. -/
theorem converts_iff : Converts (.decimal sqrt resample unknown) w r signal ↔
    TextsFit r ∧ SourceFits w.getTuning.toTuningFields signal r.position := by
  unfold Converts technicalResultToSchema
  rw [bind_ok_and, construct_ok_iff, and_assoc]
  refine and_congr_right fun _ => ?_
  cases signal with
  | some s =>
    simp only [Option.mem_some_iff, forall_eq']
    unfold SourceFits
    refine and_congr_right fun hs => ?_
    rw [rated_iff fun _ => rfl, ratioOf_ok_iff, hs.levelsFit_iff]
  | none =>
    cases hp : r.position with
    | some p =>
      simp only [Option.not_mem_none, false_implies, implies_true, true_and]
      rw [rated_iff fun _ => rfl, ratioOf_ok_iff]
      unfold LevelsFit SourceFits
      rw [orNone_orNone, orNone_orNone]
      rfl
    | none => simp [SourceFits, pure, Except.pure]

/-- A short at 100 with a stop above it and a first target below zero. -/
def sunkenPosition : PatternPosition :=
  { symbol := "BTCUSDT", interval := "4h", forming := false, family := "XABCD", strike := 100
    stop := some 110, targets := [-5, -40, -120], direction := "bearish", htfTrend := none }

def sunkenDetection : DetectionResult :=
  { position := some sunkenPosition
    patterns := some {
      symbol := "BTCUSDT", family := "XABCD", direction := "bearish", entry := 100
      stop := some 110, targets := [-5, -40, -120], forming := false } }

/-- Neither levels with a target below zero nor a short with its extension there are converted. -/
theorem sunken_raises : ¬ Converts plainNumerics defaultProcess sunkenDetection none ∧
    ∃ S, buildSignal plainNumerics defaultProcess cappedInput = .ok (some S) ∧
      ¬ Converts plainNumerics defaultProcess {} (some S) := by
  refine ⟨?_, ?_⟩
  · rintro ⟨result, h, -⟩
    have hnone : (technicalResultToSchema plainNumerics defaultProcess sunkenDetection
      none).toOption.isNone := by decide +kernel
    rw [h] at hnone
    simp [Except.toOption] at hnone
  · obtain ⟨S, hS, hview⟩ := exists_of_view capped_view
    refine ⟨S, hS, ?_⟩
    rintro ⟨result, h, -⟩
    obtain ⟨_, hfirst, -⟩ := bind_ok.mp h
    obtain ⟨_, hchecks, -⟩ := bind_ok.mp hfirst
    have hfits : SchemaFits S := fun c hc => validate_ok_iff.mp hchecks c (by simp [hc])
    have hmem : (-176 / 100 : ℚ) ∈ S.targets.map SignalTarget.price := by simp [hview]
    obtain ⟨x, hx, hprice⟩ := List.mem_map.mp hmem
    have hpos := hfits.levels.2.2 x hx
    rw [hprice] at hpos
    norm_num at hpos

end Pyharmonics
