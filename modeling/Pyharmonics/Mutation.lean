import Pyharmonics.Library.Rounding
import Pyharmonics.TuningTables

/-! The mutation operators of the search loop, cluster by cluster. -/
namespace Pyharmonics.Loop

open Rounding

/-- A field of a cluster, with the kind of its perturbation and its keywords. No field is an
enumeration, so that there is no member of that kind. -/
inductive Member
  | absSmall (field : RatField) (min max : ℚ)
  | relLarge (field : RatField) (min max : ℚ)
  | intWindow (field : IntField) (min max : ℤ)
  | intThreshold (field : IntField) (min max : ℤ)
  | dictPerKey (field : DictField) (perKey : ℚ := 1 / 10)
    (keysBounds : Dict String (ℚ × ℚ) := .empty) (targetSum : Option ℤ := none)
    (min : ℚ := -50) (max : ℚ := 200)

namespace Member

def field : Member → TuningField
  | absSmall f _ _ => .rat f
  | relLarge f _ _ => .rat f
  | intWindow f _ _ => .int f
  | intThreshold f _ _ => .int f
  | dictPerKey f _ _ _ _ _ => .dict f

/-- The bounds are in order. -/
def Ordered : Member → Prop
  | absSmall _ min max => min ≤ max
  | relLarge _ min max => min ≤ max
  | intWindow _ min max => min ≤ max
  | intThreshold _ min max => min ≤ max
  | dictPerKey _ _ keysBounds _ _ _ => ∀ e ∈ keysBounds.entries, e.2.1 ≤ e.2.2

instance : DecidablePred Ordered := fun m => by
  unfold Ordered
  cases m <;> infer_instance

end Member

open Member

def stopBounds : Dict String (ℚ × ℚ) :=
  ⟨[("conservative", (5 / 10, 2)), ("standard", (2 / 10, 5 / 10)),
    ("aggressive", (1 / 10, 4 / 10))], by decide⟩

/-- `DEFAULT_CLUSTER_MAP` -/
def defaultClusterMap : Dict String (List Member) :=
  ⟨[("C1 Geometry",
      [absSmall .atrPrzSweep (5 / 100) 1, absSmall .feeRate (2 / 10000) (5 / 1000),
        absSmall .slippageRate (1 / 10000) (5 / 1000),
        dictPerKey .atrStopBuffer (20 / 100) stopBounds]),
    ("C2 Discipline",
      [intThreshold .maxDAgeBars 5 60, absSmall .maxPrzDistanceAtr 1 6,
        absSmall .maxFormingPrzWidthAtr (3 / 10) 3, intThreshold .authenticityHalve 30 70,
        intThreshold .authenticityVeto 10 40, absSmall .adverseSharpeThreshold (5 / 10) (25 / 10),
        intThreshold .regimeModerate 20 50, intThreshold .regimeHigh 40 80,
        absSmall .targetAtrPct 1 5, intThreshold .defaultTtlBars 20 80]),
    ("C3 Confluence",
      [intThreshold .aGradeMin 50 90, intThreshold .aGradeMinHighQuant 60 95,
        absSmall .highQuantPositionMult (3 / 10) 1,
        dictPerKey .confluenceWeights 5 .empty (some 100), dictPerKey .patternBaseScore 2,
        intThreshold .stabilityWindow 3 15]),
    ("C4 Macro",
      [absSmall .slopeTrendUp (2 / 10) 1, absSmall .slopeTrendDown (-1) (-2 / 10),
        absSmall .multTrendingAligned (8 / 10) (15 / 10),
        absSmall .multRangingAligned (8 / 10) (15 / 10),
        absSmall .multTrendingInverse (3 / 10) (9 / 10),
        absSmall .multRangingInverse (2 / 10) (9 / 10),
        absSmall .multExtremeInverse (9 / 10) (15 / 10), absSmall .multDataShort (5 / 10) 1,
        absSmall .extremeDeviationPct 10 40, intWindow .minDailyBars 100 400]),
    ("C5 Windows",
      [intThreshold .minCandles 30 200, intWindow .atrWindow 5 50, intWindow .atrLongWindow 50 200,
        intWindow .rsiWindow 5 30, intWindow .volumeMaWindow 5 50, intWindow .swingLookback 20 120,
        intWindow .quantTrapLookback 20 120, intWindow .volumeAuthenticityWindow 20 120,
        intWindow .quantRegimeWindow 50 200, intWindow .perBarSharpeWindow 5 50])], by decide⟩

/-- A `random.Random` with its state: any draws, and samples without replacement. -/
structure Rng (σ : Type*) where
  /-- `rng.gauss(0.0, sigma)` -/
  gauss : ℚ → σ → ℚ × σ
  /-- `rng.sample(members, k)` -/
  sample : List Member → ℕ → σ → List Member × σ
  sample_subperm : ∀ members k s, k ≤ members.length →
    (sample members k s).1.length = k ∧ List.Subperm (sample members k s).1 members

/-- `_clip` -/
def clip {ν : Type*} [LinearOrder ν] (x lo hi : ν) : ν := max lo (min hi x)

variable {σ : Type*}

/-- Each value moved by a draw of its own and clipped to its bounds. -/
def perturb (rng : Rng σ) (sigma : ℚ) (bounds : String → ℚ × ℚ) :
    List (String × ℚ) → σ → List (String × ℚ) × σ
  | [], s => ([], s)
  | (k, v) :: rest, s =>
    let (g, s) := rng.gauss sigma s
    let (moved, s) := perturb rng sigma bounds rest s
    ((k, clip (v + g) (bounds k).1 (bounds k).2) :: moved, s)

/-- `scaled[last_key] += drift` -/
def addLast (drift : ℤ) : List (String × ℤ) → List (String × ℤ)
  | [] => []
  | [(k, v)] => [(k, v + drift)]
  | e :: f :: rest => e :: addLast drift (f :: rest)

/-- The rounded shares of a sum, and what is left of it on the last key. -/
def renormalise (targetSum : ℤ) (new : List (String × ℚ)) : List (String × ℚ) :=
  let s := (new.map Prod.snd).sum
  if s = 0 then new
  else
    let scaled := new.map fun e => (e.1, halfEven (e.2 * (targetSum / s)))
    let drift := targetSum - (scaled.map Prod.snd).sum
    (addLast drift scaled).map fun e => (e.1, (e.2 : ℚ))

/-- The new values of a `dict_per_key` field. -/
def perturbedDict (rng : Rng σ) (sigma : ℚ) (keysBounds : Dict String (ℚ × ℚ))
    (targetSum : Option ℤ) (bounds : ℚ × ℚ) (cur : Dict String ℚ) (s : σ) :
    List (String × ℚ) × σ :=
  let (new, s) := perturb rng sigma (fun k => keysBounds.getD k bounds) cur.entries s
  match targetSum with
  | none => (new, s)
  | some target => (renormalise target new, s)

section
variable {rng : Rng σ} {sigma : ℚ} {bounds : String → ℚ × ℚ} {es : List (String × ℚ)} {s : σ}

theorem keys_perturb : (perturb rng sigma bounds es s).1.map Prod.fst = es.map Prod.fst := by
  induction es generalizing s with
  | nil => rfl
  | cons e es ih => simp [perturb, ih]

theorem keys_addLast {drift : ℤ} {es : List (String × ℤ)} :
    (addLast drift es).map Prod.fst = es.map Prod.fst := by
  induction es with
  | nil => rfl
  | cons e es ih =>
    cases es with
    | nil => rfl
    | cons f es =>
      rw [addLast, List.map_cons, ih]
      rfl

theorem keys_renormalise {target : ℤ} :
    (renormalise target es).map Prod.fst = es.map Prod.fst := by
  unfold renormalise
  simp only
  split_ifs
  · rfl
  · rw [List.map_map, show (Prod.fst ∘ fun e : String × ℤ => (e.1, (e.2 : ℚ))) = Prod.fst from rfl,
      keys_addLast, List.map_map]
    rfl

theorem keys_perturbedDict {keysBounds : Dict String (ℚ × ℚ)} {targetSum : Option ℤ}
    {bounds : ℚ × ℚ} {cur : Dict String ℚ} :
    (perturbedDict rng sigma keysBounds targetSum bounds cur s).1.map Prod.fst = cur.keys := by
  unfold perturbedDict
  cases targetSum with
  | none => exact keys_perturb
  | some target => exact keys_renormalise.trans keys_perturb

end

/-- The fields a mutation proposes; they have yet to pass `__post_init__`. -/
def proposal (rng : Rng σ) (m : Member) (t : TuningFields) (sigmaScale : ℚ) (s : σ) :
    TuningFields × σ :=
  match m with
  | .absSmall f min max =>
    let (g, s) := rng.gauss (sigmaScale * (5 / 100)) s
    (t.replaceRat f (clip (t.rat f + g) min max), s)
  | .relLarge f min max =>
    let (g, s) := rng.gauss (sigmaScale * (5 / 100)) s
    (t.replaceRat f (clip (t.rat f * (1 + g)) min max), s)
  | .intWindow f min max =>
    let (g, s) := rng.gauss (sigmaScale * 5) s
    (t.replaceInt f (clip (halfEven (t.int f + g)) min max), s)
  | .intThreshold f min max =>
    let (g, s) := rng.gauss (sigmaScale * 3) s
    (t.replaceInt f (clip (halfEven (t.int f + g)) min max), s)
  | .dictPerKey f perKey keysBounds targetSum min max =>
    let new := perturbedDict rng (sigmaScale * perKey) keysBounds targetSum (min, max) (t.dict f) s
    (t.replaceDict f ⟨new.1, by rw [keys_perturbedDict]; exact (t.dict f).nodup⟩, new.2)

/-- `_apply_one_mutation` -/
def applyOneMutation (rng : Rng σ) (m : Member) (t : TuningConstants) (sigmaScale : ℚ) (s : σ) :
    Except PyError TuningConstants × σ :=
  let (new, s) := proposal rng m t.toTuningFields sigmaScale s
  (new.build, s)

/-- The attempts of `mutate_field`; `__post_init__` raises nothing but `ValueError`. -/
def attempts (rng : Rng σ) (m : Member) (t : TuningConstants) (sigmaScale : ℚ) :
    ℕ → σ → TuningConstants × σ
  | 0, s => (t, s)
  | n + 1, s =>
    match applyOneMutation rng m t sigmaScale s with
    | (.ok new, s) => (new, s)
    | (.error _, s) => attempts rng m t sigmaScale n s

def maxRetries : ℕ := 5

/-- `mutate_field` -/
def mutateField (rng : Rng σ) (m : Member) (t : TuningConstants) (sigmaScale : ℚ) (s : σ) :
    TuningConstants × σ := attempts rng m t sigmaScale (maxRetries + 1) s

/-- One mutation after another, each with its own scale. -/
def mutateEach (rng : Rng σ) (scale : Member → ℚ) (chosen : List Member) (t : TuningConstants)
    (s : σ) : TuningConstants × σ :=
  chosen.foldl (fun (t, s) m => mutateField rng m t (scale m) s) (t, s)

/-- `mutate_cluster` -/
def mutateCluster (rng : Rng σ) (t : TuningConstants) (cluster : String) (sigmaScale : ℚ := 1)
    (nMutations : Option ℕ := none) (s : σ) : TuningConstants × σ :=
  let members := defaultClusterMap.getD cluster []
  if members = [] then (t, s)
  else
    let (chosen, s) := rng.sample members (min (nMutations.getD 1) members.length) s
    mutateEach rng (fun _ => sigmaScale) chosen t s

/-- The gradient of one field and the scale of σ it recommends. -/
structure FieldSensitivity where
  field : String
  recommendedSigmaScale : ℚ

structure SensitivityReport where
  fields : List FieldSensitivity := []
  defaultSigmaScale : ℚ := 1

/-- `scale_for` -/
def SensitivityReport.scaleFor (report : SensitivityReport) (field : String) : ℚ :=
  ((report.fields.find? fun f => f.field = field).map FieldSensitivity.recommendedSigmaScale).getD
    report.defaultSigmaScale

/-- A child and its name; the driver gets `to_dict` of the tuning. -/
structure ChildCandidate where
  candidateId : String
  tuning : TuningConstants

/-- `f"gen{gen}-{cluster.replace(' ', '')}-{i:03d}"` -/
def childId (gen : ℤ) (cluster : String) (i : ℕ) : String :=
  let digits := toString i
  "gen" ++ toString gen ++ "-" ++ String.ofList (cluster.toList.filter (· ≠ ' ')) ++ "-" ++
    String.ofList (List.replicate (3 - digits.length) '0') ++ digits

/-- One child, with the blanket scale or the scales of the report. -/
def makeChild (rng : Rng σ) (parent : TuningConstants) (cluster : String) (members : List Member)
    (sigmaScale : ℚ) (nMutations : ℕ) (sensitivity : Option SensitivityReport) (s : σ) :
    TuningConstants × σ :=
  match sensitivity with
  | none => mutateCluster rng parent cluster sigmaScale (some nMutations) s
  | some report =>
    let (chosen, s) := rng.sample members (min nMutations members.length) s
    mutateEach rng (fun m => report.scaleFor m.field.name) chosen parent s

/-- `lambda_` children, numbered from `i` on. -/
def childrenFrom (gen : ℤ) (cluster : String) (child : σ → TuningConstants × σ) :
    ℕ → ℕ → σ → List ChildCandidate
  | 0, _, _ => []
  | n + 1, i, s =>
    ⟨childId gen cluster i, (child s).1⟩ :: childrenFrom gen cluster child n (i + 1) (child s).2

/-- `make_child_candidates`, from the state `random.Random(seed)` starts in. -/
def makeChildCandidates (rng : Rng σ) (parent : TuningConstants) (cluster : String) (lambda_ : ℕ)
    (sigmaScale : ℚ) (nMutations : ℕ) (gen : ℤ) (sensitivity : Option SensitivityReport) (s : σ) :
    Except PyError (List ChildCandidate) :=
  match defaultClusterMap.get? cluster with
  | none => .error (.other cluster)
  | some members => .ok (childrenFrom gen cluster
      (makeChild rng parent cluster members sigmaScale nMutations sensitivity) lambda_ 0 s)

end Pyharmonics.Loop
