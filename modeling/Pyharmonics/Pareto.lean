import Pyharmonics.Library.Dict
import Pyharmonics.Library.Fronts

/-! The Pareto set of the search loop, over numbers of any linear order. -/
namespace Pyharmonics.Loop

open Machines

variable {ν : Type*}

/-- One entry on the Pareto front. -/
structure ParetoPoint (ν : Type*) where
  paramsSha : String
  gen : ℤ
  cluster : String
  runDir : String
  sharpe : Option ν
  calmar : Option ν
  profitFactor : Option ν
  worstRegimeSharpe : Option ν
  tradeCount : ℤ
  fitness : ν
  deriving DecidableEq

/-- The trades of one regime. -/
structure RegimeBucket (ν : Type*) where
  n : ℤ := 0
  sharpe : Option ν := none
  deriving DecidableEq

/-- The metrics of a backtest that the loop reads, and the names of all it has. Of the sharpe a
missing value (`none`) and a null one (`some none`) are told apart. -/
structure Metrics (ν : Type*) where
  keys : List String := []
  sharpe : Option (Option ν) := none
  calmar : Option ν := none
  profitFactor : Option ν := none
  tradesCount : ℤ := 0
  byRegime : Dict String (RegimeBucket ν) := .empty
  fitness : Option ν := none
  deriving DecidableEq

/-- A missing metric counts as the default. -/
def safe (x : Option ν) (default : ν) : ν := x.getD default

section

variable [LinearOrder ν]

/-- The minimum sharpe of the regimes with three trades or more. -/
def worstRegimeSharpe (metrics : Metrics ν) : Option ν :=
  ((metrics.byRegime.values.filter fun b => 3 ≤ b.n).filterMap RegimeBucket.sharpe).min?

def fromMetrics (metrics : Metrics ν) (paramsSha : String) (gen : ℤ) (cluster runDir : String)
    (fitness : ν) : ParetoPoint ν where
  paramsSha := paramsSha
  gen := gen
  cluster := cluster
  runDir := runDir
  sharpe := metrics.sharpe.join
  calmar := metrics.calmar
  profitFactor := metrics.profitFactor
  worstRegimeSharpe := worstRegimeSharpe metrics
  tradeCount := metrics.tradesCount
  fitness := fitness

end

structure ParetoSet (ν : Type*) where
  points : List (ParetoPoint ν)

def ParetoSet.empty : ParetoSet ν := ⟨[]⟩

variable [LinearOrder ν] [IntCast ν] {s : ParetoSet ν} {p q : ParetoPoint ν}
  {ps ps' : List (ParetoPoint ν)}

/-- All four are maximised. -/
def objectives (p : ParetoPoint ν) : List ν :=
  [safe p.sharpe ((-10 : ℤ) : ν), safe p.calmar ((-10 : ℤ) : ν), safe p.profitFactor ((0 : ℤ) : ν),
    safe p.worstRegimeSharpe ((-10 : ℤ) : ν)]

/-- At least as good on every objective and better on one. -/
def dominates (a b : ParetoPoint ν) : Bool :=
  (List.zip (objectives a) (objectives b)).all (fun x => x.1 ≥ x.2) &&
    (List.zip (objectives a) (objectives b)).any fun x => x.1 > x.2

/-- `ParetoSet.add`: the set after it, and whether the front moved. -/
def ParetoSet.add (s : ParetoSet ν) (p : ParetoPoint ν) : ParetoSet ν × Bool :=
  if s.points.any fun q => q.paramsSha = p.paramsSha then (s, false)
  else
    let newPoints := s.points.filter fun q => ¬ dominates p q
    if newPoints.any fun q => dominates q p then (s, false)
    else (⟨newPoints ++ [p]⟩, true)

/-- The objectives as a point of a product order. -/
def score (p : ParetoPoint ν) : ν × ν × ν × ν :=
  (safe p.sharpe ((-10 : ℤ) : ν), safe p.calmar ((-10 : ℤ) : ν), safe p.profitFactor ((0 : ℤ) : ν),
    safe p.worstRegimeSharpe ((-10 : ℤ) : ν))

/-- Dominance is the strict order of the scores. -/
theorem dominates_iff : dominates p q = true ↔ score q < score p := by
  rw [lt_iff_le_not_ge]
  simp [dominates, objectives, score, imp_iff_not_or, and_assoc]

def Dominates (p q : ParetoPoint ν) : Prop := dominates p q = true

instance decidableDominates : DecidableRel (@Dominates ν _ _) := fun p q =>
  inferInstanceAs (Decidable (dominates p q = true))

instance strictDominates : IsStrictOrder (ParetoPoint ν) Dominates where
  irrefl _ h := lt_irrefl _ (dominates_iff.mp h)
  trans _ _ _ hpq hqr := dominates_iff.mpr ((dominates_iff.mp hqr).trans (dominates_iff.mp hpq))

/-- Adding to the set is offering to a front of points told apart by their hashes. -/
theorem add_eq_offer : s.add p =
    (⟨(Fronts.offer ParetoPoint.paramsSha Dominates s.points p).1⟩,
      (Fronts.offer ParetoPoint.paramsSha Dominates s.points p).2) := by
  have hdecide : ∀ q, decide (Dominates q p) = dominates q p := fun _ => Bool.decide_eq_true
  simp only [ParetoSet.add, Fronts.offer, hdecide]
  split
  · rfl
  · change (if ((s.points.filter fun q => ¬ Dominates p q).any fun q => dominates q p) = true then _
      else _) = _
    split <;> rfl

theorem points_final : (final ParetoSet.add s ps).points =
    final (Fronts.offer ParetoPoint.paramsSha Dominates) s.points ps := by
  induction ps generalizing s with
  | nil => rfl
  | cons p ps ih => rw [final_cons, final_cons, ih, add_eq_offer]

/-- After any points have been added: none of those stored dominates another and their hashes are
distinct; each one added is stored, or dominated by a stored one, or came when its hash was
stored; and an addition that answers `False` changes nothing. -/
theorem pareto_set_kept :
    (∀ p ∈ (final ParetoSet.add .empty ps).points, ∀ q ∈ (final ParetoSet.add .empty ps).points,
      ¬ dominates p q) ∧
    ((final ParetoSet.add .empty ps).points.map ParetoPoint.paramsSha).Nodup ∧
    (∀ before p after, ps = before ++ p :: after →
      p ∈ (final ParetoSet.add .empty ps).points ∨
      (∃ q ∈ (final ParetoSet.add .empty ps).points, dominates q p) ∨
      ∃ q ∈ (final ParetoSet.add .empty before).points, q.paramsSha = p.paramsSha) ∧
    ∀ p, ((final ParetoSet.add .empty ps).add p).2 = false →
      ((final ParetoSet.add .empty ps).add p).1 = final ParetoSet.add .empty ps := by
  have hfront : Fronts.Unbeaten ParetoPoint.paramsSha Dominates
      (final ParetoSet.add .empty ps).points := by
    rw [points_final]
    exact Fronts.unbeaten_final ps
  refine ⟨hfront.apart, hfront.keys, ?_, ?_⟩
  · rintro before p after rfl
    rw [points_final, points_final, ← or_assoc]
    exact Fronts.covers_final ParetoPoint.paramsSha before p after
  · intro p hp
    rw [add_eq_offer] at hp ⊢
    rw [Fronts.offer_false hp]

/-- Points with distinct hashes leave exactly those that none of them dominates, in whatever order
they are added. -/
theorem mem_points_iff_undominated (hps : (ps.map ParetoPoint.paramsSha).Nodup) :
    (∀ p, p ∈ (final ParetoSet.add .empty ps).points ↔ p ∈ ps ∧ ∀ q ∈ ps, ¬ dominates q p) ∧
    ∀ ps', ps'.Perm ps → ∀ p,
      p ∈ (final ParetoSet.add .empty ps').points ↔ p ∈ (final ParetoSet.add .empty ps).points := by
  have hmem : ∀ ps : List (ParetoPoint ν), (ps.map ParetoPoint.paramsSha).Nodup → ∀ p,
      p ∈ (final ParetoSet.add .empty ps).points ↔ p ∈ ps ∧ ∀ q ∈ ps, ¬ dominates q p := by
    intro ps hps p
    rw [points_final]
    exact Fronts.mem_final_iff hps
  refine ⟨hmem ps hps, ?_⟩
  intro ps' hperm p
  rw [hmem ps' ((hperm.map _).nodup_iff.mpr hps), hmem ps hps, hperm.mem_iff]
  simp only [hperm.mem_iff]

/-- A point that dominates the one before it is left. -/
theorem mem_points_iff_undominated_pair :
    (⟨"b2", 1, "C3", "runs/2", some 2, none, some 2, none, 35, 0⟩ : ParetoPoint ℤ) ∈
      (final ParetoSet.add .empty
        [⟨"a1", 1, "C3", "runs/1", some 1, none, some 2, none, 40, 0⟩,
          ⟨"b2", 1, "C3", "runs/2", some 2, none, some 2, none, 35, 0⟩]).points :=
  ((mem_points_iff_undominated (by decide)).1 _).mpr (by decide)

end Pyharmonics.Loop
