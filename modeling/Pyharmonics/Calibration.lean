import Mathlib.Algebra.Order.Floor.Semiring
import Mathlib.Data.Nat.Log
import Pyharmonics.Errors
import Pyharmonics.Library.Groups

/-! Platt scaling: the logistic fitted to raw scores, and its expected calibration error. -/
namespace Pyharmonics.Loop

open Groups Sorting

/-- The functions taken from `math`, and `pow`. -/
structure Elementary (ν : Type*) where
  exp : ν → ν
  log : ν → ν
  sqrt : ν → ν
  pow : ν → ν → ν

variable {ν : Type} [Field ν] [LinearOrder ν] [IsStrictOrderedRing ν] [FloorRing ν]

/-- `_sigmoid` -/
def sigmoid (E : Elementary ν) (z : ν) : ν :=
  if 0 ≤ z then 1 / (1 + E.exp (-z)) else E.exp z / (1 + E.exp z)

/-- A label is 1 or 0. -/
def labelValue (label : Bool) : ν := if label then 1 else 0

/-- The loss at one pair, whose probability is kept off 0 and 1. -/
def lossAt (E : Elementary ν) (θ : ν × ν) (pair : ν × Bool) : ν :=
  let p := max (min (sigmoid E (θ.1 * pair.1 + θ.2)) (1 - 1 / 10 ^ 12)) (1 / 10 ^ 12)
  let y := labelValue pair.2
  0 - (y * E.log p + (1 - y) * E.log (1 - p))

/-- `_log_loss` -/
def logLoss (E : Elementary ν) (θ : ν × ν) (pairs : List (ν × Bool)) : ν :=
  (pairs.map (lossAt E θ)).sum / max (pairs.length : ν) 1

/-- `_grad` -/
def grad (E : Elementary ν) (θ : ν × ν) (pairs : List (ν × Bool)) : ν × ν :=
  let err := fun (pair : ν × Bool) => sigmoid E (θ.1 * pair.1 + θ.2) - labelValue pair.2
  let n : ν := max (pairs.length : ν) 1
  ((pairs.map fun pair => err pair * pair.1).sum / n, (pairs.map err).sum / n)

/-- The point one step down the gradient. -/
def stepTo (E : Elementary ν) (pairs : List (ν × Bool)) (θ : ν × ν) (step : ν) : ν × ν :=
  (θ.1 - step * (grad E θ pairs).1, θ.2 - step * (grad E θ pairs).2)

/-- How often a learning rate is halved until it is no longer above `1e-6`. -/
def halvings (lr : ν) : ℕ := Nat.clog 2 ⌈lr * 10 ^ 6⌉₊

/-- The inner loop: the first step, halved each time, that does not raise the loss. -/
def backtrack (E : Elementary ν) (pairs : List (ν × Bool)) (θ : ν × ν) (lr : ν) : Option (ν × ν) :=
  ((List.range (halvings lr)).map fun k => stepTo E pairs θ (lr / 2 ^ k)).find? fun θ' =>
    logLoss E θ' pairs ≤ logLoss E θ pairs

/-- The gradient's norm is below the tolerance. -/
def Flat (E : Elementary ν) (pairs : List (ν × Bool)) (tol : ν) (θ : ν × ν) : Prop :=
  let g := grad E θ pairs
  E.sqrt (g.1 * g.1 + g.2 * g.2) < tol

instance (E : Elementary ν) (pairs : List (ν × Bool)) (tol : ν) (θ : ν × ν) :
    Decidable (Flat E pairs tol θ) := inferInstanceAs (Decidable (_ < _))

/-- The loop over the iterations. -/
def descend (E : Elementary ν) (pairs : List (ν × Bool)) (lr tol : ν) : ℕ → ν × ν → ν × ν
  | 0, θ => θ
  | n + 1, θ =>
    if Flat E pairs tol θ then θ
    else
      match backtrack E pairs θ lr with
      | some θ' => descend E pairs lr tol n θ'
      | none => θ

/-- `_fit_platt` -/
def fitPlatt (E : Elementary ν) (pairs : List (ν × Bool)) (maxIter : ℕ := 200)
    (lr : ν := 1 / 2) (tol : ν := 1 / 10 ^ 6) : ν × ν :=
  descend E pairs lr tol maxIter (1, 0)

/-- `CalibrationParams`; what is checked of it is carried. -/
structure CalibrationParams (ν : Type) [Field ν] [LinearOrder ν] where
  a : ν
  b : ν
  ece : ν
  nSamples : ℤ
  maxEce : ν := 1 / 10
  ece_nonneg : 0 ≤ ece
  nSamples_nonneg : 0 ≤ nSamples

/-- Construction runs `__post_init__`. -/
def CalibrationParams.init (a b ece : ν) (nSamples : ℤ) : Except PyError (CalibrationParams ν) :=
  if hn : 0 ≤ nSamples then
    if he : 0 ≤ ece then
      .ok { a := a, b := b, ece := ece, nSamples := nSamples, ece_nonneg := he
            nSamples_nonneg := hn }
    else .error (.valueError "ece must be >= 0" [])
  else .error (.valueError "n_samples must be >= 0" [])

/-- The base of `apply`. -/
def eulerDigits : ν := 2718281828459045 / 10 ^ 15

/-- The probability `apply` gives, kept in `[0, 1]`. -/
def platt (E : Elementary ν) (θ : ν × ν) (raw : ν) : ν :=
  let z := θ.1 * raw + θ.2
  let p := if 0 ≤ z then 1 / (1 + E.pow eulerDigits (-z))
    else E.pow eulerDigits z / (1 + E.pow eulerDigits z)
  max 0 (min 1 p)

/-- `CalibrationParams.apply` -/
def CalibrationParams.apply (E : Elementary ν) (params : CalibrationParams ν) (raw : ν) :
    Except PyError ν :=
  if raw < 0 ∨ 1 < raw then .error (.valueError "raw must be in [0, 1]; got %" [])
  else .ok (platt E (params.a, params.b) raw)

/-- The bin of a prediction, of `nBins` bins of one width. -/
def binOf (nBins : ℕ) (pair : ν × Bool) : ℕ := min ⌊pair.1 * nBins⌋₊ (nBins - 1)

/-- What is reported of a bin. -/
structure BinStats (ν : Type) where
  meanPred : ν
  freq : ν
  count : ℕ

def binStats (bin : List (ν × Bool)) : BinStats ν where
  meanPred := (bin.map Prod.fst).sum / bin.length
  freq := (bin.map fun pair => labelValue pair.2).sum / bin.length
  count := bin.length

/-- `_bin_predictions` -/
def binPredictions (pairs : List (ν × Bool)) (nBins : ℕ := 10) : List (BinStats ν) :=
  sortBy BinStats.meanPred
    ((((List.range nBins).map fun k => members (binOf nBins) pairs k).filter (· ≠ [])).map binStats)

/-- `expected_calibration_error` of predictions. -/
def calibrationError (pairs : List (ν × Bool)) (nBins : ℕ := 10) : ν :=
  let bins := binPredictions pairs nBins
  let total : ν := ((bins.map BinStats.count).sum : ℕ)
  (bins.map fun bin => bin.count / total * |bin.meanPred - bin.freq|).sum

/-- `expected_calibration_error` of raw scores under parameters. -/
def expectedCalibrationError (E : Elementary ν) (pairs : List (ν × Bool))
    (params : CalibrationParams ν) : Except PyError ν :=
  if pairs = [] then .ok 0
  else do
    let transformed ← pairs.mapM fun (r, label) => do return (← params.apply E r, label)
    return calibrationError transformed

/-- `make_calibration` -/
def makeCalibration (a b ece : ν) (nSamples : ℤ) : Except PyError (CalibrationParams ν) :=
  CalibrationParams.init a b ece nSamples

/-- `calibrate` -/
def calibrate (E : Elementary ν) (pairs : List (ν × Bool)) (maxIter : ℕ := 200) :
    Except PyError (CalibrationParams ν) :=
  if pairs = [] then .error (.valueError "calibrate() requires at least one (raw, label) pair" [])
  else
    let nPos := pairs.countP fun pair => pair.2
    let nNeg := pairs.countP fun pair => !pair.2
    if nPos = 0 ∨ nNeg = 0 then
      .error (.valueError ("calibration set must contain both positive and negative examples " ++
        "(got pos=%, neg=%)") [nPos, nNeg])
    else do
      let θ := fitPlatt E pairs maxIter
      let params ← CalibrationParams.init θ.1 θ.2 0 pairs.length
      let ece ← expectedCalibrationError E pairs params
      makeCalibration θ.1 θ.2 ece pairs.length

/-- `fit_calibration_from_history` -/
def fitCalibrationFromHistory (E : Elementary ν) (history : List (ν × Bool)) :
    Except PyError (Option (CalibrationParams ν)) :=
  if history.length < 10 then .ok none
  else
    match calibrate E history with
    | .ok params => .ok (some params)
    | .error (.valueError _ _) => .ok none
    | .error e => .error e

end Pyharmonics.Loop
