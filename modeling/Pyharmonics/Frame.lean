import Pyharmonics.Library.Rounding
import Pyharmonics.Library.Series

/-! Price frames, and the numeric routines the engine takes from Python, numpy and pandas. -/
namespace Pyharmonics

/-- Numbers are exact; what a floating-point library decides about them is a parameter. -/
structure Numerics where
  /-- `round(x, digits)` -/
  round : ℕ → ℚ → ℚ
  /-- The square root inside a standard deviation. -/
  sqrt : ℚ → ℚ
  /-- `closes.resample(rule).last().dropna()` of the closes by their `dts`. -/
  resampleLast : String → List (ℤ × ℚ) → List ℚ
  /-- The texts `resample` does not know as a frequency; it raises for them. -/
  unknownRule : String → Bool := fun _ => false

/-- Decimal rounding, ties to even. -/
def Numerics.decimal (sqrt : ℚ → ℚ) (resampleLast : String → List (ℤ × ℚ) → List ℚ)
    (unknownRule : String → Bool := fun _ => false) : Numerics :=
  { round := Rounding.roundTo, sqrt := sqrt, resampleLast := resampleLast,
    unknownRule := unknownRule }

/-- A quotient of floats that is not NaN. -/
inductive Extended
  | negInf | finite (x : ℚ) | posInf
  deriving DecidableEq

/-- `x < y` for a finite `y`. -/
def Extended.below (x : Extended) (y : ℚ) : Bool :=
  match x with
  | .negInf => true
  | .finite x => decide (x < y)
  | .posInf => false

/-- `x > y` for a finite `y`. -/
def Extended.above (x : Extended) (y : ℚ) : Bool :=
  match x with
  | .negInf => false
  | .finite x => decide (y < x)
  | .posInf => true

/-- One candle; times are epoch seconds, `index` is the label of the row. -/
structure Row where
  openPrice : ℚ
  high : ℚ
  low : ℚ
  close : ℚ
  volume : ℚ
  closeTime : ℤ
  dts : ℤ
  index : ℤ
  deriving DecidableEq

/-- A candle frame; a column that is not listed is not there. -/
structure Frame where
  columns : List String
  rows : List Row
  prices : ∀ c ∈ ["open", "high", "low", "close", "volume"], c ∈ columns

/-- A frame with a close time. -/
def frameOf (rows : List Row) : Frame :=
  ⟨["open", "high", "low", "close", "volume", "close_time"], rows, by decide⟩

namespace Frame

def length (df : Frame) : ℕ := df.rows.length

def empty (df : Frame) : Bool := df.rows.isEmpty

def tail (df : Frame) (n : ℤ) : List Row := Series.tail n df.rows

def closes (df : Frame) : List ℚ := df.rows.map Row.close

/-- `df["close_time"] if "close_time" in df.columns else None` -/
def closeTimes? (df : Frame) : Option (List ℤ) :=
  if "close_time" ∈ df.columns then some (df.rows.map Row.closeTime) else none

/-- `df.iloc[:-n]` for a positive `n`. -/
def dropLast (df : Frame) (n : ℕ) : Frame := { df with rows := df.rows.take (df.rows.length - n) }

/-- `df.iloc[start:stop]` for positions that are not negative. -/
def slice (df : Frame) (start stop : ℕ) : Frame :=
  { df with rows := (df.rows.drop start).take (stop - start) }

/-- `df.reset_index(drop=True)` -/
def resetIndex (df : Frame) : Frame :=
  { df with rows := df.rows.zipIdx.map fun (r, i) => { r with index := i } }

/-- `df.sort_index()` -/
def sortIndex (df : Frame) : Frame :=
  { df with rows := df.rows.mergeSort fun r s => decide (r.index ≤ s.index) }

/-- `df.iloc[n:]` -/
def drop (df : Frame) (n : ℕ) : Frame := { df with rows := df.rows.drop n }

end Frame

end Pyharmonics
