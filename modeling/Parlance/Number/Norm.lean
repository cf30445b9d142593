import Parlance.Number.Function

/-!
The length of a vector of doubles. The coordinates are multiplied by a power of two that brings the
largest of them between a half and one. Their squares are added in halves whose products are exact,
beginning at one, and what rounding costs each addition is kept beside the sum. The root of the sum
is then corrected once by the rest that its own square leaves.

Where no double can hold the power of two, the coordinates are divided by the largest instead.
-/

namespace Parlance.Number

/-- A double as the sum of two that have half as many digits each. -/
def halves (x : Float) : Float × Float :=
  let wide := x * 134217729.0
  let high := wide - (wide - x)
  (high, x - high)

/-- A sum of squares that was begun at one, and what rounding has cost it: in adding the squares of
high halves, the products of high and low halves, and the squares of low halves. -/
structure SquareSum where
  sum : Float
  highLoss : Float
  mixedLoss : Float
  lowLoss : Float

namespace SquareSum

def start : SquareSum := ⟨1.0, 0.0, 0.0, 0.0⟩

def loss (sum x : Float) : Float := (sum - (sum + x)) + x

def addHigh (squares : SquareSum) (x : Float) : SquareSum :=
  { squares with sum := squares.sum + x, highLoss := squares.highLoss + loss squares.sum x }

def addMixed (squares : SquareSum) (x : Float) : SquareSum :=
  { squares with sum := squares.sum + x, mixedLoss := squares.mixedLoss + loss squares.sum x }

/-- Adds the square of a low half, which is below what the sum can show. -/
def addLow (squares : SquareSum) (x : Float) : SquareSum :=
  { squares with lowLoss := squares.lowLoss + x }

def takeLow (squares : SquareSum) (x : Float) : SquareSum :=
  { squares with sum := squares.sum + x, lowLoss := squares.lowLoss + loss squares.sum x }

/-- What has been added, with what rounding has cost. -/
def total (squares : SquareSum) : Float :=
  squares.sum - 1.0 + (squares.highLoss + squares.mixedLoss + squares.lowLoss)

def addSquare (squares : SquareSum) (x : Float) : SquareSum :=
  let (high, low) := halves x
  ((squares.addHigh (high * high)).addMixed (2.0 * high * low)).addLow (low * low)

def takeSquare (squares : SquareSum) (x : Float) : SquareSum :=
  let (high, low) := halves x
  ((squares.addHigh (-high * high)).addMixed (-2.0 * high * low)).takeLow (-low * low)

end SquareSum

/-- The exponent that a positive double needs, with a significand between a half and one. -/
def exponentOf (x : Float) : Int :=
  match Decimal.read x with
  | .finite _ significand exponent => exponent + significand.log2 + 1
  | _ => 0

def powerOfTwo (exponent : Int) : Float :=
  let numerator := if 0 ≤ exponent then Nat.pow 2 exponent.toNat else 1
  let denominator := if 0 ≤ exponent then 1 else Nat.pow 2 (-exponent).toNat
  (Decimal.nearest? numerator denominator).getD Decimal.infinity

/-- The length, by a power of two. -/
def scaledNorm (coordinates : List Float) (exponent : Int) : Float :=
  let scale := powerOfTwo (-exponent)
  let squares := coordinates.foldl (fun sum x => sum.addSquare (x * scale)) SquareSum.start
  let root := squares.total.sqrt
  let rest := (squares.takeSquare root).total
  (root + rest / (2.0 * root)) / scale

def dividedNorm (coordinates : List Float) (largest : Float) : Float :=
  let squares := coordinates.foldl
    (fun sum x =>
      let part := x / largest
      sum.addHigh (part * part)) SquareSum.start
  largest * (squares.sum - 1.0 + squares.highLoss).sqrt

def norm (coordinates : List Float) : Float :=
  let largest := coordinates.foldl (fun most x => if most < x then x else most) 0.0
  if !isFinite largest then largest
  else if coordinates.any Float.isNaN then Decimal.notANumber
  else if largest == 0.0 || coordinates.length ≤ 1 then largest
  else if -1023 ≤ exponentOf largest then scaledNorm coordinates (exponentOf largest)
  else dividedNorm coordinates largest

end Parlance.Number
