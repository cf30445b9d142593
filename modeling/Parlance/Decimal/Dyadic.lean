/-!
Doubles as exact numbers. A finite double is a sign and a significand times a power of two; the
way back takes a ratio of natural numbers to the double nearest to it, a tie going to the even
significand. Everything between the two is arithmetic of natural numbers.
-/

namespace Parlance.Decimal

/-- What a double stands for. -/
inductive Reading where
  /-- The number `significand * 2 ^ exponent`, with its sign. -/
  | finite (negative : Bool) (significand : Nat) (exponent : Int)
  | infinite (negative : Bool)
  | notANumber
deriving Repr, DecidableEq, Inhabited

def exponentField (bits : UInt64) : Nat := (bits >>> 52).toNat % 2048

def fractionField (bits : UInt64) : Nat := bits.toNat % Nat.pow 2 52

def read (x : Float) : Reading :=
  let bits := x.toBits
  let negative := bits >>> 63 == 1
  let field := exponentField bits
  let fraction := fractionField bits
  if field = 2047 then
    if fraction = 0 then .infinite negative else .notANumber
  else if field = 0 then .finite negative fraction (-1074)
  else .finite negative (fraction + Nat.pow 2 52) ((field : Int) - 1075)

/-- The quotient rounded to the nearest natural number, a half going to the even neighbour. -/
def roundDiv (numerator denominator : Nat) : Nat :=
  let quotient := numerator / denominator
  let rest := numerator % denominator
  if denominator < 2 * rest then quotient + 1
  else if 2 * rest = denominator then quotient + quotient % 2
  else quotient

/-- The bits of the double nearest to a ratio. Bits beyond the largest double mean that the ratio
is too large. -/
def nearestBits (numerator denominator : Nat) : Nat :=
  if numerator = 0 then 0
  else
    let guess : Int := (numerator.log2 : Int) - denominator.log2 - 52
    let scaled (exponent : Int) : Nat × Nat :=
      if 0 ≤ exponent then (numerator, denominator * Nat.pow 2 exponent.toNat)
      else (numerator * Nat.pow 2 (-exponent).toNat, denominator)
    let low := scaled guess
    let exponent := if low.1 / low.2 < Nat.pow 2 52 then guess - 1 else guess
    let exponent := if exponent < -1074 then -1074 else exponent
    let pair := scaled exponent
    (exponent + 1074).toNat * Nat.pow 2 52 + roundDiv pair.1 pair.2

def infinityBits : Nat := 2047 * Nat.pow 2 52

/-- The double nearest to a ratio, or nothing if it is too large for a double. -/
def nearest? (numerator denominator : Nat) : Option Float :=
  let bits := nearestBits numerator denominator
  if bits < infinityBits then some (Float.ofBits bits.toUInt64) else none

def infinity : Float := Float.ofBits 0x7ff0000000000000

def notANumber : Float := Float.ofBits 0x7ff8000000000000

def ofInt? (n : Int) : Option Float :=
  (nearest? n.natAbs 1).map fun x => if n < 0 then -x else x

def ofRatio? (numerator denominator : Int) : Option Float :=
  (nearest? numerator.natAbs denominator.natAbs).map fun x =>
    if (numerator < 0) != (denominator < 0) then -x else x

/-- A finite double as a quotient of whole numbers with a positive denominator. -/
def toRatio? (x : Float) : Option (Int × Nat) :=
  match read x with
  | .finite negative significand exponent =>
    let signed : Int := if negative then -(significand : Int) else significand
    if 0 ≤ exponent then some (signed * Nat.pow 2 exponent.toNat, 1)
    else some (signed, Nat.pow 2 (-exponent).toNat)
  | _ => none

def truncate? (x : Float) : Option Int :=
  (toRatio? x).map fun ratio => Int.tdiv ratio.1 ratio.2

def floor? (x : Float) : Option Int :=
  (toRatio? x).map fun ratio => Int.fdiv ratio.1 ratio.2

def ceiling? (x : Float) : Option Int :=
  (toRatio? x).map fun ratio => -Int.fdiv (-ratio.1) ratio.2

/-- The whole number nearest to a double, a half going to the even neighbour. -/
def round? (x : Float) : Option Int :=
  (toRatio? x).map fun ratio =>
    let size : Int := roundDiv ratio.1.natAbs ratio.2
    if ratio.1 < 0 then -size else size

/-- The order of a whole number and a double, decided exactly; a double that is not a number has
no place in the order. -/
def compareInt (n : Int) (x : Float) : Option Ordering :=
  match read x with
  | .notANumber => none
  | .infinite negative => some (if negative then .gt else .lt)
  | .finite .. =>
    (toRatio? x).map fun ratio => compare (n * ratio.2) ratio.1

end Parlance.Decimal
