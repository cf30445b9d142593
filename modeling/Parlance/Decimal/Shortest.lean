import Parlance.Decimal.Dyadic

/-!
The shortest decimal that reads back as a given double. For one digit, then two, and so on, the
two neighbours of the double on that decimal grid are tried; the first grid with a neighbour that
rounds to the double wins, and of two such neighbours the nearer one.
-/

namespace Parlance.Decimal

/-- A positive decimal number `digits * 10 ^ exponent`. -/
structure Scientific where
  digits : Nat
  exponent : Int
deriving Repr, DecidableEq, Inhabited

def digitCount (n : Nat) : Nat := (Nat.toDigits 10 n).length

/-- A positive double as a ratio, with the ends of the interval of numbers that round to it. All
three share a denominator. -/
structure Neighbourhood where
  low : Nat
  value : Nat
  high : Nat
  denominator : Nat
  /-- The ends round to the double too, because its significand is even. -/
  closed : Bool

/-- The interval of numbers that round to `significand * 2 ^ exponent`. Below a power of two the
doubles lie twice as close. -/
def neighbourhood (significand : Nat) (exponent : Int) : Neighbourhood :=
  let below := if significand = Nat.pow 2 52 && -1074 < exponent then 1 else 2
  let scale : Nat := if 2 ≤ exponent then Nat.pow 2 (exponent - 2).toNat else 1
  { low := (4 * significand - below) * scale
    value := 4 * significand * scale
    high := (4 * significand + 2) * scale
    denominator := if 2 ≤ exponent then 1 else Nat.pow 2 (2 - exponent).toNat
    closed := significand % 2 = 0 }

def Neighbourhood.holds (around : Neighbourhood) (decimal : Scientific) : Bool :=
  let up : Nat := if 0 ≤ decimal.exponent then Nat.pow 10 decimal.exponent.toNat else 1
  let down : Nat := if 0 ≤ decimal.exponent then 1 else Nat.pow 10 (-decimal.exponent).toNat
  let point := decimal.digits * up * around.denominator
  if around.closed then around.low * down ≤ point && point ≤ around.high * down
  else around.low * down < point && point < around.high * down

/-- The number of places before the decimal point, counted as negative for zeros after it: the
least `place` for which the value is below `10 ^ place`. -/
def Neighbourhood.place (around : Neighbourhood) : Int :=
  if around.denominator ≤ around.value then digitCount (around.value / around.denominator)
  else
    let below (k : Nat) : Bool := around.denominator ≤ around.value * Nat.pow 10 (k + 1)
    let zeros : Nat := ((List.range 400).find? below).getD 400
    Int.negOfNat zeros

/-- The neighbour on the grid of that many digits that reads back, if there is one. -/
def Neighbourhood.onGrid? (around : Neighbourhood) (digits : Nat) : Option Scientific :=
  let exponent : Int := around.place - digits
  let up : Nat := if 0 ≤ exponent then 1 else Nat.pow 10 (-exponent).toNat
  let down : Nat := if 0 ≤ exponent then Nat.pow 10 exponent.toNat else 1
  let numerator := around.value * up
  let denominator := around.denominator * down
  let floor : Scientific := ⟨numerator / denominator, exponent⟩
  let ceiling : Scientific := ⟨numerator / denominator + 1, exponent⟩
  match around.holds floor, around.holds ceiling with
  | false, false => none
  | true, false => some floor
  | false, true => some ceiling
  | true, true => some ⟨roundDiv numerator denominator, exponent⟩

/-- The decimal without zeros at the end of its digits. The count bounds how many are dropped. -/
def dropZeros : Nat → Scientific → Scientific
  | 0, decimal => decimal
  | n + 1, decimal =>
    if decimal.digits % 10 = 0 && decimal.digits ≠ 0 then
      dropZeros n ⟨decimal.digits / 10, decimal.exponent + 1⟩
    else decimal

/-- The decimal of fewest digits that reads back as `significand * 2 ^ exponent`. Seventeen digits
always do. -/
def shortest (significand : Nat) (exponent : Int) : Scientific :=
  let around := neighbourhood significand exponent
  let found := (List.range 17).findSome? fun n => around.onGrid? (n + 1)
  dropZeros 20 (found.getD ⟨around.value / around.denominator, 0⟩)

end Parlance.Decimal
