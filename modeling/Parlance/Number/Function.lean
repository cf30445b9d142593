import Parlance.Number.Arithmetic

/-!
Functions of numbers: roots, powers, logarithms, angles and roundings. A function of doubles fails
where it has no value, and where its value is too large for a double.
-/

namespace Parlance.Number

def isFinite (x : Float) : Bool :=
  match Decimal.read x with
  | .finite .. => true
  | _ => false

/-- A function of doubles; a result without a value, or an infinite result from a finite argument,
lies outside its domain. -/
def realFunction (function : Float → Float) (x : Float) : Except Refusal Float :=
  let result := function x
  if result.isNaN && !x.isNaN then .error (.badValue .domain)
  else if !isFinite result && !result.isNaN && isFinite x then .error (.badValue .domain)
  else .ok result

def squareRoot : Float → Except Refusal Float := realFunction Float.sqrt

/-- The power. It has no value for a negative base with a broken exponent and for zero with a
negative exponent. -/
def power (base exponent : Float) : Except Refusal Float :=
  let result := Float.pow base exponent
  if isFinite base && isFinite exponent && !isFinite result then
    if result.isNaN || base == 0 then .error (.badValue .domain)
    else .error (.outOfRange .range)
  else .ok result

def floatLogarithm (x : Float) : Except Refusal Float :=
  if x.isNaN then .ok x
  else if x <= 0 then .error (.badValue .domain)
  else .ok (Float.log x)

/-- The natural logarithm. Of a whole number that is too large for a double, the logarithm of its
leading part, from a half up to one, and of the power of two beside it are added. -/
def logarithm : Number → Except Refusal Float
  | .float x => floatLogarithm x
  | .int n =>
    if n ≤ 0 then .error (.badValue .domain)
    else
      match Decimal.ofInt? n with
      | some x => .ok (Float.log x)
      | none =>
        let size := n.toNat.log2 + 1
        let rounded := (Decimal.nearest? n.toNat (Nat.pow 2 size)).getD 1.0
        let (part, exponent) := if rounded == 1.0 then (0.5, size + 1) else (rounded, size)
        .ok (Float.log part + Float.log 2.0 * Float.ofNat exponent)

def absolute : Number → Number
  | .int n => .int n.natAbs
  | .float x => .float x.abs

end Parlance.Number
