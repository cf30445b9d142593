import Parlance.Fault

/-!
Arithmetic of numbers. Whole numbers stay whole under addition, subtraction and multiplication;
with a double on one side the other becomes a double; division always gives a double. Comparisons
between whole numbers and doubles are exact.
-/

namespace Parlance.Number

/-- The double of a number; a whole number may be too large for one. -/
def toFloat : Number → Except Refusal Float
  | .float x => .ok x
  | .int n =>
    match Decimal.ofInt? n with
    | some x => .ok x
    | none => .error (.outOfRange .integerToFloat)

def combine (whole : Int → Int → Int) (double : Float → Float → Float) :
    Number → Number → Except Refusal Number
  | .int m, .int n => .ok (.int (whole m n))
  | left, right => do
    let x ← left.toFloat
    let y ← right.toFloat
    return .float (double x y)

def add : Number → Number → Except Refusal Number := combine (· + ·) (· + ·)

def subtract : Number → Number → Except Refusal Number := combine (· - ·) (· - ·)

def multiply : Number → Number → Except Refusal Number := combine (· * ·) (· * ·)

/-- The quotient, a double. The divisor is not zero. -/
def divide : Number → Number → Except Refusal Number
  | .int m, .int n =>
    match Decimal.ofRatio? m n with
    | some x => .ok (.float x)
    | none => .error (.outOfRange .quotient)
  | left, right => do
    let x ← left.toFloat
    let y ← right.toFloat
    return .float (x / y)

def compareFloats (x y : Float) : Option Ordering :=
  if x < y then some .lt
  else if x == y then some .eq
  else if y < x then some .gt
  else none

/-- The order of two numbers; there is none if one of them is not a number. -/
def order : Number → Number → Option Ordering
  | .int m, .int n => some (compare m n)
  | .int m, .float y => Decimal.compareInt m y
  | .float x, .int n => (Decimal.compareInt n x).map Ordering.swap
  | .float x, .float y => compareFloats x y

def equals (left right : Number) : Bool := order left right = some .eq

def isZero (number : Number) : Bool := equals number (.int 0)

def isNaN : Number → Bool
  | .int _ => false
  | .float x => x.isNaN

def truncate : Number → Except Refusal Int
  | .int n => .ok n
  | .float x =>
    match Decimal.truncate? x with
    | some n => .ok n
    | none => .error (if x.isNaN then .badValue .notANumber else .outOfRange .infinity)

/-- A whole number next to the number, by the rule given for doubles. -/
def wholeBy (rule : Float → Option Int) : Number → Except Refusal Int
  | .int n => .ok n
  | .float x =>
    match rule x with
    | some n => .ok n
    | none => .error (if x.isNaN then .badValue .notANumber else .outOfRange .infinity)

def typeName : Number → String
  | .int _ => "int"
  | .float _ => "float"

/-- The number as text. Whole numbers of too many digits are not written. -/
def write (number : Number) : Except Refusal String :=
  match number with
  | .int n =>
    if Nat.pow 10 Decimal.digitLimit ≤ n.natAbs then .error (.badValue .integerLong)
    else .ok number.text
  | .float _ => .ok number.text

end Parlance.Number
