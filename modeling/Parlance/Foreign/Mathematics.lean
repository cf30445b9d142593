import Parlance.Builtin
import Parlance.Number.Norm

/-!
Functions of the library for mathematics. Whole numbers are exact at any size. Remainders are
computed exactly and rounded once.
-/

namespace Parlance.Foreign

/-! ### Whole numbers -/

/-- The whole square root, found bit by bit from the top. -/
def rootBits : (count : Nat) → (root n : Nat) → Nat
  | 0, root, _ => root
  | count + 1, root, n =>
    let next := root + Nat.pow 2 count
    if next * next ≤ n then rootBits count next n else rootBits count root n

/-- The root of a whole number, rounded down. -/
def wholeRoot (n : Nat) : Nat := rootBits (n.log2 / 2 + 1) 0 n

def factorial (n : Nat) : Nat := (List.range n).foldl (fun product k => product * (k + 1)) 1

/-- In how many ways `k` things can be chosen out of `n`. -/
def choices (n k : Nat) : Nat :=
  if n < k then 0
  else
    let few := Nat.min k (n - k)
    (List.range few).foldl (fun ways i => ways * (n - i) / (i + 1)) 1

/-- So many things are too many to choose from one by one. -/
def choiceLimit : Nat := Nat.pow 2 63

/-! ### Doubles -/

def isNegative (x : Float) : Bool := x.toBits >>> 63 == 1

def copySign (x y : Float) : Float :=
  let size := x.abs
  if isNegative y then -size else size

/-- The remainder of a division that goes toward zero, with the sign of the first double. -/
def remainder (x y : Float) : Except Refusal Float :=
  match Decimal.toRatio? x, Decimal.toRatio? y with
  | some (n, d), some (m, e) =>
    if m = 0 then .error (.badValue .domain)
    else
      let rest := (n.natAbs * e) % (m.natAbs * d)
      .ok (copySign ((Decimal.nearest? rest (d * e)).getD 0) x)
  | some _, none => .ok (if y.isNaN then y else x)
  | none, _ =>
    if x.isNaN then .ok x else if y.isNaN then .ok y else .error (.badValue .domain)

def wholePart (x : Float) : Float := if x < 0 then x.ceil else x.floor

def parts (x : Float) : Float × Float :=
  if x.isNaN then (x, x)
  else if !Number.isFinite x then (copySign 0.0 x, x)
  else
    let whole := copySign (wholePart x) x
    (copySign (x - whole) x, whole)

/-! ### Calls -/

def exactlyOne (name : String) (arguments : List Value) : Except Refusal Value :=
  match arguments with
  | [value] => .ok value
  | _ =>
    .error (.wrongType (.library ("math." ++ name ++ "() takes exactly one argument ("
      ++ Decimal.naturalText arguments.length ++ " given)")))

def exactlyTwo (name : String) (arguments : List Value) : Except Refusal (Value × Value) :=
  match arguments with
  | [first, second] => .ok (first, second)
  | _ =>
    .error (.wrongType (.library (name ++ " expected 2 arguments, got "
      ++ Decimal.naturalText arguments.length)))

def natural (refusal : ValueFault) (value : Value) : Except Refusal Nat := do
  let n ← Builtin.whole value
  if n < 0 then .error (.badValue refusal) else return n.toNat

def truncated (value : Value) : Except Refusal Value :=
  match value.number? with
  | some x => x.truncate.map Value.int
  | none =>
    .error (.wrongType (.library ("type " ++ value.typeName ++ " doesn't define __trunc__ method")))

def logarithmTo (value base : Value) : Except Refusal Value := do
  let above ← Builtin.logarithm value
  let below ← Builtin.logarithm base
  match above, below with
  | .number (.float x), .number (.float y) =>
    if y == 0 then .error .noQuotient
    else return .float (x / y)
  | _, _ => return .nothing

def product (heap : Heap) : Value → List Value → Except Refusal (Value × Heap)
  | reached, [] => .ok (reached, heap)
  | reached, value :: rest => do
    let (next, after) ← heap.times reached value
    product after next rest

def distance (heap : Heap) (first second : Value) : Except Refusal Value := do
  let p ← heap.iterate first
  let q ← heap.iterate second
  if p.length ≠ q.length then
    .error (.badValue (.library "both points must have the same number of dimensions"))
  else
    let differences ← (p.zip q).mapM fun pair => do
      let x ← Builtin.real pair.1
      let y ← Builtin.real pair.2
      return (x - y).abs
    return .float (Number.norm differences)

/-- The functions of the library for mathematics that are described. -/
def callMath (heap : Heap) (name : String) (arguments : List Value) :
    Except Refusal (Value × Heap) := do
  let one (function : Value → Except Refusal Value) : Except Refusal (Value × Heap) := do
    return (← function (← exactlyOne name arguments), heap)
  let two (function : Float → Float → Except Refusal Float) : Except Refusal (Value × Heap) := do
    let (first, second) ← exactlyTwo name arguments
    let x ← Builtin.real first
    let y ← Builtin.real second
    return (.float (← function x y), heap)
  let plain (function : Float → Float) : Except Refusal (Value × Heap) :=
    one (Builtin.ofReal (Number.realFunction function))
  match name with
  | "sqrt" => one (Builtin.ofReal Number.squareRoot)
  | "sin" => plain Float.sin
  | "cos" => plain Float.cos
  | "tan" => plain Float.tan
  | "asin" => plain Float.asin
  | "acos" => plain Float.acos
  | "atan" => plain Float.atan
  | "exp" =>
    one (Builtin.ofReal fun x =>
      let result := Float.exp x
      if Number.isFinite x && !Number.isFinite result then .error (.outOfRange .range)
      else .ok result)
  | "fabs" => one (Builtin.ofReal fun x => .ok x.abs)
  | "floor" => one (Builtin.roundedBy Decimal.floor? .notReal)
  | "ceil" => one (Builtin.roundedBy Decimal.ceiling? .notReal)
  | "trunc" => one truncated
  | "isnan" => one fun value => do return .boolean (← Builtin.real value).isNaN
  | "isinf" =>
    one fun value => do
      let x ← Builtin.real value
      return .boolean (!x.isNaN && !Number.isFinite x)
  | "isfinite" => one fun value => do return .boolean (Number.isFinite (← Builtin.real value))
  | "factorial" =>
    one fun value => do
      let n ← natural .factorial value
      if Nat.pow 2 63 ≤ n then
        .error (.outOfRange
          (.library "factorial() argument should not exceed 9223372036854775807"))
      else return .int (factorial n)
  | "isqrt" =>
    one fun value => do
      return .int (wholeRoot (← natural (.library "isqrt() argument must be nonnegative") value))
  | "comb" => do
    let (first, second) ← exactlyTwo name arguments
    let m ← Builtin.whole first
    let l ← Builtin.whole second
    let n ← natural (.library "n must be a non-negative integer") (.int m)
    let k ← natural (.library "k must be a non-negative integer") (.int l)
    if choiceLimit ≤ n && choiceLimit ≤ Nat.min k (n - k) then
      .error (.outOfRange (.library "min(n - k, k) must not exceed 9223372036854775807"))
    else return (.int (choices n k), heap)
  | "gcd" => do
    let numbers ← arguments.mapM Builtin.whole
    return (.int (numbers.foldl (fun divisor n => Nat.gcd divisor n.natAbs) 0 : Nat), heap)
  | "lcm" => do
    let numbers ← arguments.mapM Builtin.whole
    return (.int (numbers.foldl (fun multiple n => Nat.lcm multiple n.natAbs) 1 : Nat), heap)
  | "pow" => two Number.power
  | "fmod" => two remainder
  | "copysign" => two fun x y => .ok (copySign x y)
  | "atan2" => two fun x y => .ok (Float.atan2 x y)
  | "modf" => do
    let x ← Builtin.real (← exactlyOne name arguments)
    let (fraction, whole) := parts x
    let (first, between) := heap.settle (.float fraction)
    let (second, after) := between.settle (.float whole)
    return after.newList [first, second]
  | "prod" =>
    match arguments with
    | [values] => product heap (.int 1) (← heap.iterate values)
    | _ =>
      .error (.wrongType (.library ("prod() takes exactly 1 positional argument ("
        ++ Decimal.naturalText arguments.length ++ " given)")))
  | "hypot" => do
    let coordinates ← arguments.mapM Builtin.real
    return (.float (Number.norm (coordinates.map Float.abs)), heap)
  | "dist" => do
    let (first, second) ← exactlyTwo name arguments
    return (← distance heap first second, heap)
  | "log" =>
    match arguments with
    | [value] => return (← Builtin.logarithm value, heap)
    | [value, base] => return (← logarithmTo value base, heap)
    | _ => .error (.wrongType (.library "math.log requires 1 to 2 arguments"))
  | _ => .error (.foreignResult "object")

end Parlance.Foreign
