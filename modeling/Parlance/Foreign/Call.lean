import Parlance.Foreign.Attribute
import Parlance.Foreign.Date
import Parlance.Foreign.Pattern

/-!
Calls of functions outside the language. A path names a library and a member of it. Results come
back as values of the language; a result that has no such form is refused. Only some functions are
described, for some arguments.
-/

namespace Parlance.Foreign

/-! ### Chance -/

/-- The values among which one is chosen by chance. -/
def offered (heap : Heap) (value : Value) : Except Refusal (List Value) :=
  match value with
  | .list a => .ok (heap.items a)
  | .string s => .ok (s.toList.map fun c => .string c.toString)
  | .dictionary a =>
    let entries := heap.entries a
    (List.range entries.length).mapM fun (number : Nat) =>
      match Entries.get? entries (.int number) with
      | some found => .ok found
      | none => .error (.missingKey (Decimal.naturalText number))
  | _ => .error (.wrongType (.library ("object of type '" ++ value.typeName ++ "' has no len()")))

/-- The functions of the library for chances that are described. -/
def callRandom (heap : Heap) (draw : Nat) (name : String) (arguments : List Value) :
    Except Refusal (Value × Heap) := do
  match name, arguments with
  | "random", [] => return (.float (Builtin.fraction draw), heap)
  | "randint", [low, high] => return (← Builtin.randomBetween heap draw low high, heap)
  | "choice", [values] =>
    let items ← offered heap values
    match items[draw % items.length]? with
    | some value => return (value, heap)
    | none => .error .noItem
  | "randint", _ =>
    if arguments.length < 2 then .error (missing "Random.randint" ["a", "b"] arguments.length)
    else .error (.wrongType (.tooManyArguments "Random.randint" 3 (arguments.length + 1)))
  | "choice", _ =>
    if arguments.isEmpty then .error (missing "Random.choice" ["seq"] 0)
    else .error (.wrongType (.tooManyArguments "Random.choice" 2 (arguments.length + 1)))
  | _, _ => .error (.foreignResult "object")

/-! ### Dictionaries -/

def fromKeys (heap : Heap) (arguments : List Value) : Except Refusal (Value × Heap) := do
  let make (keys value : Value) : Except Refusal (Value × Heap) := do
    let names ← (← heap.iterate keys).mapM Value.asKey
    return heap.newDictionary (Entries.ofList (names.map fun name => (name, value)))
  match arguments with
  | [keys] => make keys .nothing
  | [keys, value] => make keys value
  | [] => .error (.wrongType (.library "fromkeys expected at least 1 argument, got 0"))
  | _ =>
    .error (.wrongType (.library ("fromkeys expected at most 2 arguments, got "
      ++ Decimal.naturalText arguments.length)))

/-! ### Paths -/

/-- The next value on a path. The members of a library are also reached through its dictionary. -/
def part? (heap : Heap) (value : Value) (name : String) : Option Value :=
  match value with
  | .library _ =>
    if name = "__dict__" then some (.foreign "dict" "dict") else heap.attribute? value name
  | _ => heap.attribute? value name

/-- The value at the end of a path; nothing if the path leads through what is not described. -/
def follow (heap : Heap) : Value → List String → Option (Except Refusal Value)
  | value, [] => some (.ok value)
  | value, name :: rest =>
    match part? heap value name with
    | some next => follow heap next rest
    | none =>
      if value.describes name then some (.error (value.attributeIsMissing name)) else none

def callableTypes : List String := "type" :: Value.functionTypes

/-- The full name of a value that can be called. -/
def callName? : Value → Option String
  | .foreign type name => if callableTypes.contains type then some name else none
  | _ => none

/-- The functions of the library for mathematics that are described. -/
def describedFunctions : List String :=
  ["sqrt", "sin", "cos", "tan", "asin", "acos", "atan", "exp", "fabs", "floor", "ceil", "trunc",
   "isnan", "isinf", "isfinite", "factorial", "isqrt", "comb", "gcd", "lcm", "pow", "fmod",
   "copysign", "atan2", "modf", "prod", "hypot", "dist", "log"]

/-- Whether it is described what a call gives. -/
def describes (name : String) (arguments : List Value) : Bool :=
  match Text.parts '.' name with
  | ["math", function] => describedFunctions.contains function
  | ["random", function] => ["random", "randint", "choice"].contains function
  | ["datetime", type] => ["date", "timedelta"].contains type
  | ["re", function] => function = "escape" || describesPattern function arguments
  | ["dict", "fromkeys"] => true
  | _ => false

/-- Calls what is known by a full name. `draw` is the number that has been drawn. -/
def call (heap : Heap) (draw : Nat) (name : String) (arguments : List Value) :
    Except Refusal (Value × Heap) :=
  match Text.parts '.' name with
  | ["math", function] => callMath heap function arguments
  | ["random", function] => callRandom heap draw function arguments
  | ["datetime", type] => callDatetime type arguments
  | ["re", function] => callPattern heap function arguments
  | ["dict", "fromkeys"] => fromKeys heap arguments
  | _ => .error (.foreignResult "object")

/-- The result as it comes back: lists and dictionaries are copied, and what has no form in the
language is refused. -/
def returned (heap : Heap) (value : Value) : Except Refusal (Value × Heap) :=
  match value with
  | .list a => .ok (heap.newList (heap.items a))
  | .dictionary a => .ok (heap.newDictionary (heap.entries a))
  | .library _ => .error (.foreignResult value.typeName)
  | .foreign type _ => .error (.foreignResult type)
  | _ => .ok (heap.settle value)

end Parlance.Foreign
