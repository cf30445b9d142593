import Parlance.Grid
import Parlance.Number.Function
import Parlance.Value.Operation
import Parlance.Value.Text

/-!
Functions that every program has. They are called by name, before any function that the program
defines. Two of them give numbers by chance; for that they are handed a natural number that has
been drawn.
-/

namespace Parlance

/-- The functions that every program has. -/
inductive Builtin where
  | random | randomInt | floor | ceil | round | abs | sqrt | sin | cos | tan | pow | log
  | max | min | sum | len | range | typeOf | toString | toNumber | printTable
deriving Repr, DecidableEq, Inhabited

namespace Builtin

def all : List Builtin :=
  [.random, .randomInt, .floor, .ceil, .round, .abs, .sqrt, .sin, .cos, .tan, .pow, .log,
   .max, .min, .sum, .len, .range, .typeOf, .toString, .toNumber, .printTable]

def name : Builtin → String
  | .random => "random"
  | .randomInt => "random_int"
  | .floor => "floor"
  | .ceil => "ceil"
  | .round => "round"
  | .abs => "abs"
  | .sqrt => "sqrt"
  | .sin => "sin"
  | .cos => "cos"
  | .tan => "tan"
  | .pow => "pow"
  | .log => "log"
  | .max => "max"
  | .min => "min"
  | .sum => "sum"
  | .len => "len"
  | .range => "range"
  | .typeOf => "type_of"
  | .toString => "to_string"
  | .toNumber => "to_number"
  | .printTable => "print_table"

def ofName? (text : String) : Option Builtin := all.find? fun builtin => builtin.name = text

/-- The names of the parameters, as messages about missing arguments give them. -/
def parameters : Builtin → List String
  | .random => []
  | .randomInt => ["min_val", "max_val"]
  | .pow => ["base", "exp"]
  | .max | .min | .sum => ["values"]
  | .len | .typeOf | .toString | .toNumber => ["value"]
  | .range => ["start", "end"]
  | .printTable => ["headers", "rows"]
  | _ => ["x"]

/-! ### Arguments -/

/-- The double of an argument that has to be a number. -/
def real (value : Value) : Except Refusal Float :=
  match value.number? with
  | some x => x.toFloat
  | none => .error (.wrongType (.notReal value.typeName))

/-- The whole number of an argument that has to be one. -/
def whole (value : Value) : Except Refusal Int :=
  match value.int? with
  | some n => .ok n
  | none => .error (.wrongType (.notInteger value.typeName))

/-! ### Numbers -/

/-- A whole number next to the argument. -/
def roundedBy (rule : Float → Option Int) (refusal : String → TypeFault) (value : Value) :
    Except Refusal Value :=
  match value.number? with
  | some x => (x.wholeBy rule).map Value.int
  | none => .error (.wrongType (refusal value.typeName))

def ofReal (function : Float → Except Refusal Float) (value : Value) : Except Refusal Value := do
  let x ← real value
  let result ← function x
  return .float result

def absolute (value : Value) : Except Refusal Value :=
  match value.number? with
  | some x => .ok (.number x.absolute)
  | none => .error (.wrongType (.noAbsolute value.typeName))

def logarithm (value : Value) : Except Refusal Value :=
  match value.number? with
  | some x => x.logarithm.map Value.float
  | none => .error (.wrongType (.notReal value.typeName))

/-- A bound of a range of whole numbers; doubles without a fraction are taken too. -/
def bound (which : String) (value : Value) : Except Refusal Int :=
  match value.int? with
  | some n => .ok n
  | none => do
    let n ← Heap.toInt value
    match value.number? with
    | some x =>
      if x.equals (.int n) then .ok n
      else .error (.badValue (.library ("non-integer " ++ which ++ " for randrange()")))
    | none => .error (.badValue (.library ("non-integer " ++ which ++ " for randrange()")))

/-- A whole number between two others, by the number that was drawn. -/
def randomBetween (heap : Heap) (draw : Nat) (low high : Value) : Except Refusal Value := do
  let beyond ← heap.plus high (.int 1)
  let first ← bound "arg 1" low
  let stop ← bound "stop" beyond.1
  if first < stop then return .int (first + (draw % (stop - first).toNat : Nat))
  else .error (.badValue (.emptyRange first (stop - 1)))

/-- A double from zero up to one, one left out. -/
def fraction (draw : Nat) : Float :=
  Float.ofNat (draw % Nat.pow 2 53) / Float.ofNat (Nat.pow 2 53)

/-! ### Lists -/

/-- The champion when all values have been tried against it. -/
def best (beats : Value → Value → Except Refusal Bool) (champion : Value) :
    List Value → Except Refusal Value
  | [] => .ok champion
  | value :: rest => do
    if ← beats value champion then best beats value rest else best beats champion rest

/-- The first value that is not beaten; nothing if there are no values. -/
def bestOf (heap : Heap) (relation : Relation) (values : Value) : Except Refusal Value :=
  if heap.isTrue values then do
    match ← heap.iterate values with
    | [] => return .nothing
    | first :: rest => best (heap.compare relation) first rest
  else .ok .nothing

def total (heap : Heap) : Value → List Value → Except Refusal (Value × Heap)
  | reached, [] => .ok (reached, heap)
  | reached, value :: rest => do
    let (next, after) ← heap.plus reached value
    total after next rest

def length (heap : Heap) : Value → Except Refusal Value
  | .string s => .ok (.int s.length)
  | .list a => .ok (.int (heap.items a).length)
  | .dictionary a => .ok (.int (heap.entries a).length)
  | value => .error (.wrongType (.noLength value.typeName))

/-- The whole numbers from the first up to the second, which is left out. -/
def wholeNumbers (first stop : Int) : Except Refusal (List Value) :=
  let count := (stop - first).toNat
  if Heap.countLimit ≤ count then .error (.outOfRange (.machine "ssize_t"))
  else if Heap.memoryLimit ≤ count then .error .memory
  else .ok ((List.range count).map fun (k : Nat) => .int (first + k))

/-! ### Types -/

/-- The kind of a value, in the words of the language. -/
def kindOf : Value → String
  | .nothing => "nothing"
  | .boolean _ => "boolean"
  | .number _ => "number"
  | .undefined _ => "number"
  | .string _ => "string"
  | .list _ => "list"
  | .dictionary _ => "dictionary"
  | .library _ => "object"
  | .foreign .. => "object"

/-- The number that a value gives; zero if it gives none. A double stays the one that it is. -/
def toNumberValue : Value → Except Refusal Value
  | .undefined mark => .ok (.undefined mark)
  | .string s => .ok (.float ((Decimal.readFloat? s).getD 0.0))
  | value =>
    match value.number? with
    | some x => x.toFloat.map Value.float
    | none => .ok (.float 0.0)

/-! ### Tables -/

/-- The cells that a row shows in so many columns. A dictionary is asked for the numbers of the
columns. -/
def shownCells (heap : Heap) (columns : Nat) (row : Value) : Except Refusal (List Value) :=
  match row with
  | .dictionary a =>
    let entries := heap.entries a
    (List.range (Nat.min columns entries.length)).mapM fun (column : Nat) =>
      match Entries.get? entries (.int column) with
      | some value => .ok value
      | none => .error (.missingKey (Decimal.naturalText column))
  | _ => (heap.iterate row).map (List.take columns)

def measuredCells (heap : Heap) (columns : Nat) (row : Value) : Except Refusal (List String) := do
  ((← heap.iterate row).take columns).mapM heap.text

/-- The lines of a table. Cells beyond the last column are not measured. -/
def tableUnder (heap : Heap) (names : List String) (rows : Value) : Except Refusal String := do
  let given ← heap.iterate rows
  let measured ← given.mapM (measuredCells heap names.length)
  let shown ← given.mapM fun row => do
    (← shownCells heap names.length row).mapM heap.text
  return "\n".intercalate (Grid.lines (Grid.widths names measured) names shown)

def table (heap : Heap) (headers rows : Value) : Except Refusal String :=
  if heap.isTrue rows then do
    let names ← (← heap.iterate headers).mapM heap.text
    tableUnder heap names rows
  else .ok ""

/-! ### Calls -/

/-- Whether as many arguments are given as there are parameters. -/
def checkCount (builtin : Builtin) (given : Nat) : Except Refusal Unit :=
  let wanted := builtin.parameters
  let title := "builtin_" ++ builtin.name
  if wanted.length < given then
    .error (.wrongType (.tooManyArguments title wanted.length given))
  else if given < wanted.length then
    .error (.wrongType (.missingArguments title (wanted.drop given)))
  else .ok ()

/-- What a function gives for a single argument. -/
def applyOne (heap : Heap) (value : Value) : Builtin → Except Refusal Value
  | .floor => roundedBy Decimal.floor? .notReal value
  | .ceil => roundedBy Decimal.ceiling? .notReal value
  | .round => roundedBy Decimal.round? .noRounding value
  | .abs => absolute value
  | .sqrt => ofReal Number.squareRoot value
  | .sin => ofReal (Number.realFunction Float.sin) value
  | .cos => ofReal (Number.realFunction Float.cos) value
  | .tan => ofReal (Number.realFunction Float.tan) value
  | .log => logarithm value
  | .max => bestOf heap .greater value
  | .min => bestOf heap .less value
  | .len => length heap value
  | .typeOf => .ok (.string (kindOf value))
  | .toString =>
    match value with
    | .nothing => .ok (.string "")
    | _ => (heap.text value).map Value.string
  | .toNumber => toNumberValue value
  | _ => .ok .nothing

/-- The result of a call, and the heap after it. `draw` is the number that has been drawn. -/
def apply (heap : Heap) (draw : Nat) (builtin : Builtin) (arguments : List Value) :
    Except Refusal (Value × Heap) := do
  builtin.checkCount arguments.length
  match builtin, arguments with
  | .random, _ => return (.float (fraction draw), heap)
  | .randomInt, [low, high] => return (← randomBetween heap draw low high, heap)
  | .pow, [base, exponent] =>
    let x ← real base
    let y ← real exponent
    return heap.settle (.float (← Number.power x y))
  | .sum, [values] => total heap (.int 0) (← heap.iterate values)
  | .range, [first, stop] =>
    let low ← whole first
    let high ← whole stop
    return heap.newList (← wholeNumbers low high)
  | .printTable, [headers, rows] => return (.string (← table heap headers rows), heap)
  | _, [value] => return heap.settle (← applyOne heap value builtin)
  | _, _ => return (.nothing, heap)

end Builtin

end Parlance
