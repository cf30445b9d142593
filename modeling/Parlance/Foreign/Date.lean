import Parlance.Foreign.Mathematics

/-!
Types of the library for dates. Dates and spans of time cannot come back into a program, so what
counts is which arguments they refuse.
-/

namespace Parlance.Foreign

/-! ### Dates -/

/-- A whole number that fits into the parts of a date. -/
def machineInteger (value : Value) : Except Refusal Int := do
  let n ← Builtin.whole value
  if Heap.countLimit ≤ n || n < -Heap.countLimit then .error (.outOfRange (.machine "long"))
  else if Nat.pow 2 31 ≤ n then
    .error (.outOfRange (.library "signed integer is greater than maximum"))
  else if n < -(Nat.pow 2 31 : Int) then
    .error (.outOfRange (.library "signed integer is less than minimum"))
  else return n

def daysInMonth (year : Int) (month : Nat) : Nat :=
  if month = 2 then
    if Int.emod year 4 = 0 && (Int.emod year 100 ≠ 0 || Int.emod year 400 = 0) then 29 else 28
  else if [4, 6, 9, 11].contains month then 30
  else 31

def checkDate (year month day : Int) : Except Refusal Unit :=
  if year < 1 || 9999 < year then .error (.badValue (.year year))
  else if month < 1 || 12 < month then .error (.badValue (.library "month must be in 1..12"))
  else if day < 1 || daysInMonth year month.toNat < day then
    .error (.badValue (.library "day is out of range for month"))
  else .ok ()

/-- The numbers of a date, from the named part on. -/
def dateParts (place : Nat) : List String → List Value → Except Refusal (List Int)
  | [], _ => .ok []
  | part :: _, [] =>
    .error (.wrongType (.library ("function missing required argument '" ++ part ++ "' (pos "
      ++ Decimal.naturalText place ++ ")")))
  | _ :: parts, value :: rest => do
    let number ← machineInteger value
    let others ← dateParts (place + 1) parts rest
    return number :: others

/-- Whether a text has the form in which dates are stored: four characters, the third of which is
the number of a month. -/
def isStoredDate (text : String) : Bool :=
  match text.toList with
  | [_, _, month, _] => 1 ≤ month.toNat && month.toNat ≤ 12
  | _ => false

def dateResult : Refusal := .foreignResult "datetime.date"

def dateOfNumbers (arguments : List Value) : Except Refusal (Value × Heap) := do
  if 3 < arguments.length then
    .error (.wrongType (.library ("function takes at most 3 arguments ("
      ++ Decimal.naturalText arguments.length ++ " given)")))
  else
    match ← dateParts 1 ["year", "month", "day"] arguments with
    | [year, month, day] =>
      checkDate year month day
      .error dateResult
    | _ => .error dateResult

def callDate (arguments : List Value) : Except Refusal (Value × Heap) :=
  match arguments with
  | [.string text] =>
    if !isStoredDate text then dateOfNumbers arguments
    else if text.toList.all fun c => c.toNat < 256 then .error dateResult
    else
      .error (.badValue (.library ("Failed to encode latin1 string when unpickling a date object. "
        ++ "pickle.load(data, encoding='latin1') is assumed.")))
  | _ => dateOfNumbers arguments

/-! ### Spans of time -/

/-- A span of time in whole microseconds, and a part of one. -/
structure Span where
  microseconds : Int
  leftover : Float

/-- The parts of a span of time in the order in which they are added: the name, the place among the
arguments, and how many microseconds one of them has. -/
def spanParts : List (String × Nat × Nat) :=
  [("microseconds", 2, 1), ("milliseconds", 3, 1000), ("seconds", 1, 1000000),
   ("minutes", 4, 60000000), ("hours", 5, 3600000000), ("days", 0, 86400000000),
   ("weeks", 6, 604800000000)]

namespace Span

/-- Adds so many of a part. The fraction of a double is multiplied apart. -/
def add (span : Span) (part : String) (length : Nat) (value : Value) : Except Refusal Span :=
  match value.number? with
  | some (.int n) => .ok { span with microseconds := span.microseconds + n * length }
  | some (.float x) => do
    let whole ← (Number.float x).truncate
    let sum := span.microseconds + whole * length
    let fraction := (parts x).1
    if fraction == 0.0 then return { span with microseconds := sum }
    else
      let scaled := Float.ofNat length * fraction
      let more ← (Number.float scaled).truncate
      return ⟨sum + more, span.leftover + (parts scaled).1⟩
  | none =>
    .error (.wrongType (.library ("unsupported type for timedelta " ++ part ++ " component: "
      ++ value.typeName)))

def addAll (span : Span) (arguments : List Value) :
    List (String × Nat × Nat) → Except Refusal Span
  | [] => .ok span
  | (part, place, length) :: rest =>
    match arguments[place]? with
    | some value => do (← span.add part length value).addAll arguments rest
    | none => span.addAll arguments rest

/-- The microseconds, with the leftover rounded; a half goes to the even neighbour. -/
def rounded (span : Span) : Except Refusal Int := do
  if span.leftover == 0.0 then return span.microseconds
  else
    let nearest := span.leftover.round
    let odd := if Int.emod span.microseconds 2 = 1 then 1.0 else 0.0
    let chosen :=
      if (nearest - span.leftover).abs == 0.5 then
        2.0 * ((span.leftover + odd) * 0.5).round - odd
      else nearest
    return span.microseconds + (← (Number.float chosen).truncate)

def check (span : Span) : Except Refusal Unit := do
  let days := Int.fdiv (← span.rounded) 86400000000
  if Nat.pow 2 31 ≤ days || days < -(Nat.pow 2 31 : Int) then .error (.outOfRange (.machine "int"))
  else if 999999999 < days || days < -999999999 then
    .error (.outOfRange (.library ("days=" ++ Decimal.integerText days
      ++ "; must have magnitude <= 999999999")))
  else return ()

end Span

def callSpan (arguments : List Value) : Except Refusal (Value × Heap) := do
  if 7 < arguments.length then
    .error (.wrongType (.library ("__new__() takes at most 7 arguments ("
      ++ Decimal.naturalText arguments.length ++ " given)")))
  else
    let span ← (Span.mk 0 0.0).addAll arguments spanParts
    span.check
    .error (.foreignResult "datetime.timedelta")

/-- The types of the library for dates, called with their parts. -/
def callDatetime (name : String) (arguments : List Value) : Except Refusal (Value × Heap) :=
  match name with
  | "date" => callDate arguments
  | "timedelta" => callSpan arguments
  | _ => .error (.foreignResult ("datetime." ++ name))

end Parlance.Foreign
