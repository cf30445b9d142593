import Parlance.Number.Arithmetic

/-!
Values of a running program. Lists and dictionaries are shared: a value holds the address of a
cell in the heap, and whoever holds the same address sees the same cell. Dictionaries keep the
order in which their keys were first entered.

A double that is not a number equals nothing, not even itself. What is left of it is which one it
is, so each of them has a mark: the results of calculations are numbered as they come.
-/

namespace Parlance

/-- The libraries outside the language that a program can use. -/
inductive Library where
  | math | random | datetime | re
deriving Repr, DecidableEq, Inhabited

/-- Which of the doubles that are no numbers a value is. -/
inductive Mark where
  | made (number : Nat)
  /-- The one that stands at that place of a program. -/
  | written (place : Nat)
  /-- The one that the library for mathematics has. -/
  | constant
deriving Repr, DecidableEq, Inhabited

/-- What a name can stand for. -/
inductive Value where
  | nothing
  | boolean (value : Bool)
  /-- A number; one that is not a number has a mark instead, once it stands in a program. -/
  | number (value : Number)
  | undefined (mark : Mark)
  | string (value : String)
  | list (address : Nat)
  | dictionary (address : Nat)
  | library (library : Library)
  /-- Something of a library or a method, of which only the type and the name are known. -/
  | foreign (type name : String)
deriving Repr, Inhabited

namespace Value

abbrev int (n : Int) : Value := .number (.int n)

abbrev float (x : Float) : Value := .number (.float x)

def typeName : Value → String
  | .nothing => "NoneType"
  | .boolean _ => "bool"
  | .number value => value.typeName
  | .undefined _ => "float"
  | .string _ => "str"
  | .list _ => "list"
  | .dictionary _ => "dict"
  | .library _ => "module"
  | .foreign type _ => type

/-- The number that a value is; truth counts as one and falsehood as zero. -/
def number? : Value → Option Number
  | .number value => some value
  | .undefined _ => some (.float Decimal.notANumber)
  | .boolean value => some (.int (if value then 1 else 0))
  | _ => none

def int? (value : Value) : Option Int :=
  match value.number? with
  | some (.int n) => some n
  | _ => none

end Value

/-- A list or a dictionary, as all share it who hold its address. -/
inductive Cell where
  | list (items : List Value)
  | dictionary (entries : List (Value × Value))
deriving Repr, Inhabited

/-- What the values of a program share: the cells of all lists and dictionaries, by address, how
many marks have been given, and the members of libraries that the program has set, the last one
first. -/
structure Heap where
  cells : Array Cell
  marks : Nat
  members : List ((Library × String) × Value)
deriving Repr, Inhabited

namespace Heap

def empty : Heap := ⟨#[], 0, []⟩

def add (heap : Heap) (cell : Cell) : Heap := { heap with cells := heap.cells.push cell }

def next (heap : Heap) : Nat := heap.cells.size

def put (heap : Heap) (address : Nat) (cell : Cell) : Heap :=
  { heap with cells := heap.cells.setIfInBounds address cell }

/-- The result of a calculation as a value of the program: what is not a number gets a mark of its
own. -/
def settle (heap : Heap) (value : Value) : Value × Heap :=
  match value with
  | .number number =>
    if number.isNaN then (.undefined (.made heap.marks), { heap with marks := heap.marks + 1 })
    else (value, heap)
  | _ => (value, heap)

def member? (heap : Heap) (library : Library) (name : String) : Option Value :=
  heap.members.lookup (library, name)

/-- Puts a value in the place of a member of a library. -/
def setMember (heap : Heap) (library : Library) (name : String) (value : Value) : Heap :=
  { heap with members := ((library, name), value) :: heap.members }

def items (heap : Heap) (address : Nat) : List Value :=
  match heap.cells[address]? with
  | some (.list items) => items
  | _ => []

def entries (heap : Heap) (address : Nat) : List (Value × Value) :=
  match heap.cells[address]? with
  | some (.dictionary entries) => entries
  | _ => []

end Heap

end Parlance
