import Parlance.Value

/-!
When two values are equal, and which of two values comes first. Numbers are compared by what they
are worth, lists item by item, dictionaries entry by entry without regard to order. Items that are
the same thing count as equal without being looked at; a double that is not a number is the same
thing as itself and as no other.
-/

namespace Parlance

namespace Value

/-- Whether two values are the same thing. -/
def identical : Value → Value → Bool
  | .list a, .list b => a = b
  | .dictionary a, .dictionary b => a = b
  | .undefined m, .undefined n => m = n
  | _, _ => false

/-- Whether two keys are one key. Keys hold no cells. -/
def sameKey : Value → Value → Bool
  | .nothing, .nothing => true
  | .string s, .string t => s = t
  | .library l, .library m => l = m
  | .foreign s t, .foreign u v => s = u && t = v
  | .undefined m, .undefined n => m = n
  | left, right =>
    match left.number?, right.number? with
    | some x, some y => x.equals y
    | _, _ => false

def isKey : Value → Bool
  | .list _ | .dictionary _ => false
  | _ => true

/-- Only some values can be keys of a dictionary. -/
def asKey (value : Value) : Except Refusal Value :=
  if value.isKey then .ok value else .error (.wrongType (.unhashable value.typeName))

end Value

/-! ### Entries of dictionaries -/

namespace Entries

def get? : List (Value × Value) → Value → Option Value
  | [], _ => none
  | (found, value) :: rest, key => if found.sameKey key then some value else get? rest key

/-- The entries with a value for a key: in the place of the key, which stays as it was first
entered, or at the end. -/
def insert : List (Value × Value) → Value → Value → List (Value × Value)
  | [], key, value => [(key, value)]
  | (found, old) :: rest, key, value =>
    if found.sameKey key then (found, value) :: rest else (found, old) :: insert rest key value

/-- Entries entered one after another. -/
def ofList (pairs : List (Value × Value)) : List (Value × Value) :=
  pairs.foldl (fun entries pair => insert entries pair.1 pair.2) []

end Entries

namespace Heap

/-! ### Equality -/

def equalItems (equal : Value → Value → Bool) : List Value → List Value → Bool
  | [], [] => true
  | x :: xs, y :: ys => (x.identical y || equal x y) && equalItems equal xs ys
  | _, _ => false

/-- Whether two dictionaries have the same keys, with equal values. -/
def equalEntries (equal : Value → Value → Bool) (left right : List (Value × Value)) : Bool :=
  left.length = right.length && left.all fun entry =>
    match Entries.get? right entry.1 with
    | some value => entry.2.identical value || equal entry.2 value
    | none => false

/-- Whether two values are equal, looked at down to a depth. -/
def equalAt (heap : Heap) : (depth : Nat) → Value → Value → Bool
  | 0, _, _ => false
  | depth + 1, left, right =>
    match left, right with
    | .list a, .list b => equalItems (equalAt heap depth) (heap.items a) (heap.items b)
    | .dictionary a, .dictionary b =>
      equalEntries (equalAt heap depth) (heap.entries a) (heap.entries b)
    | .nothing, .nothing => true
    | .string s, .string t => s = t
    | .library l, .library m => l = m
    | .foreign s t, .foreign u v => s = u && t = v
    | _, _ =>
      match left.number?, right.number? with
      | some x, some y => x.equals y
      | _, _ => false

/-- How deep values are compared. That going deeper fails, as for lists that hold themselves, is not
described: it counts as a difference. -/
def comparisonDepth : Nat := 1000

def equal (heap : Heap) (left right : Value) : Bool := heap.equalAt comparisonDepth left right

/-- Whether an item is what is sought: the same thing, or equal to it. -/
def matchesItem (heap : Heap) (value item : Value) : Bool :=
  item.identical value || heap.equal item value

/-! ### Order -/

end Heap

inductive Relation where
  | less | lessEqual | greater | greaterEqual
deriving Repr, DecidableEq

namespace Relation

def sign : Relation → String
  | .less => "<"
  | .lessEqual => "<="
  | .greater => ">"
  | .greaterEqual => ">="

def holds : Relation → Ordering → Bool
  | .less, .lt => true
  | .lessEqual, .lt => true
  | .lessEqual, .eq => true
  | .greater, .gt => true
  | .greaterEqual, .gt => true
  | .greaterEqual, .eq => true
  | _, _ => false

end Relation

def compareTexts (s t : String) : Ordering :=
  if s < t then .lt else if s = t then .eq else .gt

namespace Heap

/-- Compares lists at their first difference, or else by length. -/
def compareItems (heap : Heap) (relation : Relation) (compare : Value → Value → Except Refusal Bool) :
    List Value → List Value → Except Refusal Bool
  | [], [] => .ok (relation.holds .eq)
  | [], _ :: _ => .ok (relation.holds .lt)
  | _ :: _, [] => .ok (relation.holds .gt)
  | x :: xs, y :: ys =>
    if x.identical y || heap.equal x y then compareItems heap relation compare xs ys
    else compare x y

/-- Whether a value stands in a relation to another one, looked at down to a depth. -/
def compareAt (heap : Heap) (relation : Relation) :
    (depth : Nat) → Value → Value → Except Refusal Bool
  | 0, _, _ => .ok false
  | depth + 1, left, right =>
    match left, right with
    | .string s, .string t => .ok (relation.holds (compareTexts s t))
    | .list a, .list b =>
      heap.compareItems relation (compareAt heap relation depth) (heap.items a) (heap.items b)
    | _, _ =>
      match left.number?, right.number? with
      | some x, some y => .ok ((x.order y).any relation.holds)
      | _, _ => .error (.wrongType (.comparison relation.sign left.typeName right.typeName))

/-- Whether a value stands in a relation to another one. -/
def compare (heap : Heap) (relation : Relation) (left right : Value) : Except Refusal Bool :=
  heap.compareAt relation comparisonDepth left right

/-! ### Truth -/

/-- Whether a value counts as true: nothing, zero and what is empty do not. -/
def isTrue (heap : Heap) : Value → Bool
  | .nothing => false
  | .boolean value => value
  | .number value => !value.isZero
  | .undefined _ => true
  | .string value => !value.isEmpty
  | .list address => !(heap.items address).isEmpty
  | .dictionary address => !(heap.entries address).isEmpty
  | .library _ => true
  | .foreign .. => true

end Heap

end Parlance
