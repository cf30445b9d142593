import Parlance.Value.Equality

/-!
Values with everything they refer to, as trees. They are what a program is given from outside and
what is seen of its values from outside, where no heap is shared.
-/

namespace Parlance

/-- A value with all that it holds, apart from any heap. -/
inductive Datum where
  | nothing
  | boolean (value : Bool)
  | number (value : Number)
  | string (value : String)
  | list (items : List Datum)
  | dictionary (entries : List (Datum × Datum))
  /-- A list or dictionary that is met again inside itself. -/
  | cycle
  | foreign (type : String)
deriving Inhabited

namespace Heap

/-- The tree of a value, below the cells that are being followed. -/
def datumAt (heap : Heap) : (depth : Nat) → (within : List Nat) → Value → Datum
  | 0, _, _ => .cycle
  | depth + 1, within, value =>
    match value with
    | .nothing => .nothing
    | .boolean value => .boolean value
    | .number value => .number value
    | .undefined _ => .number (.float Decimal.notANumber)
    | .string value => .string value
    | .list address =>
      if within.contains address then .cycle
      else .list ((heap.items address).map (datumAt heap depth (address :: within)))
    | .dictionary address =>
      if within.contains address then .cycle
      else .dictionary ((heap.entries address).map fun entry =>
        (datumAt heap depth (address :: within) entry.1,
          datumAt heap depth (address :: within) entry.2))
    | .library _ => .foreign "module"
    | .foreign type _ => .foreign type

/-- The tree of a value. Each level follows a cell that is not being followed yet, so the number of
cells bounds the depth. -/
def datum (heap : Heap) (value : Value) : Datum := heap.datumAt (heap.next + 2) [] value

end Heap

mutual

/-- Puts a value and all that it holds into new cells. -/
def Heap.load (heap : Heap) : Datum → Value × Heap
  | .nothing => (.nothing, heap)
  | .boolean value => (.boolean value, heap)
  | .number value => heap.settle (.number value)
  | .string value => (.string value, heap)
  | .list items =>
    let (values, filled) := heap.loadItems items
    (.list filled.next, filled.add (.list values))
  | .dictionary entries =>
    let (pairs, filled) := heap.loadEntries entries
    (.dictionary filled.next, filled.add (.dictionary (Entries.ofList pairs)))
  | .cycle => (.nothing, heap)
  | .foreign type => (.foreign type "", heap)

def Heap.loadItems (heap : Heap) : List Datum → List Value × Heap
  | [] => ([], heap)
  | item :: rest =>
    let (value, after) := heap.load item
    let (values, filled) := after.loadItems rest
    (value :: values, filled)

def Heap.loadEntries (heap : Heap) : List (Datum × Datum) → List (Value × Value) × Heap
  | [] => ([], heap)
  | (key, content) :: rest =>
    let (keyValue, afterKey) := heap.load key
    let (value, after) := afterKey.load content
    let (pairs, filled) := after.loadEntries rest
    ((keyValue, value) :: pairs, filled)

end

end Parlance
