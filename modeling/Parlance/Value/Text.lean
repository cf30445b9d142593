import Parlance.Value

/-!
Values as text. A text stands for itself; inside lists and dictionaries texts are quoted. A list or
dictionary inside itself is written as dots.
-/

namespace Parlance

def Library.name : Library → String
  | .math => "math"
  | .random => "random"
  | .datetime => "datetime"
  | .re => "re"

namespace Heap

/-- A value as it stands inside a list, below the cells that are being written. -/
def shownAt (heap : Heap) : (depth : Nat) → (within : List Nat) → Value → Except Refusal String
  | 0, _, _ => .ok "..."
  | depth + 1, within, value =>
    match value with
    | .nothing => .ok "None"
    | .boolean value => .ok (if value then "True" else "False")
    | .number value => value.write
    | .undefined _ => .ok (Decimal.floatText Decimal.notANumber)
    | .string value => .ok (Text.quoted value)
    | .list address =>
      if within.contains address then .ok "[...]"
      else do
        let items ← (heap.items address).mapM (shownAt heap depth (address :: within))
        return "[" ++ ", ".intercalate items ++ "]"
    | .dictionary address =>
      if within.contains address then .ok "\x7b...\x7d"
      else do
        let entries ← (heap.entries address).mapM fun entry => do
          let key ← shownAt heap depth (address :: within) entry.1
          let content ← shownAt heap depth (address :: within) entry.2
          return key ++ ": " ++ content
        return "\x7b" ++ ", ".intercalate entries ++ "\x7d"
    | .library library => .ok ("<module '" ++ library.name ++ "' (built-in)>")
    | .foreign _ name => .ok ("<built-in function " ++ name ++ ">")

/-- A value as it stands inside a list. Each level writes a cell that is not being written yet, so
the number of cells bounds the depth. -/
def shown (heap : Heap) (value : Value) : Except Refusal String :=
  heap.shownAt (heap.next + 2) [] value

def text (heap : Heap) : Value → Except Refusal String
  | .string value => .ok value
  | value => heap.shown value

end Heap

end Parlance
