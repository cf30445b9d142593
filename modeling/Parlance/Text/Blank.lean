import Parlance.Text.Range

/-!
White space of every script, and texts without the white space at their ends.
-/

namespace Parlance.Text

/-- White space, line ends and separators included. -/
def blankRanges : List (Nat × Nat) :=
  [(9, 13), (28, 32), (133, 133), (160, 160), (5760, 5760), (8192, 8202), (8232, 8233),
  (8239, 8239), (8287, 8287), (12288, 12288)]

def isBlank (c : Char) : Bool := inRanges blankRanges c.toNat

/-- The characters without those at either end that satisfy the test. -/
def trimBoth (test : Char → Bool) (cs : List Char) : List Char :=
  ((cs.dropWhile test).reverse.dropWhile test).reverse

def strip (text : String) : String := String.ofList (trimBoth isBlank text.toList)

end Parlance.Text
