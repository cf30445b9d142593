/-!
Classes of characters are given as lists of ranges of code points in increasing order, both ends
included. A table gives the lengths of runs: how many code points are left out at first, how many
then are in the class, how many are left out after them, and so on.
-/

namespace Parlance.Text

/-- The ranges of a table, from a code point on. -/
def rangesFrom (start : Nat) : List Nat → List (Nat × Nat)
  | out :: taken :: rest =>
    (start + out, start + out + taken - 1) :: rangesFrom (start + out + taken) rest
  | _ => []

def inRanges (ranges : List (Nat × Nat)) (point : Nat) : Bool :=
  ranges.any fun range => range.1 ≤ point && point ≤ range.2

end Parlance.Text
