import Parlance.Text.Range

/-!
Digits of every script. A *decimal* digit stands for its value in a numeral written with ten
digits; other digits, such as superscripts and digits in circles, look like digits and have no
place in a numeral.
-/

namespace Parlance.Text

/-- Blocks of decimal digits outside the first 128 code points. Every block is a whole number of
runs from zero to nine. -/
def decimalRanges : List (Nat × Nat) :=
  rangesFrom 0 [1632,10,134,10,198,10,412,10,118,10,118,10,118,10,118,10,118,10,118,10,118,10,118,
  10,118,10,96,10,118,10,70,10,278,10,70,10,1862,10,38,10,300,10,128,10,166,10,6,10,182,10,86,10,
  134,10,6,10,35270,10,678,10,38,10,198,10,22,10,86,10,406,10,21270,10,1414,10,2182,10,812,10,128,
  10,60,10,144,10,278,10,342,10,118,10,374,10,102,10,102,10,422,10,102,10,758,10,246,10,70,10,19638,
  10,86,10,134,10,27764,50,2368,10,422,10,1622,10,4758,10]

def otherDigitRanges : List (Nat × Nat) :=
  rangesFrom 0 [178, 2, 5, 1, 4783, 9, 1640, 1, 1685, 1, 3, 6, 6, 10, 982, 9, 11, 9, 11, 9, 89, 1,
  10, 9, 1, 1, 630, 9, 1, 9, 1, 9, 58029, 4, 1052, 9, 489, 9, 57509, 11]

def decimalValue? (c : Char) : Option Nat :=
  if c.toNat < 128 then
    if c.isDigit then some (c.toNat - '0'.toNat) else none
  else
    (decimalRanges.find? fun range => range.1 ≤ c.toNat && c.toNat ≤ range.2).map
      fun range => (c.toNat - range.1) % 10

def isDecimal (c : Char) : Bool := (decimalValue? c).isSome

/-- A digit of any script, decimal or not. -/
def isDigit (c : Char) : Bool := isDecimal c || inRanges otherDigitRanges c.toNat

end Parlance.Text
