import Parlance.Decimal.Numeral

/-!
Numbers of the language: whole numbers of any size and doubles. Which operations keep a whole
number whole is settled with the operations.
-/

namespace Parlance

inductive Number where
  | int (n : Int)
  | float (x : Float)
deriving Repr, BEq, DecidableEq, Inhabited

def Number.text : Number → String
  | .int n => Decimal.integerText n
  | .float x => Decimal.floatText x

end Parlance
