import Parlance.Text.Lowercase

/-!
Letters compared without regard to case. Two letters are the same if their small letters are, or if
these are variants of one letter, such as the dotless i and the two small sigmas.
-/

namespace Parlance.Text

def letterVariants : List (List Nat) :=
  [[105, 305], [115, 383], [181, 956], [837, 953, 8126], [912, 8147], [944, 8163], [946, 976],
  [949, 1013], [952, 977], [954, 1008], [960, 982], [961, 1009], [962, 963], [966, 981],
  [1074, 7296], [1076, 7297], [1086, 7298], [1089, 7299], [1090, 7300, 7301], [1098, 7302],
  [1123, 7303], [42571, 7304], [7777, 7835], [64261, 64262]]

def smallLetter (c : Char) : Char := (lowercaseChar c).head?.getD c

def sameLetter (c d : Char) : Bool :=
  let small := smallLetter c
  let other := smallLetter d
  small = other || letterVariants.any fun variants =>
    variants.contains small.toNat && variants.contains other.toNat

/-- Whether two letters are the same without regard to case, where only the letters from A to Z have
a case. -/
def sameBasicLetter (c d : Char) : Bool := c.toLower = d.toLower

end Parlance.Text
