import Parlance.Decimal.Shortest
import Parlance.Text.Blank
import Parlance.Text.Digit

/-!
Numbers as text. Whole numbers and doubles are written so that they read back as themselves; both
are read from any script's decimal digits, with white space at the ends and single underscores
between digits allowed. Whole numbers beyond a fixed number of digits are neither written nor
read.
-/

namespace Parlance.Decimal

/-! ### Writing -/

structure Layout where
  /-- Numbers are written without an exponent from this many places before the point ... -/
  leastPlace : Int
  /-- ... up to this many. -/
  greatestPlace : Int
  exponentDigits : Nat
  infinity : String
  notANumber : String

/-- Doubles are written without an exponent from `0.0001` up to sixteen places, always with a
point or an exponent, and an exponent has a sign and at least two digits. -/
def plainLayout : Layout := ⟨-3, 16, 2, "inf", "nan"⟩

def naturalText (n : Nat) : String := String.ofList (Nat.toDigits 10 n)

/-- The digits of a whole number after its sign. -/
def integerText (n : Int) : String :=
  if n < 0 then "-" ++ naturalText n.natAbs else naturalText n.natAbs

def zeros (n : Nat) : String := String.ofList (List.replicate n '0')

def Scientific.text (layout : Layout) (decimal : Scientific) : String :=
  let digits := Nat.toDigits 10 decimal.digits
  let place : Int := digits.length + decimal.exponent
  if layout.leastPlace ≤ place && place ≤ layout.greatestPlace then
    if place ≤ 0 then "0." ++ zeros (-place).toNat ++ String.ofList digits
    else if (digits.length : Int) ≤ place then
      String.ofList digits ++ zeros (place.toNat - digits.length) ++ ".0"
    else
      String.ofList (digits.take place.toNat) ++ "." ++ String.ofList (digits.drop place.toNat)
  else
    let power := place - 1
    let size := Nat.toDigits 10 power.natAbs
    String.ofList (digits.take 1)
      ++ (if digits.length = 1 then "" else "." ++ String.ofList (digits.drop 1))
      ++ (if power < 0 then "e-" else "e+")
      ++ zeros (layout.exponentDigits - size.length) ++ String.ofList size

def floatTextIn (layout : Layout) (x : Float) : String :=
  match read x with
  | .notANumber => layout.notANumber
  | .infinite negative => (if negative then "-" else "") ++ layout.infinity
  | .finite negative significand exponent =>
    (if negative then "-" else "") ++
      if significand = 0 then "0.0" else (shortest significand exponent).text layout

def floatText (x : Float) : String := floatTextIn plainLayout x

/-- Whole numbers of more digits than this are neither written nor read. -/
def digitLimit : Nat := 4300

/-! ### Reading -/

inductive IntegerFailure where
  | malformed
  | tooLong (digits : Nat)
deriving Repr, DecidableEq

/-- What may stand before and after a numeral: white space, apart from the four characters that
part files, groups, records and units. -/
def isMargin (c : Char) : Bool := Text.isBlank c && !(0x1c ≤ c.toNat && c.toNat ≤ 0x1f)

def takeSign : List Char → Bool × List Char
  | '-' :: rest => (true, rest)
  | '+' :: rest => (false, rest)
  | rest => (false, rest)

def digitsBetween : (afterDigit : Bool) → List Char → Option (List Nat)
  | afterDigit, [] => if afterDigit then some [] else none
  | afterDigit, '_' :: rest => if afterDigit then digitsBetween false rest else none
  | _, c :: rest =>
    match Text.decimalValue? c with
    | some value => (digitsBetween true rest).map (value :: ·)
    | none => none

def ofDigits (digits : List Nat) : Nat := digits.foldl (fun n digit => 10 * n + digit) 0

def readInteger (text : String) : Except IntegerFailure Int :=
  let (negative, body) := takeSign (Text.trimBoth isMargin text.toList)
  match digitsBetween false body with
  | none => .error .malformed
  | some digits =>
    if digitLimit < digits.length then .error (.tooLong digits.length)
    else .ok (if negative then -(ofDigits digits : Int) else ofDigits digits)

/-- The double nearest to `digits * 10 ^ exponent`, infinite if it is too large. Exponents far
beyond the range of doubles are settled without computing the power. -/
def ofScientific (digits : Nat) (exponent : Int) : Float :=
  if digits = 0 then 0.0
  else if 400 < (digitCount digits : Int) + exponent then infinity
  else if (digitCount digits : Int) + exponent < -400 then 0.0
  else
    let ratio : Nat × Nat :=
      if 0 ≤ exponent then (digits * Nat.pow 10 exponent.toNat, 1)
      else (digits, Nat.pow 10 (-exponent).toNat)
    (nearest? ratio.1 ratio.2).getD infinity

def leadingDigits (cs : List Char) : List Char × List Char :=
  (cs.takeWhile Text.isDecimal, cs.dropWhile Text.isDecimal)

def digitValues (cs : List Char) : List Nat := cs.filterMap Text.decimalValue?

/-- The exponent at the end of a numeral, or nothing if there is something else. -/
def readExponent? : List Char → Option Int
  | [] => some 0
  | c :: rest =>
    if c = 'e' || c = 'E' then
      let (negative, body) := takeSign rest
      match leadingDigits body with
      | ([], _) => none
      | (digits, []) =>
        let size : Int := ofDigits (digitValues digits)
        some (if negative then -size else size)
      | _ => none
    else none

def readUnsigned? (cs : List Char) : Option Float :=
  let (whole, afterWhole) := leadingDigits cs
  let (part, rest) := match afterWhole with
    | '.' :: afterPoint => leadingDigits afterPoint
    | _ => ([], afterWhole)
  if whole.isEmpty && part.isEmpty then none
  else
    (readExponent? rest).map fun exponent =>
      ofScientific (ofDigits (digitValues (whole ++ part))) (exponent - part.length)

/-- Removes underscores that stand between two digits; any other underscore spoils the numeral. -/
def dropUnderscores : (afterDigit : Bool) → List Char → Option (List Char)
  | _, [] => some []
  | afterDigit, '_' :: c :: rest =>
    if afterDigit && Text.isDecimal c then (dropUnderscores true rest).map (c :: ·) else none
  | _, '_' :: [] => none
  | _, c :: rest => (dropUnderscores (Text.isDecimal c) rest).map (c :: ·)

/-- Reads a double: a decimal numeral, or the word for infinity or for what is not a number in any
mixture of capitals. -/
def readFloat? (text : String) : Option Float :=
  match dropUnderscores false (Text.trimBoth isMargin text.toList) with
  | none => none
  | some cs =>
    let (negative, body) := takeSign cs
    let word := String.ofList (body.map Char.toLower)
    let size :=
      if word = "inf" || word = "infinity" then some infinity
      else if word = "nan" then some notANumber
      else readUnsigned? body
    size.map fun x => if negative then -x else x

end Parlance.Decimal
