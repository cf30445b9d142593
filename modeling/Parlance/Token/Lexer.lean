import Parlance.Text.Letter
import Parlance.Text.Lowercase
import Parlance.Token

/-!
Reading a program's text into lexemes. The text is cut into pieces from left to right; a piece is
a token, or something that is passed over. Words do not depend on capitals. `times` counts a loop
after a digit or after `repeat`, and multiplies elsewhere; for that the reader keeps what stands
before the current place.
-/

namespace Parlance

inductive LexFailure where
  /-- The text ends after a backslash inside quotes. -/
  | openEscape
  | badNumeral (text : String) (hasPoint : Bool)
  | longNumeral (digits : Nat)
deriving Repr, DecidableEq

namespace Lexer

/-- What a piece of the text is read as, and how many characters follow its first one. -/
structure Piece where
  /-- The token that the piece stands for; nothing if it is passed over. -/
  token? : Option Token
  /-- How many characters belong to the piece after its first. -/
  extent : Nat
  /-- Whether the piece counts one line more than it spans. -/
  extraLine : Bool := false

def Piece.skip (extent : Nat) : Piece := { token? := none, extent }

def Piece.ofSymbol (symbol : Symbol) (extent : Nat) : Piece :=
  { token? := some (.symbol symbol), extent }

/-! ### Literals -/

/-- What a character behind a backslash stands for. -/
def unescape : Char → Char
  | 'n' => '\n'
  | 't' => '\t'
  | c => c

/-- The content of a string up to the closing quote or the end of the text, and how many
characters it takes with the quote. -/
def stringBody (quote : Char) : List Char → Except LexFailure (List Char × Nat)
  | [] => .ok ([], 0)
  | ['\\'] => .error .openEscape
  | '\\' :: c :: rest =>
    (stringBody quote rest).map fun body => (unescape c :: body.1, body.2 + 2)
  | c :: rest =>
    if c = quote then .ok ([], 1)
    else (stringBody quote rest).map fun body => (c :: body.1, body.2 + 1)

def stringPiece (quote : Char) (rest : List Char) : Except LexFailure Piece :=
  (stringBody quote rest).map fun body =>
    { token? := some (.string (String.ofList body.1)), extent := body.2 }

/-- The characters of the numeral that begins the text: digits with at most one point. -/
def numeral (cs : List Char) : List Char × Bool :=
  let whole := cs.takeWhile Text.isDigit
  match cs.dropWhile Text.isDigit with
  | '.' :: rest => (whole ++ '.' :: rest.takeWhile Text.isDigit, true)
  | _ => (whole, false)

def numeralValue (cs : List Char) (hasPoint : Bool) : Except LexFailure Number :=
  let text := String.ofList cs
  if hasPoint then
    match Decimal.readFloat? text with
    | some x => .ok (.float x)
    | none => .error (.badNumeral text true)
  else
    match Decimal.readInteger text with
    | .ok n => .ok (.int n)
    | .error .malformed => .error (.badNumeral text false)
    | .error (.tooLong digits) => .error (.longNumeral digits)

def numberPiece (c : Char) (rest : List Char) : Except LexFailure Piece :=
  let (cs, hasPoint) := numeral (c :: rest)
  (numeralValue cs hasPoint).map fun value =>
    { token? := some (.number value), extent := cs.length - 1 }

/-! ### Words -/

def isWordPart (c : Char) : Bool := Text.isLetterOrNumeral c || c = '_'

/-- How far back `times` looks for a count. -/
def lookBehind : Nat := 20

/-- Whether the text before `times` ends in a count, apart from blanks: a digit, or `repeat`. -/
def followsCount (before : List Char) : Bool :=
  let context := Text.trimBoth Text.isBlank (Text.lowercaseChars (before.take lookBehind).reverse)
  match context.reverse with
  | [] => false
  | last :: _ => last.isDigit || "repeat".toList.isSuffixOf context

/-- Whether a word that is followed by these characters stands by itself. -/
def endsWord : List Char → Bool
  | [] => true
  | c :: _ => c = ' ' || c = '\n'

/-- The comparison whose words follow `is` and a space, with the number of their characters. The
first word is taken in small letters only. `most` is looked for, together with the space before it,
in four characters. -/
def comparison? (after : List Char) : Option (Symbol × Nat) :=
  let spaces := after.takeWhile (· = ' ')
  let next := (after.dropWhile (· = ' ')).takeWhile Text.isLetterOrNumeral
  let taken := spaces.length + next.length
  let rest := after.drop taken
  let goesOn (words : String) : Bool :=
    Text.lowercaseChars (rest.take words.length) = words.toList
  if next = "greater".toList && goesOn " than" then some (.isGreaterThan, taken + 5)
  else if next = "less".toList && goesOn " than" then some (.isLessThan, taken + 5)
  else if next = "at".toList && goesOn " least" then some (.isAtLeast, taken + 6)
  else if next = "at".toList && Text.lowercaseChars (rest.take 4) = " most".toList then
    some (.isAtMost, taken + 4)
  else none

def beginsNotEqual (cs : List Char) : Bool :=
  Text.lowercaseChars (cs.take 3) = "not".toList && (cs.drop 3).take 1 = [' '] &&
    Text.lowercaseChars ((cs.drop 4).take 5) = "equal".toList

/-- The piece of a word, given in small letters, of which `extent` characters follow the first.
`before` stands in front of it, nearest first, and `after` behind it. After `does` a space is looked
for one character too far, and `not equal` from there on. -/
def wordPiece (before : List Char) (word : String) (extent : Nat) (after : List Char) : Piece :=
  let plain : Piece :=
    match Symbol.ofWord? word with
    | some symbol => .ofSymbol symbol extent
    | none => { token? := some (.identifier word), extent }
  match word, after with
  | "times", _ =>
    if endsWord after && followsCount before then .ofSymbol .timesWord extent
    else .ofSymbol .timesOperator extent
  | "is", ' ' :: rest =>
    match comparison? rest with
    | some (symbol, taken) => .ofSymbol symbol (extent + 1 + taken)
    | none => plain
  | "divided", ' ' :: rest =>
    if Text.lowercaseChars (rest.take 3) = "by ".toList then .ofSymbol .divided (extent + 4)
    else plain
  | "does", c :: ' ' :: rest =>
    if beginsNotEqual (' ' :: rest) then .ofSymbol .doesNotEqual (extent + 10)
    else { plain with extraLine := c = '\n' }
  | _, _ => plain

theorem wordPiece_times_eq (before after : List Char) (extent : Nat) :
    wordPiece before "times" extent after =
      .ofSymbol (if endsWord after && followsCount before then .timesWord else .timesOperator)
        extent := by
  simp only [wordPiece]
  split <;> rfl

/-! ### The text -/

/-- The kinds of pieces, as far as their first characters tell them apart. -/
inductive Opening where
  | blank | comment | number | string | word
  | mark (symbol : Symbol)
  /-- Characters that mean nothing, the equal sign among them. -/
  | other
deriving Repr, DecidableEq

/-- What a piece is that begins with a character. -/
def opening (c : Char) : Opening :=
  if c = ' ' || c = '\t' || c = '\r' then .blank
  else if c = '#' then .comment
  else if c = '\n' then .mark .newline
  else if Text.isDigit c then .number
  else if c = '"' || c = '\'' then .string
  else if c = '.' then .mark .dot
  else if c = '[' then .mark .leftBracket
  else if c = ']' then .mark .rightBracket
  else if c = ',' then .mark .comma
  else if Text.isLetter c || c = '_' then .word
  else .other

/-- The piece that begins with a character, given what stands before it, nearest first. -/
def piece (before : List Char) (c : Char) (rest : List Char) : Except LexFailure Piece :=
  match opening c with
  | .blank | .other => .ok (.skip 0)
  | .comment => .ok (.skip (rest.takeWhile (· ≠ '\n')).length)
  | .mark symbol => .ok (.ofSymbol symbol 0)
  | .number => numberPiece c rest
  | .string => stringPiece c rest
  | .word =>
    let run := rest.takeWhile isWordPart
    .ok (wordPiece before (String.ofList (Text.lowercaseChars (c :: run))) run.length
      (rest.dropWhile isWordPart))

def Piece.placeAfter (piece : Piece) (place : Place) (taken : List Char) : Place :=
  let reached := taken.foldl Place.after place
  if piece.extraLine then { reached with line := reached.line + 1 } else reached

/-- The lexeme of a piece that begins at `place` and ends at `reached`. A line end is placed on
the line that it ends. -/
def Piece.lexeme? (piece : Piece) (place reached : Place) : Option Lexeme :=
  piece.token?.map fun token =>
    match token with
    | .symbol .newline => ⟨token, place⟩
    | _ => ⟨token, reached.line, place.column⟩

/-- The lexemes of a text that begins at a place, with `before` in front of it, nearest first. The
last lexeme is the end of the text. -/
def scan (before : List Char) (place : Place) : List Char → Except LexFailure (List Lexeme)
  | [] => .ok [⟨.symbol .endOfText, place⟩]
  | c :: rest => do
    let piece ← piece before c rest
    let taken := c :: rest.take piece.extent
    let reached := piece.placeAfter place taken
    let lexemes ← scan (taken.reverse ++ before) reached (rest.drop piece.extent)
    return (piece.lexeme? place reached).toList ++ lexemes
termination_by cs => cs.length
decreasing_by simp only [List.length_drop, List.length_cons]; omega

theorem scan_nil (before : List Char) (place : Place) :
    scan before place [] = .ok [⟨.symbol .endOfText, place⟩] := by
  rw [scan]

theorem scan_of_piece {before rest : List Char} {c : Char} {found : Piece}
    (next : piece before c rest = .ok found) (place : Place) :
    scan before place (c :: rest) =
      (scan ((c :: rest.take found.extent).reverse ++ before)
          (found.placeAfter place (c :: rest.take found.extent)) (rest.drop found.extent)).map
        ((found.lexeme? place
          (found.placeAfter place (c :: rest.take found.extent))).toList ++ ·) := by
  rw [scan, next]
  show Except.bind (scan _ _ _) _ = _
  cases scan ((c :: rest.take found.extent).reverse ++ before)
      (found.placeAfter place (c :: rest.take found.extent)) (rest.drop found.extent) <;> rfl

theorem scan_of_failure {before rest : List Char} {c : Char} {failure : LexFailure}
    (next : piece before c rest = .error failure) (place : Place) :
    scan before place (c :: rest) = .error failure := by
  rw [scan, next]
  rfl

end Lexer

/-- The lexemes of a text, with their places. -/
def lex (text : String) : Except LexFailure (List Lexeme) :=
  Lexer.scan [] Place.start text.toList

def tokens (text : String) : Except LexFailure (List Token) :=
  (lex text).map fun lexemes => lexemes.map Lexeme.token

end Parlance
