import Parlance.Table
import Parlance.Text.Blank
import Parlance.Text.Piece
import Parlance.Text.Quoted

/-!
Manifests of packages: lines with a key, an equal sign and a value, which is a text or a list of
texts between brackets. Blank lines and lines that begin with `#` say nothing.
-/

namespace Parlance

inductive ManifestValue where
  | text (value : String)
  | list (items : List String)
deriving Repr, DecidableEq, Inhabited

/-- Keys with their values, in the order in which the keys came first. -/
abbrev Manifest := Table ManifestValue

namespace Text

/-- The lines of a text, with every kind of line end. -/
def universalNewlines : List Char → List Char
  | [] => []
  | '\r' :: '\n' :: rest => '\n' :: universalNewlines rest
  | '\r' :: rest => '\n' :: universalNewlines rest
  | c :: rest => c :: universalNewlines rest

end Text

namespace Manifest

/-- A text without white space around it, then without double and then without single quotes. -/
def bare (cs : List Char) : List Char :=
  Text.trimBoth (· = '\'') (Text.trimBoth (· = '"') (Text.trimBoth Text.isBlank cs))

def isBracketed (cs : List Char) : Bool := cs.head? = some '[' && cs.getLast? = some ']'

def readValue (cs : List Char) : ManifestValue :=
  let value := bare cs
  if isBracketed value then
    .list ((Text.splitAt ',' (value.drop 1).dropLast).map fun item => String.ofList (bare item))
  else .text (String.ofList value)

/-- The key and the value of a line; nothing for a line that says nothing. -/
def readLine (cs : List Char) : Option (String × ManifestValue) :=
  let line := Text.trimBoth Text.isBlank cs
  match line with
  | [] => none
  | '#' :: _ => none
  | _ =>
    match line.dropWhile (· ≠ '=') with
    | [] => none
    | _ :: value =>
      let key := Text.trimBoth Text.isBlank (line.takeWhile (· ≠ '='))
      some (String.ofList key, readValue value)

/-- The keys of a manifest, line by line. -/
def parse (text : String) : Manifest :=
  let lines := Text.splitAt '\n' (Text.universalNewlines text.toList)
  (lines.filterMap readLine).foldl (fun manifest entry => manifest.insert entry.1 entry.2) []

def writtenValue : ManifestValue → String
  | .text value => "\"" ++ value ++ "\""
  | .list items => "[" ++ ", ".intercalate (items.map Text.quoted) ++ "]"

def written (manifest : Manifest) : String :=
  String.join (manifest.map fun entry => entry.1 ++ " = " ++ writtenValue entry.2 ++ "\n")

end Manifest

end Parlance
