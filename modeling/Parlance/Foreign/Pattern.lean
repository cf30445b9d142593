import Parlance.Builtin
import Parlance.Text.Caseless

/-!
Functions of the library for patterns, for patterns that are plain text: a pattern matches where it
stands, letter for letter, with or without regard to case.
-/

namespace Parlance.Foreign

def specialCharacters : List Char :=
  "()[]\x7b\x7d?*+-|^$\\.&~# \t\n\r\x0b\x0c".toList

def escaped (text : String) : String :=
  String.ofList (text.toList.flatMap fun c =>
    if specialCharacters.contains c then ['\\', c] else [c])

/-- The characters that make a pattern more than plain text. -/
def patternMarks : List Char := "()[]\x7b\x7d?*+|^$\\.".toList

/-! ### Options -/

/-- The options that are numbers: each is a power of two, and a number holds those whose powers are
in its sum. -/
def patternOptions : List (String × Nat) :=
  [("NOFLAG", 0), ("T", 1), ("TEMPLATE", 1), ("I", 2), ("IGNORECASE", 2), ("L", 4), ("LOCALE", 4),
   ("M", 8), ("MULTILINE", 8), ("S", 16), ("DOTALL", 16), ("U", 32), ("UNICODE", 32), ("X", 64),
   ("VERBOSE", 64), ("DEBUG", 128), ("A", 256), ("ASCII", 256)]

def optionNumber (value : Value) : Except Refusal Int :=
  match value with
  | .foreign "RegexFlag" name =>
    .ok ((patternOptions.find? fun option => "re." ++ option.1 = name).map Prod.snd |>.getD 0)
  | _ =>
    match value.int? with
    | some n => .ok n
    | none => .error (.wrongType (.operands "&" value.typeName "RegexFlag"))

/-- Whether a number has the bit of an option. -/
def holdsOption (options : Int) (power : Nat) : Bool := Int.emod (Int.fdiv options power) 2 = 1

/-- A pattern that stands for its own letters. -/
structure Plain where
  letters : List Char
  same : Char → Char → Bool

/-- The letters of a pattern that may be laid out: white space and what follows a number sign on its
line do not count. -/
def laidOut : (inRemark : Bool) → List Char → List Char
  | _, [] => []
  | true, c :: rest => laidOut (c ≠ '\n') rest
  | false, c :: rest =>
    if " \t\n\r\x0b\x0c".toList.contains c then laidOut false rest
    else if c = '#' then laidOut true rest
    else c :: laidOut false rest

/-- A pattern whose letters are all plain, with its options; only such ones are described. -/
def Plain.read (pattern options : Value) : Except Refusal Plain := do
  let _ ← pattern.asKey
  let _ ← options.asKey
  match pattern with
  | .string text =>
    let number ← optionNumber options
    if holdsOption number 4 then
      .error (.badValue (.library "cannot use LOCALE flag with a str pattern"))
    else if holdsOption number 256 && holdsOption number 32 then
      .error (.badValue (.library "ASCII and UNICODE flags are incompatible"))
    else if Nat.pow 2 31 ≤ number || number < -(Nat.pow 2 31 : Int) then
      .error (.outOfRange (.machine "int"))
    else
      let letters := if holdsOption number 64 then laidOut false text.toList else text.toList
      if !holdsOption number 2 then return ⟨letters, fun c d => c = d⟩
      else if holdsOption number 256 then return ⟨letters, Text.sameBasicLetter⟩
      else return ⟨letters, Text.sameLetter⟩
  | _ => .error (.wrongType (.library "first argument must be string or compiled pattern"))

/-! ### Places -/

def beginsWith (same : Char → Char → Bool) : List Char → List Char → Bool
  | _, [] => true
  | [], _ :: _ => false
  | c :: text, d :: pattern => same c d && beginsWith same text pattern

namespace Plain

/-- The places where a pattern matches, from a place on, after characters that are skipped because
the match before covers them. An empty pattern matches before every character and at the end. -/
def placesFrom (plain : Plain) : (place skip : Nat) → List Char → List Nat
  | place, _, [] => if plain.letters.isEmpty then [place] else []
  | place, skip + 1, _ :: rest => plain.placesFrom (place + 1) skip rest
  | place, 0, c :: rest =>
    if beginsWith plain.same (c :: rest) plain.letters then
      place :: plain.placesFrom (place + 1) (plain.letters.length - 1) rest
    else plain.placesFrom (place + 1) 0 rest

def places (plain : Plain) (text : List Char) : List Nat := plain.placesFrom 0 0 text

def found (plain : Plain) (text : List Char) : List String :=
  (plain.places text).map fun place =>
    String.ofList ((text.drop place).take plain.letters.length)

def piecesBetween (plain : Plain) (text : List Char) (start : Nat) : List Nat → List String
  | [] => [String.ofList (text.drop start)]
  | place :: rest =>
    String.ofList ((text.drop start).take (place - start)) ::
      plain.piecesBetween text (place + plain.letters.length) rest

/-- The pieces of a text between matches, of which so many count from the left; zero means all of
them, and a number below zero none. -/
def pieces (plain : Plain) (text : List Char) (limit : Int) : List String :=
  let places := plain.places text
  plain.piecesBetween text 0 (if limit = 0 then places else places.take limit.toNat)

end Plain

/-! ### Arguments -/

def missing (name : String) (parameters : List String) (given : Nat) : Refusal :=
  .wrongType (.missingArguments name (parameters.drop given))

/-- Refuses a wrong number of arguments of a function that needs some and takes more. -/
def checkArguments (name : String) (needed : List String) (more : Nat) (arguments : List Value) :
    Except Refusal Unit :=
  let given := arguments.length
  if given < needed.length then .error (missing name needed given)
  else if given ≤ needed.length + more then .ok ()
  else if more = 0 then .error (.wrongType (.tooManyArguments name needed.length given))
  else
    .error (.wrongType (.argumentsBeyond name needed.length (needed.length + more) given))

def searchedText : Value → Except Refusal (List Char)
  | .string text => .ok text.toList
  | value =>
    .error (.wrongType (.library
      ("expected string or bytes-like object, got '" ++ value.typeName ++ "'")))

def decodedText : Value → Except Refusal String
  | .string text => .ok text
  | value =>
    .error (.wrongType (.library
      ("decoding to str: need a bytes-like object, " ++ value.typeName ++ " found")))

/-- How many matches are replaced at most. -/
def matchLimit (value : Value) : Except Refusal Int := do
  let n ← Builtin.whole value
  if n < Heap.countLimit && -Heap.countLimit ≤ n then return n
  else .error (.outOfRange (.machine "ssize_t"))

/-- The argument at a place; zero if there is none. -/
def argument (arguments : List Value) (place : Nat) : Value := arguments[place]?.getD (.int 0)

/-! ### Patterns that are described -/

/-- The arguments that a function which reads a pattern needs, how many more it takes, and the place
of the options. -/
def signature? : String → Option (List String × Nat × Nat)
  | "compile" => some (["pattern"], 1, 1)
  | "split" => some (["pattern", "string"], 2, 3)
  | "sub" => some (["pattern", "repl", "string"], 2, 4)
  | "match" | "search" | "fullmatch" | "findall" => some (["pattern", "string"], 1, 2)
  | _ => none

/-- Whether a value can be taken for the options of a pattern without regard to earlier calls, and
does not ask for the pattern to be shown. -/
def areOptions : Value → Bool
  | .float _ => false
  | value =>
    match optionNumber value with
    | .ok number => !holdsOption number 128
    | .error _ => true

/-- Whether a pattern is plain text, and what is put in its place is, too. -/
def describesPattern (name : String) (arguments : List Value) : Bool :=
  let isPlain (marks : List Char) : Value → Bool
    | .string text => text.toList.all fun c => !(marks.contains c)
    | _ => true
  (signature? name).any (fun (_, _, place) => areOptions (argument arguments place)) &&
    isPlain patternMarks (argument arguments 0) &&
    (name ≠ "sub" || isPlain ['\\'] (argument arguments 1))

/-! ### Calls -/

def callSearch (heap : Heap) (name : String) (arguments : List Value) :
    Except Refusal (Value × Heap) := do
  let plain ← Plain.read (argument arguments 0) (argument arguments 2)
  let text ← searchedText (argument arguments 1)
  match name with
  | "findall" => return heap.newList ((plain.found text).map Value.string)
  | "match" =>
    if beginsWith plain.same text plain.letters then .error (.foreignResult "re.Match")
    else return (.nothing, heap)
  | "fullmatch" =>
    if beginsWith plain.same text plain.letters && text.length = plain.letters.length then
      .error (.foreignResult "re.Match")
    else return (.nothing, heap)
  | _ =>
    if (plain.places text).isEmpty then return (.nothing, heap)
    else .error (.foreignResult "re.Match")

/-- The functions of the library for patterns that are described. -/
def callPattern (heap : Heap) (name : String) (arguments : List Value) :
    Except Refusal (Value × Heap) := do
  match signature? name with
  | some (needed, more, _) => checkArguments name needed more arguments
  | none => pure ()
  match name with
  | "escape" =>
    checkArguments name ["pattern"] 0 arguments
    return (.string (escaped (← decodedText (argument arguments 0))), heap)
  | "compile" =>
    let _ ← Plain.read (argument arguments 0) (argument arguments 1)
    .error (.foreignResult "re.Pattern")
  | "split" =>
    let plain ← Plain.read (argument arguments 0) (argument arguments 3)
    let limit ← matchLimit (argument arguments 2)
    let text ← searchedText (argument arguments 1)
    return heap.newList ((plain.pieces text limit).map Value.string)
  | "sub" =>
    let plain ← Plain.read (argument arguments 0) (argument arguments 4)
    let limit ← matchLimit (argument arguments 3)
    let new ← decodedText (← (argument arguments 1).asKey)
    let text ← searchedText (argument arguments 2)
    return (.string (new.intercalate (plain.pieces text limit)), heap)
  | "match" | "search" | "fullmatch" | "findall" => callSearch heap name arguments
  | _ => .error (.foreignResult "object")

end Parlance.Foreign
