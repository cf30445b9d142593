import Parlance.Text.Quoted
import Parlance.Token

/-!
Reading tokens into programs: what a reader can do with the current token, and the loops that all
rules share. The rest of the tokens is the only state. A list may lack the mark for the end of the
text; past its end there is no current token.
-/

namespace Parlance

inductive ParseError where
  | expected (wanted : String) (found : Option Token)
  | unexpected (found : Option Token)
  | expectedTimes (found : Option Token)
deriving Repr

/-- A token with its content, as messages show it. -/
def Token.shown : Token → String
  | .number value => "Token(NUMBER, " ++ value.text ++ ")"
  | .string value => "Token(STRING, " ++ Text.quoted value ++ ")"
  | .identifier name => "Token(IDENTIFIER, " ++ Text.quoted name ++ ")"
  | .symbol sign => "Token(" ++ sign.name ++ ")"

def ParseError.message : ParseError → String
  | .expected wanted found =>
    "Expected " ++ wanted ++ ", got " ++ (found.map Token.kindName).getD "EOF"
  | .unexpected found => "Unexpected token: " ++ (found.map Token.shown).getD "None"
  | .expectedTimes found =>
    "Expected 'times' after count, got " ++ (found.map Token.shown).getD "None"

/-- How reading fails: with an error in the grammar, or by going on for ever. -/
inductive ParseFailure where
  | error (cause : ParseError)
  /-- A statement was due at a token that begins none. Reading would wait there for ever. -/
  | stalled
deriving Repr

/-- A reader takes tokens from the front. -/
abbrev Parse := StateT (List Token) (Except ParseFailure)

namespace Parse

variable {α : Type}

/-! ### The current token -/

/-- The next token, which is left where it is. -/
def current? : Parse (Option Token) := fun tokens => .ok (tokens.head?, tokens)

def advance : Parse Unit := fun tokens => .ok ((), tokens.tail)

def sees (test : Token → Bool) : Parse Bool := fun tokens => .ok (tokens.head?.any test, tokens)

def isAmong (symbols : List Symbol) : Token → Bool
  | .symbol sign => symbols.contains sign
  | _ => false

def seesAny (symbols : List Symbol) : Parse Bool := sees (isAmong symbols)

def fail (cause : ParseError) : Parse α := throw (.error cause)

/-- Takes a symbol, which must come next. -/
def expect (symbol : Symbol) : Parse Unit := do
  let found ← current?
  match found with
  | some (.symbol sign) =>
    if sign = symbol then advance else fail (.expected symbol.name found)
  | _ => fail (.expected symbol.name found)

def expectAll : List Symbol → Parse Unit
  | [] => pure ()
  | symbol :: rest => do expect symbol; expectAll rest

def expectString : Parse String := do
  let found ← current?
  match found with
  | some (.string value) => advance; return value
  | _ => fail (.expected "STRING" found)

def expectIdentifier : Parse String := do
  let found ← current?
  match found with
  | some (.identifier name) => advance; return name
  | _ => fail (.expected "IDENTIFIER" found)

/-- The tokens after the line ends at the beginning. -/
def afterNewlines (tokens : List Token) : List Token := tokens.dropWhile (isAmong [.newline])

/-- Takes the line ends that come next. -/
def skipNewlines : Parse Unit := fun tokens => .ok ((), afterNewlines tokens)

/-! ### Loops -/

/-- A bound for steps of which every one takes a token: there are at most as many as the tokens that
are left, and one more that finds nothing to take. The tokens themselves are the bound, so that
nothing has to be counted. -/
abbrev Bound := List Token

def Bound.ofTokens (tokens : List Token) : Bound := .symbol .endOfText :: tokens

/-- Reads items while the current token satisfies the test, within the bound. -/
def whileSees (test : Token → Bool) (item : Parse α) : Bound → Parse (List α)
  | [] => throw .stalled
  | _ :: bound => do
    if ← sees test then
      let first ← item
      let rest ← whileSees test item bound
      return first :: rest
    else return []

/-- Reads items while the current token satisfies the test. Every item takes a token. -/
def manyWhile (test : Token → Bool) (item : Parse α) : Parse (List α) := fun tokens =>
  whileSees test item (Bound.ofTokens tokens) tokens

/-- Reads items on lines of their own until the current token is one of the symbols, within the
bound. -/
def linesWithin (closers : List Symbol) (item : Parse α) : Bound → Parse (List α)
  | [] => throw .stalled
  | _ :: bound => do
    if ← seesAny closers then return []
    else
      let first ← item
      skipNewlines
      let rest ← linesWithin closers item bound
      return first :: rest

/-- Reads items on lines of their own until the current token is one of the symbols. Every item
takes a token or fails. -/
def lines (closers : List Symbol) (item : Parse α) : Parse (List α) := do
  skipNewlines
  fun tokens => linesWithin closers item (Bound.ofTokens tokens) tokens

/-- One item, and another one after each comma. -/
def separated (item : Parse α) : Parse (List α) := do
  let first ← item
  let rest ← manyWhile (isAmong [.comma]) do
    advance
    item
  return first :: rest

end Parse

end Parlance
