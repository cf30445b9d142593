import Parlance.Expr
import Parlance.Parse.Basic
import Parlance.Table

/-!
Reading expressions. The layers bind ever tighter: `or`, `and`, `not`, one comparison, `plus` and
`minus`, `times` and `divided by`, and the factors. A name that is directly followed by something that
can begin an operand is a call.

Each layer is given the reader for expressions inside it; the knot is tied at the end by the depth
of nesting, which the number of tokens bounds.
-/

namespace Parlance.Parse

variable {α : Type}

/-! ### Chains of operators -/

/-- Goes on with operators and operands, grouping to the left, within the bound. -/
def chainFrom (operator? : Parse (Option BinaryOperator)) (operand : Parse Expr) :
    Bound → Expr → Parse Expr
  | [], _ => throw .stalled
  | _ :: bound, left => do
    match ← operator? with
    | none => return left
    | some operator =>
      let right ← operand
      chainFrom operator? operand bound (.binary left operator right)

/-- Operands with operators between, nested to the left. -/
def chain (operator? : Parse (Option BinaryOperator)) (operand : Parse Expr) : Parse Expr := do
  let left ← operand
  fun tokens => chainFrom operator? operand (Bound.ofTokens tokens) left tokens

def operatorAt (symbol : Symbol) (operator : BinaryOperator) : Parse (Option BinaryOperator) := do
  if ← seesAny [symbol] then
    advance
    return some operator
  else return none

/-- Tokens at which a line ends. An arithmetic operator without a second operand is dropped
there. -/
def lineEnds : List Symbol := [.newline, .endOfText, .endWord]

def unlessLineEnds (operator : BinaryOperator) : Parse (Option BinaryOperator) := do
  if ← seesAny lineEnds then return none else return some operator

def additiveOperator? : Parse (Option BinaryOperator) := do
  match ← current? with
  | some (.symbol .plus) => advance; unlessLineEnds .plus
  | some (.symbol .minus) => advance; unlessLineEnds .minus
  | _ => return none

def multiplicativeOperator? : Parse (Option BinaryOperator) := do
  match ← current? with
  | some (.symbol .timesOperator) => advance; unlessLineEnds .times
  | some (.symbol .divided) => advance; expect .byWord; unlessLineEnds .dividedBy
  | _ => return none

def comparisonOf? : Symbol → Option BinaryOperator
  | .equals => some .equals
  | .doesNotEqual => some .doesNotEqual
  | .isGreaterThan => some .isGreaterThan
  | .isLessThan => some .isLessThan
  | .isAtLeast => some .isAtLeast
  | .isAtMost => some .isAtMost
  | _ => none

def comparisonOperator? : Parse (Option BinaryOperator) := do
  match ← current? with
  | some (.symbol sign) =>
    match comparisonOf? sign with
    | some operator => advance; return some operator
    | none => return none
  | _ => return none

/-! ### Factors -/

def beginsArgument : Token → Bool
  | .number _ | .string _ | .identifier _ => true
  | .symbol sign => [.trueWord, .falseWord, .nothing, .pi, .notWord, .item].contains sign

def beginsAccess : Token → Bool := isAmong [.dot, .leftBracket, .atWord]

/-- A property or an index after a name, as what it makes of the value before it. -/
def access (nested : Parse Expr) : Parse (Expr → Expr) := do
  match ← current? with
  | some (.symbol .dot) =>
    advance
    let name ← expectIdentifier
    return fun object => .property object name
  | some (.symbol .leftBracket) =>
    advance
    let index ← nested
    expect .rightBracket
    return fun object => .index object index
  | _ =>
    advance
    let index ← nested
    return fun object => .index object index

/-- What follows a name: the arguments of a call, or properties and indices. -/
def afterName (nested : Parse Expr) (name : String) : Parse Expr := do
  if ← sees beginsArgument then
    let arguments ← manyWhile beginsArgument nested
    return .call name arguments
  else
    let accesses ← manyWhile beginsAccess (access nested)
    return accesses.foldl (fun object step => step object) (.identifier name)

/-- Elements up to a closing bracket, which is not taken. -/
def elementsBefore (nested : Parse Expr) : Parse (List Expr) := do
  if ← seesAny [.rightBracket] then return [] else separated nested

def listElements (nested : Parse Expr) : Parse (List Expr) := do
  expect .leftBracket
  let elements ← elementsBefore nested
  expect .rightBracket
  return elements

def entry (name : Parse String) (nested : Parse Expr) : Parse (String × Expr) := do
  let key ← name
  expect .isWord
  let value ← nested
  return (key, value)

def entries (name : Parse String) (nested : Parse Expr) : Parse (List (String × Expr)) := do
  let pairs ← lines [.endWord] (entry name nested)
  expect .endWord
  return pairs

def dictionary (nested : Parse Expr) : Parse Expr := do
  expect .dictionary
  return .dictionary (← entries expectString nested)

def object (nested : Parse Expr) : Parse Expr := do
  expect .object
  return .object (← entries expectIdentifier nested)

def isIdentifier : Token → Bool
  | .identifier _ => true
  | _ => false

/-- Each name once, with its last value, in the place where it came first. -/
def lastValues (pairs : List (String × Expr)) : Table Expr :=
  pairs.foldl (fun table pair => table.insert pair.1 pair.2) []

/-- What follows `using`: on the same line, if a name is there, or on lines of its own. -/
def afterUsing (onSameLine onLines otherwise : Parse α) : Parse α := do
  if ← seesAny [.usingWord] then
    advance
    if ← sees isIdentifier then onSameLine
    else if ← seesAny [.newline] then onLines
    else otherwise
  else otherwise

/-- The parameters of a request after `using`: on the same line, or on lines of their own up to
`end`. -/
def requestParameters (nested : Parse Expr) : Parse (List (String × Expr)) := do
  return lastValues (← afterUsing (manyWhile isIdentifier (entry expectIdentifier nested))
    (entries expectIdentifier nested) (pure []))

def wordForm (nested : Parse Expr) : Symbol → Parse Expr
  | .leftBracket => return .list (← listElements nested)
  | .dictionary => dictionary nested
  | .object => object nested
  | .find => do
    advance
    let value ← nested
    expect .inWord
    return .find value (← nested)
  | .filter => do
    advance
    let list ← nested
    expect .whereWord
    return .filter list (← nested)
  | .map => do
    advance
    let list ← nested
    expect .usingWord
    return .map list (← nested)
  | .split => do
    advance
    let text ← nested
    expect .byWord
    return .split text (← expectString)
  | .join => do
    advance
    let list ← nested
    expect .joinWith
    return .join list (← expectString)
  | .replace => do
    advance
    let old ← expectString
    expect .withWord
    let new ← expectString
    expect .inWord
    return .replace (← nested) old new
  | .get => do
    advance
    let address ← expectString
    return .get address (← requestParameters nested)
  | .read => do
    advance
    expect .file
    return .fileText (← expectString)
  | .create => do
    advance
    expect .canvas
    let width ← nested
    expect .byWord
    return .createCanvas width (← nested)
  | .python => do
    advance
    expect .callWord
    let path ← expectString
    expect .withWord
    return .foreignCall path (← separated nested)
  | sign => fail (.unexpected (some (.symbol sign)))

/-- A literal, a name with what follows it, a call or a form that begins with a word. -/
def factor (nested : Parse Expr) : Parse Expr := do
  match ← current? with
  | some (.number value) => advance; return .number value
  | some (.string value) => advance; return .string value
  | some (.identifier name) => advance; afterName nested name
  | some (.symbol .trueWord) => advance; return .boolean true
  | some (.symbol .falseWord) => advance; return .boolean false
  | some (.symbol .nothing) => advance; return .nothing
  | some (.symbol .pi) => advance; return .pi
  | some (.symbol .item) => advance; return .identifier "item"
  | some (.symbol sign) => wordForm nested sign
  | none => fail (.unexpected none)

/-! ### Layers -/

def term (nested : Parse Expr) : Parse Expr := chain multiplicativeOperator? (factor nested)

def arithmetic (nested : Parse Expr) : Parse Expr := chain additiveOperator? (term nested)

def comparison (nested : Parse Expr) : Parse Expr := do
  let left ← arithmetic nested
  match ← comparisonOperator? with
  | none => return left
  | some operator => return .binary left operator (← arithmetic nested)

/-- A comparison with at most one `not` in front. -/
def negation (nested : Parse Expr) : Parse Expr := do
  if ← seesAny [.notWord] then
    advance
    return .unary .not (← comparison nested)
  else comparison nested

def conjunction (nested : Parse Expr) : Parse Expr :=
  chain (operatorAt .andWord .and) (negation nested)

def disjunction (nested : Parse Expr) : Parse Expr :=
  chain (operatorAt .orWord .or) (conjunction nested)

/-- An expression, by a bound for how deep others are nested in it. -/
def expressionAt : Bound → Parse Expr
  | [] => throw .stalled
  | _ :: bound => disjunction (expressionAt bound)

def expression : Parse Expr := fun tokens => expressionAt (Bound.ofTokens tokens) tokens

end Parlance.Parse
