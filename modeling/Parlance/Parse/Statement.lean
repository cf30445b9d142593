import Parlance.Parse.Expression
import Parlance.Stmt
import Parlance.Token.Lexer

/-!
Reading statements and programs. A statement begins with its word, or with the name that it
assigns to, changes or calls. Blocks end at a closing word. Where a statement is due and the
current token begins none, reading stalls.
-/

namespace Parlance.Parse

/-! ### Blocks -/

/-- The statements up to a closing word, which is left. -/
def block (closers : List Symbol) (nested : Parse (Option Stmt)) : Parse (List Stmt) := do
  let statements ← lines closers nested
  return statements.filterMap id

def blockToEnd (nested : Parse (Option Stmt)) : Parse (List Stmt) := do
  let body ← block [.endWord] nested
  expect .endWord
  return body

/-! ### Statements that begin with a name -/

def beginsStatementArgument : Token → Bool
  | .number _ | .string _ | .identifier _ => true
  | .symbol sign => [.trueWord, .falseWord, .nothing, .pi, .leftBracket, .notWord].contains sign

def assigned : Parse Expr := do
  match ← current? with
  | some (.symbol .add) =>
    advance
    expect .toWord
    let address ← expectString
    return .post address (← requestParameters expression)
  | some (.symbol .dictionary) => dictionary expression
  | some (.symbol .object) => object expression
  | _ => expression

/-- A statement that begins with a name: an assignment, a change or a call. -/
def nameStatement : Parse Stmt := do
  let name ← expectIdentifier
  let accesses ← manyWhile (isAmong [.dot, .leftBracket]) (access expression)
  let target := accesses.foldl (fun object step => step object) (.identifier name)
  match ← current? with
  | some (.symbol .isWord) => advance; return .assign target (← assigned)
  | some (.symbol .becomes) => advance; return .change target .becomes (some (← expression))
  | some (.symbol .increase) =>
    advance
    expect .byWord
    return .change target .increase (some (← expression))
  | some (.symbol .decrease) =>
    advance
    expect .byWord
    return .change target .decrease (some (← expression))
  | _ => return .call name (← manyWhile beginsStatementArgument expression)

/-! ### Statements that begin with a word -/

def headerNames : Parse (List String) := do
  match ← current? with
  | some (.string _) => separated expectString
  | _ => return []

def headers : Parse (List String) := do
  expect .leftBracket
  let names ← headerNames
  expect .rightBracket
  return names

def answerKind : Parse AnswerKind := do
  match ← current? with
  | some (.symbol .forWord) =>
    advance
    if ← seesAny [.numberWord] then
      advance
      return .number
    else return .string
  | some (.symbol .yes) =>
    advance
    expectAll [.orWord, .no]
    return .yesOrNo
  | _ => return .string

/-- A loop with a count, after `repeat`. -/
def countedLoop (nested : Parse (Option Stmt)) : Parse Stmt := do
  let count ← expression
  if ← seesAny [.timesWord, .timesOperator] then
    advance
    return .repeatTimes count (← blockToEnd nested)
  else fail (.expectedTimes (← current?))

def loop (nested : Parse (Option Stmt)) : Parse Stmt := do
  match ← current? with
  | some (.symbol .forever) => advance; return .repeatForever (← blockToEnd nested)
  | some (.symbol .untilWord) =>
    advance
    let condition ← expression
    return .repeatUntil condition (← blockToEnd nested)
  | _ => countedLoop nested

def otherwiseBlock (nested : Parse (Option Stmt)) : Parse (Option (List Stmt)) := do
  if ← seesAny [.otherwise] then
    advance
    return some (← block [.endWord] nested)
  else return none

/-- How far a case goes. A case without `to` goes from its value to the same value. -/
def caseEnd (low : Expr) : Parse Expr := do
  if ← seesAny [.toWord] then
    advance
    expression
  else return low

/-- One case of a choice, up to the next one or to `end`. -/
def choiceCase (nested : Parse (Option Stmt)) : Parse Case := do
  expect .when
  let low ← expression
  let high ← caseEnd low
  return .mk low high (← block [.when, .endWord] nested)

/-- The method of a route. A route without one answers `GET`. -/
def routeMethod : Parse String := do
  match ← current? with
  | some (.symbol .get) => advance; return "GET"
  | some (.symbol .add) => advance; return "POST"
  | _ => return "GET"

def route (nested : Parse (Option Stmt)) : Parse Route := do
  expect .when
  let method ← routeMethod
  let path ← expectString
  return .mk method path (← block [.when, .endWord] nested)

def point : Parse (Expr × Expr) := do
  let x ← expression
  expect .comma
  let y ← expression
  return (x, y)

def color : Parse String := do
  expect .color
  expectString

/-- A shape after `draw`. An unknown shape draws nothing, and is not taken. -/
def shape : Parse (Option Stmt) := do
  match ← current? with
  | some (.symbol .circle) =>
    advance
    expect .atWord
    let center ← point
    expectAll [.withWord, .size]
    let size ← expression
    expect .andWord
    return some (.drawCircle center.1 center.2 size (← color))
  | some (.symbol .rectangle) =>
    advance
    expect .fromWord
    let first ← point
    expect .toWord
    let second ← point
    expect .withWord
    return some (.drawRectangle first.1 first.2 second.1 second.2 (← color))
  | some (.symbol .line) =>
    advance
    expect .fromWord
    let first ← point
    expect .toWord
    let second ← point
    expect .withWord
    return some (.drawLine first.1 first.2 second.1 second.2 (← color))
  | some (.symbol .text) =>
    advance
    let text ← expression
    expect .atWord
    let place ← point
    expectAll [.withWord, .size]
    let size ← expression
    expect .andWord
    return some (.drawText text place.1 place.2 size (← color))
  | _ => return none

def timed (nested : Parse (Option Stmt)) : Parse (Expr × List Stmt) := do
  let seconds ← expression
  expectAll [.seconds, .doWord]
  return (seconds, ← blockToEnd nested)

def lastPart (name : String) : String := ((name.splitOn ".").getLast?).getD name

/-- The statement that begins with the symbol, which has been taken; nothing if no statement
begins with it. -/
def afterWord? (nested : Parse (Option Stmt)) : Symbol → Option (Parse (Option Stmt))
  | .say => some do
    let first ← expression
    let rest ← manyWhile (isAmong [.andWord]) do
      advance
      expression
    return some (.say (first :: rest))
  | .printWord => some do return some (.print (← expression))
  | .clear => some do
    expect .screen
    return some .clearScreen
  | .showWord => some do
    expectAll [.table, .withWord, .headers]
    let names ← headers
    expectAll [.andWord, .data, .rows]
    return some (.showTable names (← expression))
  | .ask => some do
    let kind ← answerKind
    let prompt ← expectString
    expect .isWord
    return some (.ask prompt (← expectIdentifier) kind)
  | .ifWord => some do
    let condition ← expression
    expect .thenWord
    let yes ← block [.otherwise, .endWord] nested
    let no ← otherwiseBlock nested
    expect .endWord
    return some (.branch condition yes no)
  | .repeatWord => some do return some (← loop nested)
  | .doWord => some do
    let body ← block [.untilWord] nested
    expect .untilWord
    return some (.doUntil body (← expression))
  | .breakWord => some (pure (some .breakLoop))
  | .continueWord => some (pure (some .continueLoop))
  | .stop => some (pure (some .stop))
  | .define => some do
    let name ← expectIdentifier
    expect .withWord
    let parameters ← manyWhile isIdentifier expectIdentifier
    return some (.define name parameters (← blockToEnd nested))
  | .returnWord => some do
    if ← seesAny lineEnds then return some (.giveBack none)
    else return some (.giveBack (some (← expression)))
  | .matchWord => some do
    let subject ← expression
    let cases ← lines [.endWord] (choiceCase nested)
    expect .endWord
    return some (.choose subject cases)
  | .add => some do
    let value ← expression
    expect .toWord
    return some (.add (← expression) value)
  | .remove => some do
    if ← seesAny [.atWord] then
      advance
      let index ← expression
      expect .fromWord
      return some (.remove (← expression) none (some index))
    else
      let value ← expression
      expect .fromWord
      return some (.remove (← expression) (some value) none)
  | .sort => some do return some (.sort (← expression))
  | .reverse => some do return some (.reverse (← expression))
  | .shuffle => some do return some (.shuffle (← expression))
  | .write => some do
    let content ← expression
    expectAll [.toFile, .file]
    return some (.writeFile content (← expectString))
  | .draw => some shape
  | .when => some do
    expectAll [.mouse, .clicks, .onWord]
    let canvas ← expression
    return some (.whenMouseClicks canvas (← blockToEnd nested))
  | .wait => some do
    let seconds ← expression
    expect .seconds
    return some (.wait seconds)
  | .after => some do
    let (seconds, body) ← timed nested
    return some (.after 0 seconds body)
  | .every => some do
    let (seconds, body) ← timed nested
    return some (.every seconds body)
  | .useWord => some do
    if ← seesAny [.python] then
      advance
      let name ← expectString
      return some (.useForeign name (lastPart name))
    else return some (.usePackage (← expectString))
  | .install => some do return some (.install (← expectString))
  | .server => some do
    expectAll [.onWord, .port]
    let port ← expression
    let routes ← lines [.endWord] (route nested)
    expect .endWord
    return some (.server port routes)
  | .job => some do
    let name ← expectString
    expect .every
    let (seconds, body) ← timed nested
    return some (.job name seconds body)
  | .cron => some do
    let schedule ← expectString
    return some (.cron schedule (← blockToEnd nested))
  | _ => none

/-! ### Programs -/

/-- A statement from its first token on, given the reader for statements inside it. -/
def atStatement (nested : Parse (Option Stmt)) : Parse (Option Stmt) := do
  match ← current? with
  | some (.identifier _) => return some (← nameStatement)
  | some (.symbol sign) =>
    match afterWord? nested sign with
    | some rest => advance; rest
    | none => return none
  | _ => return none

/-- The statement after the line ends, if one begins there. -/
def statementOf (nested : Parse (Option Stmt)) : Parse (Option Stmt) := do
  skipNewlines
  atStatement nested

/-- Stalls if the reader gave nothing and took nothing. -/
def orStall (reader : Parse (Option Stmt)) : Parse (Option Stmt) := do
  let before ← get
  let statement ← reader
  let after ← get
  if statement.isNone && after.length = before.length then throw .stalled
  else return statement

def statementAt : Bound → Parse (Option Stmt)
  | [] => throw .stalled
  | _ :: bound => orStall (statementOf (statementAt bound))

/-- A statement, or nothing for a drawing of an unknown shape. -/
def statement : Parse (Option Stmt) := fun tokens => statementAt (Bound.ofTokens tokens) tokens

/-- The statements of a text, line by line. -/
def program : Parse (List Stmt) := block [.endOfText] statement

end Parse

/-- The program that tokens are read as. -/
def parse (tokens : List Token) : Except ParseFailure (List Stmt) :=
  (Parse.program tokens).map Prod.fst

def parseExpression (tokens : List Token) : Except ParseFailure Expr :=
  (Parse.expression tokens).map Prod.fst

end Parlance
