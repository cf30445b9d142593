import Parlance.Parse.Statement
import Parlance.Proofs.Printing

/-!
Sentences: statements as they are written, and the tokens that they are written with. Every sentence
stands on a line of its own, and the lines of its blocks stand between its headings and the closing
word.
-/

namespace Parlance

abbrev Printable := { expression : Expr // expression.IsPrintable .disjunction }

def Printable.tokens (printable : Printable) : List Token := printable.1.tokens

def Printable.identifier (name : String) : Printable :=
  ⟨.identifier name, .ofFactor (.place (.identifier name))⟩

/-! ### Sentences without blocks -/

/-- Sentences without blocks. A sentence says one value: what it says and what follows `and` are one
conjunction. -/
inductive Leaf where
  | say (value : Printable)
  | print (value : Printable)
  | clearScreen
  | assign (name : String) (value : Printable)
  | becomes (name : String) (value : Printable)
  | increase (name : String) (amount : Printable)
  | decrease (name : String) (amount : Printable)
  | breakLoop
  | continueLoop
  | stop
  | giveBack
  | giveBackValue (value : Printable)
  | add (value list : Printable)
  | remove (value list : Printable)
  | removeAt (place list : Printable)
  | sort (list : Printable)
  | reverse (list : Printable)

namespace Leaf

def statement : Leaf → Stmt
  | .say value => .say [value.1]
  | .print value => .print value.1
  | .clearScreen => .clearScreen
  | .assign name value => .assign (.identifier name) value.1
  | .becomes name value => .change (.identifier name) .becomes (some value.1)
  | .increase name amount => .change (.identifier name) .increase (some amount.1)
  | .decrease name amount => .change (.identifier name) .decrease (some amount.1)
  | .breakLoop => .breakLoop
  | .continueLoop => .continueLoop
  | .stop => .stop
  | .giveBack => .giveBack none
  | .giveBackValue value => .giveBack (some value.1)
  | .add value list => .add list.1 value.1
  | .remove value list => .remove list.1 (some value.1) none
  | .removeAt place list => .remove list.1 none (some place.1)
  | .sort list => .sort list.1
  | .reverse list => .reverse list.1

def opening : Leaf → Token
  | .say _ => .symbol .say
  | .print _ => .symbol .printWord
  | .clearScreen => .symbol .clear
  | .assign name _ | .becomes name _ | .increase name _ | .decrease name _ => .identifier name
  | .breakLoop => .symbol .breakWord
  | .continueLoop => .symbol .continueWord
  | .stop => .symbol .stop
  | .giveBack | .giveBackValue _ => .symbol .returnWord
  | .add _ _ => .symbol .add
  | .remove _ _ | .removeAt _ _ => .symbol .remove
  | .sort _ => .symbol .sort
  | .reverse _ => .symbol .reverse

def remaining : Leaf → List Token
  | .say value | .print value | .giveBackValue value | .sort value | .reverse value => value.tokens
  | .clearScreen => [.symbol .screen]
  | .assign _ value => .symbol .isWord :: value.tokens
  | .becomes _ value => .symbol .becomes :: value.tokens
  | .increase _ amount => .symbol .increase :: .symbol .byWord :: amount.tokens
  | .decrease _ amount => .symbol .decrease :: .symbol .byWord :: amount.tokens
  | .breakLoop | .continueLoop | .stop | .giveBack => []
  | .add value list => value.tokens ++ .symbol .toWord :: list.tokens
  | .remove value list => value.tokens ++ .symbol .fromWord :: list.tokens
  | .removeAt place list => .symbol .atWord :: (place.tokens ++ .symbol .fromWord :: list.tokens)

end Leaf

/-! ### Sentences -/

/-- How the method of a route is written. -/
inductive RouteWord where
  | get | add
  /-- The route has no word for its method. -/
  | omitted
deriving Repr, DecidableEq

def RouteWord.method : RouteWord → String
  | .get | .omitted => "GET"
  | .add => "POST"

def RouteWord.tokens : RouteWord → List Token
  | .get => [.symbol .get]
  | .add => [.symbol .add]
  | .omitted => []

mutual

/-- Statements as they are written. -/
inductive Sentence where
  | leaf (sentence : Leaf)
  | branch (condition : Printable) (yes : List Sentence)
  | branchOtherwise (condition : Printable) (yes no : List Sentence)
  | repeatForever (body : List Sentence)
  | repeatTimes (count : Printable) (body : List Sentence)
  | repeatUntil (condition : Printable) (body : List Sentence)
  | doUntil (body : List Sentence) (condition : Printable)
  | define (name : String) (parameters : List String) (body : List Sentence)
  | choose (subject : Printable) (cases : List WrittenCase)
  | after (seconds : Printable) (body : List Sentence)
  | every (seconds : Printable) (body : List Sentence)
  | job (name : String) (seconds : Printable) (body : List Sentence)
  | cron (schedule : String) (body : List Sentence)
  | whenMouseClicks (canvas : Printable) (body : List Sentence)
  | server (port : Printable) (routes : List WrittenRoute)

/-- A case as it is written, with `to` and its greatest value or without. -/
inductive WrittenCase where
  | mk (low : Printable) (high : Option Printable) (body : List Sentence)

inductive WrittenRoute where
  | mk (word : RouteWord) (path : String) (body : List Sentence)

end

def WrittenCase.body : WrittenCase → List Sentence
  | .mk _ _ body => body

def WrittenRoute.body : WrittenRoute → List Sentence
  | .mk _ _ body => body

mutual

def Sentence.statement : Sentence → Stmt
  | .leaf sentence => sentence.statement
  | .branch condition yes => .branch condition.1 (Sentence.statements yes) none
  | .branchOtherwise condition yes no =>
    .branch condition.1 (Sentence.statements yes) (some (Sentence.statements no))
  | .repeatForever body => .repeatForever (Sentence.statements body)
  | .repeatTimes count body => .repeatTimes count.1 (Sentence.statements body)
  | .repeatUntil condition body => .repeatUntil condition.1 (Sentence.statements body)
  | .doUntil body condition => .doUntil (Sentence.statements body) condition.1
  | .define name parameters body => .define name parameters (Sentence.statements body)
  | .choose subject cases => .choose subject.1 (WrittenCase.cases cases)
  | .after seconds body => .after 0 seconds.1 (Sentence.statements body)
  | .every seconds body => .every seconds.1 (Sentence.statements body)
  | .job name seconds body => .job name seconds.1 (Sentence.statements body)
  | .cron schedule body => .cron schedule (Sentence.statements body)
  | .whenMouseClicks canvas body => .whenMouseClicks canvas.1 (Sentence.statements body)
  | .server port routes => .server port.1 (WrittenRoute.routes routes)

def Sentence.statements : List Sentence → List Stmt
  | [] => []
  | sentence :: rest => sentence.statement :: Sentence.statements rest

/-- The cases that are written. A case without `to` goes from its value to the same value. -/
def WrittenCase.cases : List WrittenCase → List Case
  | [] => []
  | .mk low high body :: rest =>
    .mk low.1 (high.getD low).1 (Sentence.statements body) :: WrittenCase.cases rest

def WrittenRoute.routes : List WrittenRoute → List Route
  | [] => []
  | .mk word path body :: rest =>
    .mk word.method path (Sentence.statements body) :: WrittenRoute.routes rest

end

def Sentence.opening : Sentence → Token
  | .leaf sentence => sentence.opening
  | .branch _ _ | .branchOtherwise _ _ _ => .symbol .ifWord
  | .repeatForever _ | .repeatTimes _ _ | .repeatUntil _ _ => .symbol .repeatWord
  | .doUntil _ _ => .symbol .doWord
  | .define _ _ _ => .symbol .define
  | .choose _ _ => .symbol .matchWord
  | .after _ _ => .symbol .after
  | .every _ _ => .symbol .every
  | .job _ _ _ => .symbol .job
  | .cron _ _ => .symbol .cron
  | .whenMouseClicks _ _ => .symbol .when
  | .server _ _ => .symbol .server

def WrittenCase.highTokens : Option Printable → List Token
  | none => []
  | some high => .symbol .toWord :: high.tokens

mutual

def Sentence.remaining : Sentence → List Token
  | .leaf sentence => sentence.remaining
  | .branch condition yes =>
    condition.tokens ++ .symbol .thenWord :: .symbol .newline ::
      (Sentence.lines yes ++ [.symbol .endWord])
  | .branchOtherwise condition yes no =>
    condition.tokens ++ .symbol .thenWord :: .symbol .newline ::
      (Sentence.lines yes ++ .symbol .otherwise :: .symbol .newline ::
        (Sentence.lines no ++ [.symbol .endWord]))
  | .repeatForever body =>
    .symbol .forever :: .symbol .newline :: (Sentence.lines body ++ [.symbol .endWord])
  | .repeatTimes count body =>
    count.tokens ++ .symbol .timesWord :: .symbol .newline ::
      (Sentence.lines body ++ [.symbol .endWord])
  | .repeatUntil condition body =>
    .symbol .untilWord :: (condition.tokens ++ .symbol .newline ::
      (Sentence.lines body ++ [.symbol .endWord]))
  | .doUntil body condition =>
    .symbol .newline :: (Sentence.lines body ++ .symbol .untilWord :: condition.tokens)
  | .define name parameters body =>
    .identifier name :: .symbol .withWord :: (parameters.map Token.identifier ++
      .symbol .newline :: (Sentence.lines body ++ [.symbol .endWord]))
  | .choose subject cases =>
    subject.tokens ++ .symbol .newline :: (WrittenCase.lines cases ++ [.symbol .endWord])
  | .after seconds body | .every seconds body =>
    seconds.tokens ++ .symbol .seconds :: .symbol .doWord :: .symbol .newline ::
      (Sentence.lines body ++ [.symbol .endWord])
  | .job name seconds body =>
    .string name :: .symbol .every :: (seconds.tokens ++ .symbol .seconds :: .symbol .doWord ::
      .symbol .newline :: (Sentence.lines body ++ [.symbol .endWord]))
  | .cron schedule body =>
    .string schedule :: .symbol .newline :: (Sentence.lines body ++ [.symbol .endWord])
  | .whenMouseClicks canvas body =>
    .symbol .mouse :: .symbol .clicks :: .symbol .onWord :: (canvas.tokens ++ .symbol .newline ::
      (Sentence.lines body ++ [.symbol .endWord]))
  | .server port routes =>
    .symbol .onWord :: .symbol .port :: (port.tokens ++ .symbol .newline ::
      (WrittenRoute.lines routes ++ [.symbol .endWord]))

def Sentence.lines : List Sentence → List Token
  | [] => []
  | sentence :: rest =>
    sentence.opening :: (sentence.remaining ++ .symbol .newline :: Sentence.lines rest)

/-- The tokens of cases, each on a line of its own before the lines of its block. -/
def WrittenCase.lines : List WrittenCase → List Token
  | [] => []
  | .mk low high body :: rest =>
    .symbol .when :: (low.tokens ++ (WrittenCase.highTokens high ++ .symbol .newline ::
      (Sentence.lines body ++ WrittenCase.lines rest)))

/-- The tokens of routes, each on a line of its own before the lines of its block. -/
def WrittenRoute.lines : List WrittenRoute → List Token
  | [] => []
  | .mk word path body :: rest =>
    .symbol .when :: (word.tokens ++ .string path :: .symbol .newline ::
      (Sentence.lines body ++ WrittenRoute.lines rest))

end

namespace Sentence

/-! ### What stands inside a sentence -/

/-- The blocks of a sentence that end where the next case or route begins. -/
def clauses : Sentence → List (List Sentence)
  | .choose _ cases => cases.map WrittenCase.body
  | .server _ routes => routes.map WrittenRoute.body
  | _ => []

def blocks : Sentence → List (List Sentence)
  | .leaf _ => []
  | .branchOtherwise _ yes no => [yes, no]
  | .branch _ body | .repeatForever body | .repeatTimes _ body | .repeatUntil _ body
  | .doUntil body _ | .define _ _ body | .after _ body | .every _ body | .job _ _ body
  | .cron _ body | .whenMouseClicks _ body => [body]
  | .choose _ cases => cases.map WrittenCase.body
  | .server _ routes => routes.map WrittenRoute.body

/-- Whether a sentence keeps a block for mouse clicks. It begins with the word that begins a case
and a route. -/
def isClickHandler : Sentence → Bool
  | .whenMouseClicks _ _ => true
  | _ => false

/-- Whether no sentence that begins like a case or a route stands directly in the block of one, at
any depth. -/
inductive IsClear : Sentence → Prop where
  | mk {sentence : Sentence} :
    (∀ block ∈ sentence.clauses, ∀ inside ∈ block, inside.isClickHandler = false) →
      (∀ block ∈ sentence.blocks, ∀ inside ∈ block, IsClear inside) → IsClear sentence

end Sentence

end Parlance
