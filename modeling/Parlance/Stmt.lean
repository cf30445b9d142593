import Parlance.Expr

/-!
Statements, and programs as lists of statements. A block is a list of statements; deferred blocks
(timers, jobs, schedules, mouse clicks, server routes) are kept and run later.
-/

namespace Parlance

/-- How the value of a target changes. -/
inductive Change where
  | becomes | increase | decrease
  /-- A change that the language does not know. It does nothing. -/
  | unknown (name : String)
deriving Repr, DecidableEq, Inhabited

/-- As what an answer of the user is taken. -/
inductive AnswerKind where
  | string | number | yesOrNo
  /-- A kind that the language does not know. It takes the answer as it is. -/
  | unknown (name : String)
deriving Repr, DecidableEq, Inhabited

mutual

/-- Statements. Places tell apart those that keep a block to run once. -/
inductive Stmt where
  | assign (target value : Expr)
  | change (target : Expr) (kind : Change) (value : Option Expr)
  | say (parts : List Expr)
  | print (value : Expr)
  | clearScreen
  | showTable (headers : List String) (rows : Expr)
  | ask (prompt answer : String) (kind : AnswerKind)
  | branch (condition : Expr) (yes : List Stmt) (no : Option (List Stmt))
  | repeatForever (body : List Stmt)
  | repeatTimes (count : Expr) (body : List Stmt)
  | repeatUntil (condition : Expr) (body : List Stmt)
  | doUntil (body : List Stmt) (condition : Expr)
  | breakLoop
  | continueLoop
  | stop
  | define (name : String) (parameters : List String) (body : List Stmt)
  | giveBack (value : Option Expr)
  | choose (subject : Expr) (cases : List Case)
  | add (list value : Expr)
  | remove (list : Expr) (value index : Option Expr)
  | sort (list : Expr)
  | reverse (list : Expr)
  | shuffle (list : Expr)
  | writeFile (content : Expr) (name : String)
  | drawCircle (x y size : Expr) (color : String)
  | drawRectangle (x₁ y₁ x₂ y₂ : Expr) (color : String)
  | drawLine (x₁ y₁ x₂ y₂ : Expr) (color : String)
  | drawText (text x y size : Expr) (color : String)
  | whenMouseClicks (canvas : Expr) (body : List Stmt)
  | wait (seconds : Expr)
  /-- Keeps a block to run once. The place tells the statement from the others in the same statement
  of a program, once the program has been given its places. -/
  | after (place : Nat) (seconds : Expr) (body : List Stmt)
  | every (seconds : Expr) (body : List Stmt)
  | usePackage (name : String)
  | install (name : String)
  | useForeign (library boundName : String)
  | server (port : Expr) (routes : List Route)
  | job (name : String) (seconds : Expr) (body : List Stmt)
  | stopJob (name : String)
  | cron (schedule : String) (body : List Stmt)
  | call (name : String) (arguments : List Expr)
  | misplaced (name : String)
  | absent

/-- One case of a choice: the block for values from `low` to `high`. -/
inductive Case where
  | mk (low high : Expr) (body : List Stmt)

/-- One route of a server: the block for requests of a method at a path. -/
inductive Route where
  | mk (method path : String) (body : List Stmt)

end

/-! ### Places -/

mutual

/-- The statement with places from a number on, and the number after them. -/
def Stmt.placed : Stmt → StateM Nat Stmt
  | .branch condition yes no => do
    let first ← Stmt.placedAll yes
    return .branch condition first (← Stmt.placedOption no)
  | .repeatForever body => return .repeatForever (← Stmt.placedAll body)
  | .repeatTimes count body => return .repeatTimes count (← Stmt.placedAll body)
  | .repeatUntil condition body => return .repeatUntil condition (← Stmt.placedAll body)
  | .doUntil body condition => return .doUntil (← Stmt.placedAll body) condition
  | .define name parameters body => return .define name parameters (← Stmt.placedAll body)
  | .choose subject cases => return .choose subject (← Case.placedAll cases)
  | .whenMouseClicks canvas body => return .whenMouseClicks canvas (← Stmt.placedAll body)
  | .after _ seconds body => do
    let place ← modifyGet fun next => (next, next + 1)
    return .after place seconds (← Stmt.placedAll body)
  | .every seconds body => return .every seconds (← Stmt.placedAll body)
  | .server port routes => return .server port (← Route.placedAll routes)
  | .job name seconds body => return .job name seconds (← Stmt.placedAll body)
  | .cron schedule body => return .cron schedule (← Stmt.placedAll body)
  | other => return other

def Stmt.placedAll : List Stmt → StateM Nat (List Stmt)
  | [] => return []
  | statement :: rest => do
    let first ← statement.placed
    return first :: (← Stmt.placedAll rest)

def Stmt.placedOption : Option (List Stmt) → StateM Nat (Option (List Stmt))
  | none => return none
  | some body => return some (← Stmt.placedAll body)

def Case.placed : Case → StateM Nat Case
  | .mk low high body => return .mk low high (← Stmt.placedAll body)

def Case.placedAll : List Case → StateM Nat (List Case)
  | [] => return []
  | case :: rest => do
    let first ← case.placed
    return first :: (← Case.placedAll rest)

def Route.placed : Route → StateM Nat Route
  | .mk method path body => return .mk method path (← Stmt.placedAll body)

def Route.placedAll : List Route → StateM Nat (List Route)
  | [] => return []
  | route :: rest => do
    let first ← route.placed
    return first :: (← Route.placedAll rest)

end

/-- A program with places in each of its statements. Inside one of them, no two statements that keep
a block to run once have the same place. -/
def Stmt.program (statements : List Stmt) : List Stmt :=
  statements.map fun statement => (statement.placed 0).1

def Stmt.isAbsent : Stmt → Bool
  | .absent => true
  | _ => false

def Case.low : Case → Expr
  | .mk low _ _ => low

def Case.high : Case → Expr
  | .mk _ high _ => high

def Case.body : Case → List Stmt
  | .mk _ _ body => body

def Route.method : Route → String
  | .mk method _ _ => method

def Route.path : Route → String
  | .mk _ path _ => path

def Route.body : Route → List Stmt
  | .mk _ _ body => body

end Parlance
