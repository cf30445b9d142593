import Parlance.World

/-!
The pieces from which running a program is put together. What the meaning of an expression or a
statement needs of the meanings of its parts is handed to it as an engine, so that each meaning can
be stated by itself; the parts are tied together in one place.

Loops take the pass as an action. They are bounded by the rounds that the engine allows.
-/

namespace Parlance

/-- How the parts of programs are run, and how many rounds a loop may take. -/
structure Engine where
  rounds : Nat
  evaluate : Expr → Run Value
  execute : Stmt → Run Unit
  handing : Handing

namespace Engine

def evaluateAll (engine : Engine) : List Expr → Run (List Value)
  | [] => pure []
  | expression :: rest => do
    let value ← engine.evaluate expression
    let values ← engine.evaluateAll rest
    return value :: values

def evaluateNamed (engine : Engine) : List (String × Expr) → Run (List (String × Value))
  | [] => pure []
  | (name, expression) :: rest => do
    let value ← engine.evaluate expression
    let values ← engine.evaluateNamed rest
    return (name, value) :: values

def executeAll (engine : Engine) : List Stmt → Run Unit
  | [] => pure ()
  | statement :: rest => do
    engine.execute statement
    engine.executeAll rest

/-- Runs a block in the edition that it was kept with. -/
def runBlock (engine : Engine) (block : Block) : Run Unit :=
  Run.inEdition block.edition (engine.executeAll block.body)

/-- Runs the statements of a text that has just been read, each in an edition of its own. -/
def runProgram (engine : Engine) : List Stmt → Run Unit
  | [] => pure ()
  | statement :: rest => do
    engine.runBlock ⟨[← Run.newEdition], Stmt.program [statement]⟩
    engine.runProgram rest

def holds (engine : Engine) (condition : Expr) : Run Bool := do
  Run.isTrue (← engine.evaluate condition)

def whole (engine : Engine) (expression : Expr) : Run Int := do
  Run.ofExcept (Heap.toInt (← engine.evaluate expression))

def real (engine : Engine) (expression : Expr) : Run Float := do
  Run.ofExcept (Heap.toFloat (← engine.evaluate expression))

/-- The address of the list that an expression must give. -/
def listAddress (engine : Engine) (action : String) (expression : Expr) : Run Nat := do
  match ← engine.evaluate expression with
  | .list address => return address
  | _ => Run.report (.expectsList action)

end Engine

/-! ### Loops -/

/-- How a pass through a loop ends, if the loop has a say in it. -/
inductive Pass where
  | finished | continued | broken
deriving Repr, DecidableEq

namespace Loop

/-- One pass. Signals for the loop end here; every other exit leaves the loop. -/
def pass (body : Run Unit) : Run Pass := fun world =>
  match body world with
  | .ok _ after => .ok .finished after
  | .error (.signal .breakLoop) after => .ok .broken after
  | .error (.signal .continueLoop) after => .ok .continued after
  | .error exit after => .error exit after

/-- Only a pass that is broken out of ends the loop. -/
def forever (body : Run Unit) : (rounds : Nat) → Run Unit
  | 0 => throw .exhausted
  | rounds + 1 => do
    match ← pass body with
    | .broken => return ()
    | _ => forever body rounds

def counted (body : Run Unit) : (count : Nat) → Run Unit
  | 0 => return ()
  | count + 1 => do
    match ← pass body with
    | .broken => return ()
    | _ => counted body count

/-- Looks at the condition before each pass. -/
def untilHolds (condition : Run Bool) (body : Run Unit) : (rounds : Nat) → Run Unit
  | 0 => throw .exhausted
  | rounds + 1 => do
    if ← condition then return ()
    else
      match ← pass body with
      | .broken => return ()
      | _ => untilHolds condition body rounds

/-- Passes, each followed by a look at the condition, until it holds. A pass that is continued early
is followed by the next one without a look. -/
def passUntil (condition : Run Bool) (body : Run Unit) : (rounds : Nat) → Run Unit
  | 0 => throw .exhausted
  | rounds + 1 => do
    match ← pass body with
    | .broken => return ()
    | .continued => passUntil condition body rounds
    | .finished =>
      if ← condition then return () else passUntil condition body rounds

end Loop

end Parlance
