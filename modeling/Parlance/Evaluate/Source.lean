import Parlance.Evaluate.Engine
import Parlance.Parse.Statement

/-!
Programs as text: reading them, and running what has been read. Nothing is run before all of it has
been read.
-/

namespace Parlance

namespace Run

def tokensOf (source : String) : Run (List Token) :=
  match tokens source with
  | .ok found => pure found
  | .error failure => fail (.unreadable failure)

/-- A program that is read, or the fault or stall that reading ends with. -/
def ofParse {α : Type} : Except ParseFailure α → Run α
  | .ok result => pure result
  | .error (.error cause) => fail (.malformed cause)
  | .error .stalled => throw .stalled

def program (source : String) : Run (List Stmt) := do
  ofParse (parse (← tokensOf source))

def expression (source : String) : Run Expr := do
  ofParse (parseExpression (← tokensOf source))

end Run

def Engine.runSource (engine : Engine) (source : String) : Run Unit := do
  engine.runProgram (← Run.program source)

end Parlance
