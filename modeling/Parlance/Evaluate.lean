import Parlance.Evaluate.Expression
import Parlance.Evaluate.Statement

/-!
Running programs. Expressions and statements are run by one another, down to a depth. A report is
written where it arises and the run goes on there, unless debugging lets it end the run.
-/

namespace Parlance

mutual

/-- The value of an expression, down to a depth of nesting. -/
def evaluate (settings : Settings) : (depth : Nat) → Expr → Run Value
  | 0, _ => throw .exhausted
  | depth + 1, expression =>
    Run.reporting settings .nothing
      (Engine.valueOf settings
        ⟨depth, evaluate settings depth, execute settings depth, settings.handing⟩ expression)

def execute (settings : Settings) : (depth : Nat) → Stmt → Run Unit
  | 0, _ => throw .exhausted
  | depth + 1, statement =>
    Run.reporting settings ()
      (Engine.carryOut settings
        ⟨depth, evaluate settings depth, execute settings depth, settings.handing⟩ statement)

end

/-- The engine that runs everything down to a depth. -/
def Engine.ofDepth (settings : Settings) (depth : Nat) : Engine :=
  ⟨depth, Parlance.evaluate settings depth, Parlance.execute settings depth, settings.handing⟩

/-- A depth that programs do not reach. -/
def ample : Nat := Nat.pow 10 15

def Engine.standard (settings : Settings) : Engine := Engine.ofDepth settings ample

end Parlance
