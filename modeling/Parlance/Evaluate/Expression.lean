import Parlance.Evaluate.Access
import Parlance.Evaluate.Call
import Parlance.Evaluate.Operator
import Parlance.Evaluate.Request
import Parlance.Evaluate.Sequence

/-!
What each kind of expression means, given how its parts are run.
-/

namespace Parlance

def piValue : Float := 3.141592653589793

namespace Engine

def dictionary (engine : Engine) (pairs : List (String × Expr)) : Run Value := do
  let values ← engine.evaluateNamed pairs
  Run.newDictionary (Entries.ofList (values.map fun entry => (.string entry.1, entry.2)))

/-- A canvas. With a screen, the canvas is used before it is made. -/
def createCanvas (settings : Settings) (engine : Engine) (width height : Expr) : Run Value := do
  Run.check settings .graphics
  let w ← engine.whole width
  let h ← engine.whole height
  if ← Run.look fun world => world.screen.isSome then Run.fail (.unbound .canvas)
  else
    Run.newDictionary
      [(.string "type", .string "canvas"), (.string "width", .int w), (.string "height", .int h)]

/-- What an expression gives, by way of an engine for its parts. -/
def valueOf (settings : Settings) (engine : Engine) : Expr → Run Value
  | .number value => return .number value
  | .undefined place => return .undefined (.written place)
  | .string value => return .string value
  | .boolean value => return .boolean value
  | .nothing => return .nothing
  | .pi => return .float piValue
  | .identifier name => variableValue name
  | .binary left operator right => do
    let first ← engine.evaluate left
    let second ← engine.evaluate right
    operator.apply first second
  | .unary operator operand => do operator.apply (← engine.evaluate operand)
  | .property object name => engine.property object name
  | .index object place => engine.index object place
  | .list elements => do Run.newList (← engine.evaluateAll elements)
  | .dictionary pairs => engine.dictionary pairs
  | .object properties => engine.dictionary properties
  | .call name arguments => engine.call name arguments
  | .find value container => do
    let sought ← engine.evaluate value
    let place ← engine.evaluate container
    return .boolean (← Run.fromHeap fun heap => heap.found sought place)
  | .filter list condition => engine.filter list condition
  | .map list transform => engine.map list transform
  | .split subject separator => engine.split subject separator
  | .join list separator => engine.join list separator
  | .replace subject old new => engine.replace subject old new
  | .contains subject pattern => engine.contains subject pattern
  | .slice subject start stop => engine.slice subject start stop
  | .get address parameters => engine.request settings "get" address parameters
  | .post address parameters => engine.request settings "post" address parameters
  | .fileText name => readFile settings name
  | .createCanvas width height => engine.createCanvas settings width height
  | .foreignCall path arguments => engine.foreignCall settings path arguments
  | .misplaced kind => Run.report (.unknownExpression kind)
  | .absent => Run.report (.unknownExpression Expr.absent.kindName)

end Engine

end Parlance
