import Parlance.Evaluate.Access
import Parlance.Evaluate.Call
import Parlance.Evaluate.Canvas
import Parlance.Evaluate.Package
import Parlance.Evaluate.Request
import Parlance.Evaluate.Server
import Parlance.Evaluate.Timer
import Parlance.Sort

/-!
What each kind of statement means, given how its parts are run.
-/

namespace Parlance

/-! ### Input -/

namespace Run

/-- The next line of the input, without its end and without white space around it. At the end of the
input it is empty. -/
def readLine : Run String := fun world =>
  let line := world.input.takeWhile (· ≠ '\n')
  let rest := world.input.drop (line.length + 1)
  .ok (Text.strip (String.ofList line)) { world with input := rest }

end Run

/-- The value of an answer. An answer that is no number counts as zero. -/
def AnswerKind.read (kind : AnswerKind) (answer : String) : Value :=
  match kind with
  | .number => .float ((Decimal.readFloat? answer).getD 0.0)
  | .yesOrNo => .boolean (["yes", "y", "true", "1"].contains (Text.lowercase answer))
  | .string => .string answer
  | .unknown _ => .string answer

namespace Engine

/-! ### Output -/

/-- The texts of expressions, each made before the next expression is evaluated. -/
def texts (engine : Engine) : List Expr → Run (List String)
  | [] => return []
  | expression :: rest => do
    let text ← Run.text (← engine.evaluate expression)
    let others ← engine.texts rest
    return text :: others

/-- The characters that clear a terminal and lead to its first place. -/
def clearing : String := "\x1b[2J\x1b[H"

def showTable (engine : Engine) (headers : List String) (rows : Expr) : Run Unit := do
  match ← engine.evaluate rows with
  | .list address =>
    let table ← Run.fromHeap fun heap =>
      if (heap.items address).isEmpty then .ok ""
      else Builtin.tableUnder heap headers (.list address)
    Run.writeLine table
  | _ => Run.report .expectsRows

/-- Asks for a line of input and gives it to a name. -/
def ask (prompt name : String) (kind : AnswerKind) : Run Unit := do
  Run.write prompt
  let line ← Run.readLine
  Run.setVariable name (← Run.withHeap fun heap => .ok (heap.settle (kind.read line)))

/-! ### Choices -/

/-- Whether a value fits a case: numbers by range, everything else by equality with the lower
end. -/
def fits (heap : Heap) (value low high : Value) : Bool :=
  match value.number?, low.number?, high.number? with
  | some x, some a, some b =>
    (a.order x).any Relation.lessEqual.holds && (x.order b).any Relation.lessEqual.holds
  | _, _, _ => heap.equal value low

/-- Runs the first case whose bounds the value lies between. -/
def choose (engine : Engine) (value : Value) : List Case → Run Unit
  | [] => return ()
  | case :: rest => do
    let low ← engine.evaluate case.low
    let high ← engine.evaluate case.high
    if ← Run.look fun world => fits world.heap value low high then
      engine.executeAll case.body
    else engine.choose value rest

/-! ### Lists -/

def add (engine : Engine) (list value : Expr) : Run Unit := do
  let address ← engine.listAddress "add" list
  let item ← engine.evaluate value
  let items ← Run.look fun world => world.heap.items address
  Run.put address (.list (items ++ [item]))

/-- Removes the item at a place from a list; a place outside the list changes nothing. -/
def removeAt (engine : Engine) (address : Nat) (place : Expr) : Run Unit := do
  let position ← engine.whole place
  let items ← Run.look fun world => world.heap.items address
  if 0 ≤ position && position < items.length then
    Run.put address (.list (items.eraseIdx position.toNat))
  else return ()

/-- Removes the first item that equals a value, or none. -/
def removeValue (engine : Engine) (address : Nat) (value : Expr) : Run Unit := do
  let sought ← engine.evaluate value
  let heap ← Run.look World.heap
  Run.put address (.list ((heap.items address).eraseP (heap.matchesItem sought)))

def remove (engine : Engine) (list : Expr) (value place : Option Expr) : Run Unit := do
  let address ← engine.listAddress "remove" list
  match place with
  | some index => engine.removeAt address index
  | none => engine.removeValue address (value.getD .absent)

/-- Puts the items of a list in order. While that goes on, the list itself has no items. If two items
cannot be compared, those that were compared before have been moved. -/
def sort (engine : Engine) (list : Expr) : Run Unit := do
  let address ← engine.listAddress "sort" list
  let heap ← Run.look World.heap
  match Sort.sorted ((heap.put address (.list [])).compare .less) (heap.items address) with
  | .ok sorted => Run.put address (.list sorted)
  | .error stopped =>
    Run.put address (.list stopped.reached)
    Run.refuse stopped.cause

def reverse (engine : Engine) (list : Expr) : Run Unit := do
  let address ← engine.listAddress "reverse" list
  let items ← Run.look fun world => world.heap.items address
  Run.put address (.list items.reverse)

/-- The values in an order by chance: one by one, a value is taken out of those that are left. -/
def shuffled : (count : Nat) → List Value → Run (List Value)
  | 0, values => return values
  | count + 1, values => do
    let place := (← Run.draw) % values.length
    match values[place]? with
    | none => return []
    | some value => return value :: (← shuffled count (values.eraseIdx place))

def shuffle (engine : Engine) (list : Expr) : Run Unit := do
  let address ← engine.listAddress "shuffle" list
  let items ← Run.look fun world => world.heap.items address
  Run.put address (.list (← shuffled items.length items))

/-! ### Functions and libraries -/

/-- Enters a function, with the variables that the innermost scope knows. -/
def define (name : String) (parameters : List String) (body : List Stmt) : Run Unit := do
  let block ← Run.keep body
  Run.changeScope fun scope => scope.define name ⟨parameters, block, scope.bindings⟩

def useForeign (settings : Settings) (library boundName : String) : Run Unit := do
  Run.check settings .foreign
  Run.setVariable boundName (.library (← allowedLibrary library))

/-! ### Statements -/

/-- What a statement does, by way of an engine for its parts. -/
def carryOut (settings : Settings) (engine : Engine) : Stmt → Run Unit
  | .assign target value => do engine.writeTarget target (← engine.evaluate value)
  | .change target kind value => engine.changeTarget target kind (value.getD .absent)
  | .say parts => do Run.writeLine (String.join (← engine.texts parts))
  | .print value => do Run.writeLine (← Run.text (← engine.evaluate value))
  | .clearScreen => Run.write clearing
  | .showTable headers rows => engine.showTable headers rows
  | .ask prompt name kind => ask prompt name kind
  | .branch condition yes no => do
    if ← engine.holds condition then engine.executeAll yes
    else engine.executeAll (no.getD [])
  | .repeatForever body => Loop.forever (engine.executeAll body) engine.rounds
  | .repeatTimes count body => do
    Loop.counted (engine.executeAll body) (← engine.whole count).toNat
  | .repeatUntil condition body =>
    Loop.untilHolds (engine.holds condition) (engine.executeAll body) engine.rounds
  | .doUntil body condition =>
    Loop.passUntil (engine.holds condition) (engine.executeAll body) engine.rounds
  | .breakLoop => Run.raise .breakLoop
  | .continueLoop => Run.raise .continueLoop
  | .stop => Run.raise .stop
  | .define name parameters body => define name parameters body
  | .giveBack none => Run.raise (.giveBack .nothing)
  | .giveBack (some value) => do Run.raise (.giveBack (← engine.evaluate value))
  | .choose subject cases => do engine.choose (← engine.evaluate subject) cases
  | .add list value => engine.add list value
  | .remove list value place => engine.remove list value place
  | .sort list => engine.sort list
  | .reverse list => engine.reverse list
  | .shuffle list => engine.shuffle list
  | .writeFile content name => engine.writeFile settings content name
  | .drawCircle x y size color => engine.drawCircle settings x y size color
  | .drawRectangle x₁ y₁ x₂ y₂ color => engine.drawBetween settings "rectangle" x₁ y₁ x₂ y₂ color
  | .drawLine x₁ y₁ x₂ y₂ color => engine.drawBetween settings "line" x₁ y₁ x₂ y₂ color
  | .drawText content x y size color => engine.drawText settings content x y size color
  | .whenMouseClicks canvas body => engine.whenMouseClicks settings canvas body
  | .wait seconds => engine.wait settings seconds
  | .after place seconds body => engine.after settings place seconds body
  | .every seconds body => engine.every settings seconds body
  | .usePackage name => engine.usePackage settings name
  | .install name => install settings name
  | .useForeign library boundName => useForeign settings library boundName
  | .server port routes => engine.server settings port routes
  | .job name seconds body => engine.job settings name seconds body
  | .stopJob name => stopJob name
  | .cron schedule body => cron settings schedule body
  | .call name arguments => do let _ ← engine.call name arguments
  | .misplaced kind => Run.report (.unknownStatement kind)
  | .absent => Run.report (.unknownStatement Expr.absent.kindName)

end Engine

end Parlance
