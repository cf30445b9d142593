import Parlance.Bundle
import Parlance.Event

/-!
Sessions: one world, in which operations follow one another. An operation that ends with an exit
leaves the world for the next one. What an operation has written, asked of the network and answered
as a server is handed over with its outcome, and the next one begins without it.
-/

namespace Parlance

/-! ### Beginnings -/

def FileTree.withPrograms (tree : FileTree) (location : List String)
    (programs : List (String × String)) : FileTree :=
  programs.foldl (fun grown program => grown.withFile location program.1 program.2) tree

/-- The files of the language: its library and its examples, the directory of packages, and the
directory in which a program works. -/
def FileTree.initial (work home language : List String) : FileTree :=
  let library := language ++ ["system", "stdlib"]
  let places : FileTree := { entries := [], work, home, library }
  let store := home ++ [".gopa_packages"]
  (((places.withDirectory work).withDirectory store).withPrograms library
    Bundle.programs).withPrograms (language ++ ["examples"]) Bundle.examples

/-! ### Operations -/

/-- What can be done between two looks at a session. -/
inductive Operation where
  | run (source : String)
  | execute (program : List Stmt)
  | evaluateSource (source : String)
  | evaluate (expression : Expr)
  | click (x y : Datum)
  | step (seconds : Datum) (count : Nat)
  | ticks (count : Nat)

/-- What a step has written, and when. -/
structure StepRecord where
  number : Nat
  time : Float
  text : String

/-- Notes a step before later ones, if it has written something. -/
def StepRecord.before (record : StepRecord) (later : List StepRecord) : List StepRecord :=
  if record.text.isEmpty then later else record :: later

/-- What is seen of an operation. -/
structure Outcome where
  /-- How the operation ended, if without a result. -/
  exit : Option Exit
  value : Option Value
  steps : List StepRecord
  output : String
  outgoing : List Outgoing
  answers : List Answer

namespace Operation

/-- The fault of asking for something that is not there. -/
def lacking {α : Type} (name : String) : Run α :=
  Run.fail (.attribute (.missing "'NoneType' object" name))

def load (datum : Datum) : Run Value := Run.withHeap fun heap => .ok (heap.load datum)

/-- Steps one after another. Each is noted if it has written something; a step that ends with an
exit is the last one and is not noted. -/
def stepAll (engine : Engine) (seconds : Value) :
    (count number : Nat) → World → List StepRecord × EStateM.Result Exit World (Option Value)
  | 0, _, world => ([], .ok none world)
  | count + 1, number, world =>
    match engine.step seconds world with
    | .error exit after => ([], .error exit after)
    | .ok _ after =>
      let later := stepAll engine seconds count (number + 1) { after with written := [] }
      (StepRecord.before ⟨number, Engine.schedulerTime after, after.transcript⟩ later.1, later.2)

def steps (engine : Engine) (seconds : Datum) (count : Nat) (world : World) :
    List StepRecord × EStateM.Result Exit World (Option Value) :=
  let loaded := world.heap.load seconds
  stepAll engine loaded.1 count 0 { world with heap := loaded.2 }

/-- What an operation other than steps does in the world. -/
def action (engine : Engine) : Operation → Run (Option Value)
  | .run source => do
    engine.runSource source
    return none
  | .execute program => do
    engine.runProgram program
    return none
  | .evaluateSource source => do return some (← engine.evaluate (← Run.expression source))
  | .evaluate expression => do return some (← engine.evaluate expression)
  | .click x y => do
    if (← Run.look World.screen).isNone then lacking "simulate_click"
    else engine.click (← load x) (← load y)
    return none
  | .ticks count => do
    if (← Run.look World.scheduler).isNone then lacking "start" else engine.ticks count
    return none
  | .step _ _ => return none

/-- Runs an operation. Only steps are noted. -/
def result (engine : Engine) (operation : Operation) (world : World) :
    List StepRecord × EStateM.Result Exit World (Option Value) :=
  match operation with
  | .step seconds count =>
    match world.scheduler with
    | none => ([], lacking "step" world)
    | some _ => steps engine seconds count world
  | other => ([], other.action engine world)

/-- The outcome of an operation, taken from the world after it, and the world for the next one. -/
def conclude (steps : List StepRecord) (exit : Option Exit) (value : Option Value)
    (world : World) : Outcome × World :=
  ({ exit, value, steps
     output := world.transcript
     outgoing := world.outgoing.reverse
     answers := world.answers.reverse },
   { world with written := [], outgoing := [], answers := [] })

def perform (settings : Settings) (world : World) (operation : Operation) : Outcome × World :=
  match operation.result (Engine.standard settings) world with
  | (steps, .ok value after) => conclude steps none value after
  | (steps, .error exit after) => conclude steps (some exit) none after

/-- Performs operations one after another, each in the world that the last one left. -/
def performAll (settings : Settings) (world : World) : List Operation → List Outcome × World
  | [] => ([], world)
  | operation :: rest =>
    let (outcome, after) := operation.perform settings world
    let (outcomes, final) := performAll settings after rest
    (outcome :: outcomes, final)

end Operation

end Parlance
