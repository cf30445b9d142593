import Parlance.Evaluate.Engine
import Parlance.Foreign.Call

/-!
Calls. The functions that every program has come first. A call of a function that the program has
defined opens a scope inside the scope of the caller, gives the parameters their values, runs the
body and leaves the scope, whatever way the body ends. Any name without a meaning, in the arguments
or in the body, is reported as the function being unknown.
-/

namespace Parlance

/-! ### Scopes of calls -/

namespace Heap

/-- What the list or the dictionary at an address holds, keys and values alike. -/
def content (heap : Heap) (address : Nat) : List Value :=
  heap.items address ++ (heap.entries address).flatMap fun entry => [entry.1, entry.2]

/-- The types of values outside the language that can be handed down. -/
def handedTypes : List String := "type" :: "RegexFlag" :: "datetime.timezone" :: Value.functionTypes

/-- Whether a value is a library, or something else that cannot be handed down. -/
def isLibrary : Value → Bool
  | .library _ => true
  | .foreign type _ => !(handedTypes.contains type)
  | _ => false

def addresses (values : List Value) : List Nat :=
  values.filterMap fun value =>
    match value with
    | .list address => some address
    | .dictionary address => some address
    | _ => none

/-- Whether values hold a library at any depth. Every round but the last meets a new cell, so the
number of cells bounds the rounds. -/
def holdsLibrary (heap : Heap) : (rounds : Nat) → (seen : List Nat) → List Value → Bool
  | 0, _, values => values.any isLibrary
  | rounds + 1, seen, values =>
    values.any isLibrary ||
      let fresh := (addresses values).eraseDups.filter fun address => !seen.contains address
      !fresh.isEmpty && holdsLibrary heap rounds (fresh ++ seen) (fresh.flatMap heap.content)

end Heap

/-- The copy of a function that a call hands down. It has captured nothing. -/
def Routine.copy (function : Routine) (number : Nat) : Routine :=
  { function with
    block := { function.block with edition := number :: function.block.edition }
    captured := [] }

namespace World

/-- Whether the variables that a function of the innermost scope has captured hold a library. Such
a function cannot be handed down to a new scope. -/
def capturesLibrary (world : World) : Bool :=
  world.scope.functions.any fun function =>
    world.heap.holdsLibrary world.heap.next [] (function.2.captured.map Prod.snd)

/-- The scope that a call opens. It begins with copies of the functions of the caller, apart from
what they have captured. The call has a number, and so have the copies. -/
def callScope (world : World) (number : Nat) : Scope Value Routine :=
  { bindings := []
    functions := world.scope.child.functions.map fun function =>
      (function.1, function.2.copy number)
    call := some number }

def enter (world : World) (scope : Scope Value Routine) : World :=
  { world with scope, callers := world.scope :: world.callers }

/-- The world with the scope of the caller; at the outermost scope nothing is left. -/
def leave (world : World) : World :=
  match world.callers with
  | [] => world
  | caller :: others => { world with scope := caller, callers := others }

end World

namespace Run

/-- Runs inside a new scope and leaves it, whatever way the run ends. -/
def inScope {α : Type} (scope : Scope Value Routine) (action : Run α) : Run α := fun world =>
  match action (world.enter scope) with
  | .ok value after => .ok value after.leave
  | .error exit after => .error exit after.leave

/-- Takes the value that is given back as the result; without one the result is nothing. -/
def givenBack (body : Run Unit) : Run Value := fun world =>
  match body world with
  | .ok _ after => .ok .nothing after
  | .error (.signal (.giveBack value)) after => .ok value after
  | .error exit after => .error exit after

/-- Reports every name without a meaning as the function being unknown. -/
def namingFunction {α : Type} (name : String) (action : Run α) : Run α := fun world =>
  match action world with
  | .error (.fault (.unbound _)) after => .error (.fault (.report (.undefinedFunction name))) after
  | result => result

end Run

/-- Binds parameters from left to right; those without an argument stand for nothing. -/
def Scope.bind (scope : Scope Value Routine) : List String → List Value → Scope Value Routine
  | [], _ => scope
  | parameter :: rest, [] => Scope.bind (scope.set parameter .nothing) rest []
  | parameter :: rest, value :: values => Scope.bind (scope.set parameter value) rest values

/-! ### Calls by name -/

def Builtin.draws : Builtin → Bool
  | .random | .randomInt => true
  | _ => false

/-- The member of a library that a function stands for, whatever is set there. -/
def Builtin.member? : Builtin → Option (Library × String)
  | .random => some (.random, "random")
  | .randomInt => some (.random, "randint")
  | .floor => some (.math, "floor")
  | .ceil => some (.math, "ceil")
  | .sqrt => some (.math, "sqrt")
  | .sin => some (.math, "sin")
  | .cos => some (.math, "cos")
  | .tan => some (.math, "tan")
  | .pow => some (.math, "pow")
  | .log => some (.math, "log")
  | _ => none

namespace Engine

/-- Calls what a program has set in the place of a member of a library. -/
def callMember (value : Value) (values : List Value) : Run Value := do
  match Foreign.callName? value with
  | none => Run.fail (.wrongType (.notCallable value.typeName))
  | some function =>
    match value, values with
    | .foreign "method_descriptor" "list.pop", [.list address] =>
      let items ← Run.look fun world => world.heap.items address
      match items.getLast? with
      | some item =>
        Run.put address (.list items.dropLast)
        return item
      | none => throw .outside
    | _, _ =>
      Run.within (Foreign.describes function values)
      let draw ← Run.draw
      Run.withHeap fun heap => do
        let (result, after) ← Foreign.call heap draw function values
        return after.settle result

/-- Calls what the program has set in the place of the member that a function stands for; nothing
is called if it has set nothing there. -/
def callSet (builtin : Builtin) (values : List Value) : Run (Option Value) := do
  match ← Run.look fun world => builtin.member?.bind fun place =>
      world.heap.member? place.1 place.2 with
  | none => return none
  | some value =>
    Run.ofExcept (builtin.checkCount values.length)
    return some (← callMember value values)

/-- Calls a function that every program has. One that stands for a member of a library follows what
the program has set there. -/
def callBuiltin (engine : Engine) (builtin : Builtin) (arguments : List Expr) : Run Value := do
  let values ← engine.evaluateAll arguments
  match ← callSet builtin values with
  | some value => return value
  | none =>
    let draw ← if builtin.draws then Run.draw else pure 0
    Run.withHeap fun heap => builtin.apply heap draw values

def routine (name : String) : Run Routine := do
  match ← Run.look fun world => Scope.function? world.scopes name with
  | some routine => return routine
  | none => Run.fail (.unbound (.functionName name))

/-- The scope that a call opens, unless a function cannot be handed down. -/
def openScope : Handing → Run (Scope Value Routine)
  | .copies => do
    if ← Run.look World.capturesLibrary then
      Run.note .refusal
      Run.fail (.wrongType .uncopyable)
    else
      let number ← Run.newEdition
      Run.look fun world => world.callScope number
  | .nothing => do
    let number ← Run.newEdition
    return { Scope.empty with call := some number }

def callRoutine (engine : Engine) (name : String) (arguments : List Expr) : Run Value :=
  Run.namingFunction name do
    let function ← routine name
    let values ← engine.evaluateAll arguments
    let scope ← openScope engine.handing
    Run.inScope (scope.bind function.parameters values)
      (Run.givenBack (engine.runBlock function.block))

def call (engine : Engine) (name : String) (arguments : List Expr) : Run Value :=
  match Builtin.ofName? name with
  | some builtin => engine.callBuiltin builtin arguments
  | none => engine.callRoutine name arguments

/-! ### Calls outside the language -/

end Engine

/-- What a text outside the language can ask of the run that it is given to, as far as that is
described here. -/
inductive Inward where
  | debugging
  | granted (activity : Permission)
  /-- Whether the scheduler has a time of its own. -/
  | ownTime
  | line
  /-- Makes a name stand for nothing in the scope around the innermost one. -/
  | forget (name : String)
  /-- Runs what is no statement. -/
  | misfit
  | breakLoop
deriving Repr, DecidableEq

namespace Inward

def ofText? (text : String) : Option Inward :=
  match Text.parts '.' text with
  | ["self", "debug"] => some .debugging
  | ["self", "permissions", name] =>
    (Permission.all.find? fun activity => activity.grantingNames.getLast? = some name).map .granted
  | ["self", "scheduler", "virtual_time"] => some .ownTime
  | ["self", "input_stream", "readline()"] => some .line
  | ["self", "execute(None)"] => some .misfit
  | ["self", "runtime", "parent", call] =>
    match Text.parts '\'' call with
    | ["set(", name, ", None)"] => if name.toList.all Char.isAlpha then some (.forget name) else none
    | _ => none
  | _ => none

/-- What a call asks for, by its function and its arguments. -/
def ofCall? (function : String) (values : List Value) : Option Inward :=
  match function, values with
  | "builtins.eval", [.string text] => ofText? text
  | "builtins.exec", [.string "raise BreakSignal()"] => some .breakLoop
  | _, _ => none

/-- What a text outside the language does to the run, and the value that it gives. -/
def act (settings : Settings) : Inward → Run Value
  | .debugging => return .boolean settings.debug
  | .granted activity => return .boolean (settings.permissions.granted activity)
  | .ownTime => do
    match ← Run.look World.scheduler with
    | some scheduler => return .boolean scheduler.isVirtual
    | none => throw .outside
  | .line => modifyGet fun world =>
    let length := (world.input.takeWhile (· ≠ '\n')).length + 1
    (.string (String.ofList (world.input.take length)),
      { world with input := world.input.drop length })
  | .forget name => fun world =>
    match world.callers with
    | [] => .error .outside world
    | caller :: others =>
      .ok .nothing { world with callers := caller.set name .nothing :: others }
  | .misfit => do
    Run.reporting settings () (Run.report (.unknownStatement "NoneType"))
    return .nothing
  | .breakLoop =>
    if settings.debug then Run.raise .breakLoop else Run.report (.foreignFailed "")

/-- Notes that a call reaches into the run, and lets it. -/
def result (settings : Settings) (inward : Inward) : Run Value := do
  Run.note .inward
  inward.act settings

end Inward

namespace Engine

/-- Only four libraries can be used. -/
def allowedLibrary (name : String) : Run Library :=
  match Library.ofName? name with
  | some library => pure library
  | none => Run.report (.foreignLibrary name)

/-- The result of a call outside the language. Failures are reported, unless debugging shows
them as they are. -/
def foreignResult (settings : Settings) (name : String) (values : List Value) : Run Value := do
  Run.within (Foreign.describes name values)
  let draw ← Run.draw
  let attempt (heap : Heap) : Except Refusal (Value × Heap) := do
    let (value, after) ← Foreign.call heap draw name values
    Foreign.returned after value
  Run.withHeap fun heap =>
    match attempt heap with
    | .error cause =>
      .error (if settings.debug then cause else .foreignFailed cause.message)
    | result => result

/-- Follows a path from a library and calls what is at its end. -/
def foreignCall (settings : Settings) (engine : Engine) (path : String) (arguments : List Expr) :
    Run Value := do
  Run.check settings .foreign
  match Text.parts '.' path with
  | name :: first :: rest =>
    let library ← allowedLibrary name
    let target ← Run.fromDescribed fun heap =>
      Foreign.follow heap (.library library) (first :: rest)
    match Foreign.callName? target with
    | some function =>
      let values ← engine.evaluateAll arguments
      match Inward.ofCall? function values with
      | some inward => inward.result settings
      | none => foreignResult settings function values
    | none => Run.report (.notCallable path)
  | _ => Run.report .foreignPath

end Engine

end Parlance
