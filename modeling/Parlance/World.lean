import Parlance.File.Tree
import Parlance.Scope
import Parlance.Task
import Parlance.Value.Datum
import Parlance.Value.Operation
import Parlance.Value.Text

/-!
Everything that a running program can see and change, and what it means to run. A run ends with a
result or with an exit: a fault, a signal that leaves a loop or a function, reading that stalls,
steps that are used up, or something outside the language that is not described here. Whatever way
a run ends, the world that it leaves is there.

What a program is allowed to do, and whether faults are kept from being reported, is not part of
the world: it is settled before a run and never changes.
-/

namespace Parlance

/-! ### The world -/

/-- A function that a program has defined, with the variables that were known where it was
defined. -/
structure Routine where
  parameters : List String
  block : Block
  captured : Table Value

/-- Where written text goes: to the output of the program, to the user as a notice, or to the user
as a message about what went wrong. -/
inductive Channel where
  | output | notice | diagnostic
deriving Repr, DecidableEq

/-- What comes back from the network. -/
inductive Reply where
  | content (value : Datum)
  | empty
  | noAnswer (reason : String)
  /-- The answer says that the request failed. -/
  | refused (reason : String)

/-- A request that a program makes. -/
structure Outgoing where
  method : String
  address : String
  parameters : Datum
  timeout : Nat

/-- A request that a server gets. -/
structure Incoming where
  method : String
  path : String
  headers : List (String × String)

inductive Answer where
  | status (code : Nat)
  /-- The block of the route did not come to its end. -/
  | failed

/-- A block that is run when a canvas is clicked. -/
structure ClickHandler where
  canvas : Value
  block : Block

structure LoadedPackage where
  version : String
  manifest : Manifest

/-- What is noted of a run for its account; no program can look at it. -/
inductive Note where
  | package (source : String)
  /-- A call is refused, because a function cannot be handed down. -/
  | refusal
  /-- A fault is held up, and the run goes on. -/
  | heldUp (cause : Fault)
  /-- A call outside the language reaches into the run that makes it. -/
  | inward
deriving Repr

/-- What a run finds and leaves. -/
structure World where
  scope : Scope Value Routine := Scope.empty
  callers : List (Scope Value Routine) := []
  edition : Edition := []
  /-- How many statements of programs have been run, and copies of them made. -/
  editions : Nat := 0
  heap : Heap := Heap.empty
  /-- What has been written, latest first. -/
  written : List (Channel × String) := []
  input : List Char := []
  /-- Seconds since the beginning of 1970. -/
  clock : Float := 0
  /-- How much later it is when the clock is looked at again, unless it stands still. -/
  lag : Option Float := none
  /-- How often the program has slept. -/
  sleeps : Nat := 0
  /-- Where numbers by chance come from. -/
  seed : Nat := 0
  scheduler : Option Scheduler := none
  /-- The blocks to run at mouse clicks; nothing without a screen. -/
  screen : Option (List ClickHandler) := none
  /-- The packages that have been loaded; nothing if packages cannot be loaded. -/
  packages : Option (Table LoadedPackage) := none
  files : FileTree
  registry : String := ""
  /-- The replies of the network that are to come; nothing without a client. -/
  replies : Option (List Reply) := none
  /-- The requests made, latest first. -/
  outgoing : List Outgoing := []
  incoming : List Incoming := []
  /-- What servers have answered, latest first. -/
  answers : List Answer := []
  /-- The ports on which servers were to be started, latest first. -/
  servers : List Int := []
  /-- What is noted of the run, latest first. -/
  journal : List Note := []

/-- What a program finds when it begins to run: nothing is defined, nothing waits for its time or
for a click, and nothing has been written or asked for. -/
structure Beginning where
  files : FileTree
  input : List Char := []
  clock : Float := 0
  seed : Nat := 0
  /-- Whether the scheduler has a time of its own; nothing without a scheduler. -/
  scheduler : Option Bool := none
  hasScreen : Bool := false
  hasPackages : Bool := false
  registry : String := ""
  replies : Option (List Reply) := none
  incoming : List Incoming := []

def Beginning.world (start : Beginning) : World :=
  { files := start.files
    input := start.input
    clock := start.clock
    seed := start.seed
    scheduler := start.scheduler.map fun isVirtual => { isVirtual }
    screen := if start.hasScreen then some [] else none
    packages := if start.hasPackages then some [] else none
    registry := start.registry
    replies := start.replies
    incoming := start.incoming }

namespace World

/-- All scopes, innermost first. -/
def scopes (world : World) : List (Scope Value Routine) := world.scope :: world.callers

def write (world : World) (channel : Channel) (text : String) : World :=
  { world with written := (channel, text) :: world.written }

/-- Everything that has been written, apart from messages about what went wrong. -/
def transcript (world : World) : String :=
  String.join ((world.written.reverse.filter fun entry => entry.1 ≠ .diagnostic).map Prod.snd)

/-- All that has been written on a channel, in the order of writing. -/
def textOn (world : World) (channel : Channel) : String :=
  String.join ((world.written.reverse.filter fun entry => entry.1 = channel).map Prod.snd)

/-- The step of the generator that chances come from. -/
def nextSeed (seed : Nat) : Nat :=
  (seed * 6364136223846793005 + 1442695040888963407) % Nat.pow 2 64

def holdUp (world : World) (cause : Fault) : World :=
  { world with journal := .heldUp cause :: world.journal }

/-- The time when the clock is looked at again. -/
def reading (world : World) : Float :=
  match world.lag with
  | some lag => world.clock + lag
  | none => world.clock

def sleep (world : World) (seconds : Float) : World :=
  { world with clock := world.clock + seconds, sleeps := world.sleeps + 1 }

end World

/-! ### Runs -/

/-- What leaves a loop, a program or a function from inside. -/
inductive Signal where
  | breakLoop
  | continueLoop
  | stop
  | giveBack (value : Value)
deriving Repr, Inhabited

/-- How a run ends without a result. -/
inductive Exit where
  | fault (cause : Fault)
  | signal (signal : Signal)
  | stalled
  | exhausted
  /-- What would be done next is not described here. -/
  | outside

/-- What a call hands to the scope that it opens. -/
inductive Handing where
  | copies
  /-- Nothing, so that functions are found in the scopes around. -/
  | nothing
deriving Repr, DecidableEq

/-- What is settled before a run and never changes. -/
structure Settings where
  permissions : Permissions
  /-- Whether reports end the run as other faults do. -/
  debug : Bool := false
  handing : Handing := .copies

/-- What is done in a world, with a result or an exit; the world that it leaves is there in both
cases. -/
abbrev Run := EStateM Exit World

namespace Run

variable {α : Type}

def fail (cause : Fault) : Run α := throw (.fault cause)

def report (cause : Report) : Run α := fail (.report cause)

/-- Ends the run with the fault that a refused operation on values or files is. -/
def refuse (cause : Refusal) : Run α := fail cause.fault

def raise (signal : Signal) : Run α := throw (.signal signal)

/-- The result of an operation on values or files, whose refusal ends the run. -/
def ofExcept : Except Refusal α → Run α
  | .ok value => pure value
  | .error cause => refuse cause

/-- Goes on if what comes next is described. -/
def within (isDescribed : Bool) : Run Unit := if isDescribed then pure () else throw .outside

/-- Reads something off the world and changes nothing. -/
def look (view : World → α) : Run α := fun world => .ok (view world) world

def fromHeap (view : Heap → Except Refusal α) : Run α := do ofExcept (view (← look World.heap))

/-- Gives what is seen of the heap, if that is described. -/
def fromDescribed (view : Heap → Option (Except Refusal α)) : Run α := do
  match view (← look World.heap) with
  | some result => ofExcept result
  | none => throw .outside

def fromFiles (view : FileTree → Except Refusal α) : Run α := do ofExcept (view (← look World.files))

/-- An operation that may add cells; where it is refused, the heap stays as it was. -/
def withHeap (action : Heap → Except Refusal (α × Heap)) : Run α := fun world =>
  match action world.heap with
  | .ok (value, heap) => .ok value { world with heap }
  | .error cause => .error (.fault cause.fault) world

def changeScope (edit : Scope Value Routine → Scope Value Routine) : Run Unit :=
  modify fun world => { world with scope := edit world.scope }

def setVariable (name : String) (value : Value) : Run Unit :=
  changeScope fun scope => scope.set name value

def write (text : String) : Run Unit := modify fun world => world.write .output text

def writeLine (text : String) : Run Unit := write (text ++ "\n")

def newList (items : List Value) : Run Value := withHeap fun heap => .ok (heap.newList items)

def newDictionary (entries : List (Value × Value)) : Run Value :=
  withHeap fun heap => .ok (heap.newDictionary entries)

def put (address : Nat) (cell : Cell) : Run Unit :=
  modify fun world => { world with heap := world.heap.put address cell }

def isTrue (value : Value) : Run Bool := look fun world => world.heap.isTrue value

def text (value : Value) : Run String := fromHeap fun heap => heap.text value

/-- Goes on only where an activity is permitted. -/
def check (settings : Settings) (activity : Permission) : Run Unit :=
  if settings.permissions.allows activity then pure () else report (.denied activity)

/-- Writes a report to the output and goes on with a value, unless reports end the run. -/
def reporting (settings : Settings) (value : α) (action : Run α) : Run α := fun world =>
  match action world with
  | .error (.fault (.report cause)) after =>
    if settings.debug then .error (.fault (.report cause)) after
    else .ok value ((after.holdUp (.report cause)).write .output (cause.message ++ "\n"))
  | result => result

def diagnose (text : String) : Run Unit := modify fun world => world.write .diagnostic text

/-- The result of a run, or how it ended without one. -/
def attempt (action : Run α) : Run (Except Exit α) := fun world =>
  match action world with
  | .ok value after => .ok (.ok value) after
  | .error exit after => .ok (.error exit) after

def note (note : Note) : Run Unit :=
  modify fun world => { world with journal := note :: world.journal }

/-- A number that no statement and no copy has had yet. -/
def newEdition : Run Nat := modifyGet fun world =>
  (world.editions, { world with editions := world.editions + 1 })

/-- Runs in an edition and goes back to the one before, whatever way the run ends. -/
def inEdition (edition : Edition) (action : Run α) : Run α := fun world =>
  match action { world with edition } with
  | .ok value after => .ok value { after with edition := world.edition }
  | .error exit after => .error exit { after with edition := world.edition }

/-- A block for later, with the edition of the code that keeps it. -/
def keep (body : List Stmt) : Run Block := do return ⟨← look World.edition, body⟩

/-- Draws a number of 53 bits by chance. -/
def draw : Run Nat := fun world =>
  .ok (world.seed / Nat.pow 2 11) { world with seed := World.nextSeed world.seed }

end Run

end Parlance
