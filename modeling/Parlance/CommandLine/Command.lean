import Parlance.CommandLine.Arguments
import Parlance.Event

/-!
How commands begin and end, and the command that runs a file.
-/

namespace Parlance.CommandLine

/-! ### Beginnings and ends -/

/-- The world in which a command begins: time goes by the clock, and there are a screen and
packages. -/
def beginning (files : FileTree) (input : List Char) (clock : Float) : World :=
  Beginning.world
    { files, input, clock
      scheduler := some false
      hasScreen := true
      hasPackages := true }

/-- How a command ends, other than by an exit. -/
inductive Ending where
  | status (code : Nat)
  /-- A trial has failed in a way that ends the command. -/
  | brokenOff
deriving Repr, DecidableEq

/-- The exits that nothing holds up. -/
def isFinal : Exit → Bool
  | .stalled | .exhausted | .outside => true
  | _ => false

/-- An exit in words: the wording of a fault, or the text of what is given back. -/
def exitText : Exit → Run String
  | .fault cause => pure cause.message
  | .signal (.giveBack value) => Run.text value
  | _ => pure ""

/-! ### Running a file -/

/-- Tells of a fault and gives the exit code of a failure, unless debugging shows the fault
itself. -/
def failure (debug : Bool) (title : String) (cause : Fault) : Run Nat := do
  if debug then Run.fail cause
  else
    Run.diagnose (title ++ ": " ++ cause.message ++ "\n")
    return 1

/-- Reads a file and runs it. Gives the exit code; nothing if the program has come to its end and
time is to go on for ever. -/
def runFile (settings : Settings) (forever : Bool) (name : String) : Run (Option Nat) := do
  let path := Path.ofText name
  if !(← Run.fromFiles fun files => files.has path) then
    Run.diagnose ("Error: File not found: " ++ name ++ "\n")
    return some 1
  else
    let source ← Run.fromFiles fun files => files.readPath path
    match ← Run.attempt (Run.program source) with
    | .error (.fault (.malformed cause)) =>
      return some (← failure false "Syntax error" (.malformed cause))
    | .error (.fault cause) => return some (← failure settings.debug "Parse error" cause)
    | .error exit => throw exit
    | .ok program =>
      match ← Run.attempt ((Engine.standard settings).runProgram program) with
      | .ok _ => return if forever then none else some 0
      | .error (.signal _) => return some 0
      | .error (.fault cause) => return some (← failure settings.debug "Runtime error" cause)
      | .error exit => throw exit

/-- Lets time go on by the clock until the user stops it, after so many sleeps. -/
def goOn (settings : Settings) (sleeps : Nat) : Run Ending := do
  (Engine.standard settings).ticks sleeps
  Run.diagnose "\nStopped.\n"
  return .status 0

end Parlance.CommandLine
