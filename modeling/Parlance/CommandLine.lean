import Parlance.CommandLine.Conversation
import Parlance.CommandLine.Trial

/-!
The command line: reading the arguments and performing the command that they give.
-/

namespace Parlance.CommandLine

/-- Performs a command. `sleeps` says how often the clock goes on before a user stops a program that
is to run for ever. -/
def perform (sleeps : Nat) : Command → Run Ending
  | .run file permissions debug forever => do
    let settings : Settings := { permissions := Permissions.ofList permissions, debug }
    match ← runFile settings forever file with
    | some code => return .status code
    | none => goOn settings sleeps
  | .test => trials
  | .repl permissions debug => conversation { permissions := Permissions.ofList permissions, debug }

end Parlance.CommandLine
