import Parlance.CommandLine.Command

/-!
Conversations: the user enters line after line, and each is run as soon as it can be read. Lines
that cannot be read yet are kept, and the next line is read together with them.
-/

namespace Parlance.CommandLine

def banner : String := "Gopa v0.2 REPL\nType 'exit' to quit\n\n"

def promptFor (kept : List String) : String := if kept.isEmpty then "gopa> " else "... "

def breakLine : String := "\x03"

/-- The next line of the input, without its end; nothing at the end of the input. -/
def nextLine : Run (Option String) := fun world =>
  if world.input.isEmpty then .ok none world
  else
    let line := world.input.takeWhile (· ≠ '\n')
    .ok (some (String.ofList line)) { world with input := world.input.drop (line.length + 1) }

/-- Runs lines together. They are kept if that ends with an error in a grammar. -/
def runLines (settings : Settings) (lines : List String) : Run (List String) := do
  let source := "\n".intercalate lines
  match ← Run.attempt ((Engine.standard settings).runSource source) with
  | .ok _ => return []
  | .error (.fault (.malformed _)) => return lines
  | .error exit =>
    if settings.debug || isFinal exit then throw exit
    else
      Run.diagnose ("Error: " ++ (← exitText exit) ++ "\n")
      return []

/-- Takes a line, or the end of the input, after the lines that are kept. Gives the lines that are
kept then; nothing if the conversation is over. -/
def take (settings : Settings) (kept : List String) : Option String → Run (Option (List String))
  | none => return none
  | some line => do
    if line = breakLine then
      Run.write "\n"
      return some []
    else if Text.strip line = "exit" then return none
    else return some (← runLines settings (kept ++ [line]))

/-- Takes lines until the conversation is over. Every round takes at least one character of the
input. -/
def converse (settings : Settings) : (rounds : Nat) → (kept : List String) → Run Ending
  | 0, _ => return .status 0
  | rounds + 1, kept => do
    Run.write (promptFor kept)
    match ← take settings kept (← nextLine) with
    | none => return .status 0
    | some others => converse settings rounds others

/-- Takes lines until the input or the conversation ends. -/
def conversation (settings : Settings) : Run Ending := do
  Run.write banner
  converse settings ((← Run.look World.input).length + 1) []

end Parlance.CommandLine
