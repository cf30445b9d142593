import Parlance.CommandLine.Command

/-!
Trials: programs are run by themselves, with a time that is moved by hand, and what they write is
compared with what is expected. White space around the texts does not count.
-/

namespace Parlance.CommandLine

/-! ### Cases -/

def trialDirectory (files : FileTree) : List String := files.work ++ ["tests"]

def caseFiles (files : FileTree) : List String :=
  let names := (files.children (trialDirectory files ++ ["cases"])).filter fun name =>
    name.endsWith ".gopa"
  names.mergeSort fun first second => first ≤ second

/-- A file name without its ending. A name that begins with its only point has no ending. -/
def stem (name : String) : String :=
  match name.splitOn "." with
  | [] => name
  | [_] => name
  | ["", _] => name
  | parts => ".".intercalate parts.dropLast

def restrictedCases : List String := ["13_api_disabled_permission", "16_python_ffi_allowlist"]

def casePermissions (name : String) : Permissions :=
  if restrictedCases.contains name then Permissions.ofList ""
  else Permissions.ofList "network,files,graphics,sound,packages,python,server,timers,cron"

/-- The world of a case: a new one with the files, the input and the clock of another. -/
def caseWorld (world : World) : World :=
  let start : Beginning :=
    { files := world.files
      input := world.input
      clock := world.clock
      seed := world.seed
      scheduler := some true
      hasScreen := true
      hasPackages := true
      registry := world.registry }
  { start.world with sleeps := world.sleeps }

def stepTimes (engine : Engine) (seconds : Value) : Nat → Run Unit
  | 0 => return ()
  | count + 1 => do
    engine.step seconds
    stepTimes engine seconds count

/-- Runs a case: the program, and then a second of its time. -/
def caseRun (settings : Settings) (source : String) : Run Unit := do
  let engine := Engine.standard settings
  engine.runSource source
  stepTimes engine (.float 0.1) 10

/-- Runs something in a world of its own. What it wrote is handed over; its notices, and what it did
to the files and the input, stay. -/
def apart (action : Run Unit) : Run (Except Exit Unit × String) := fun world =>
  let settle (after : World) : World :=
    { world with
      files := after.files
      input := after.input
      clock := after.clock
      sleeps := after.sleeps
      seed := after.seed
      heap := after.heap
      written := (after.written.filter fun entry => entry.1 = .notice) ++ world.written }
  match action (caseWorld world) with
  | .ok _ after => .ok (.ok (), after.textOn .output) (settle after)
  | .error exit after => .ok (.error exit, after.textOn .output) (settle after)

/-! ### Verdicts -/

structure Verdict where
  passed : Bool
  text : String

/-- Judges what a case wrote. Of cases about chance only something has to be written. -/
def judge (name : String) (expected : Option String) (written : String) : Verdict :=
  match expected with
  | none => ⟨true, "PASS (no expected file)\n"⟩
  | some wanted =>
    if Text.occursIn "random".toList (Text.lowercase name).toList then
      if written.isEmpty then ⟨false, "FAIL (no output)\n"⟩ else ⟨true, "PASS\n"⟩
    else if Text.strip written = Text.strip wanted then ⟨true, "PASS\n"⟩
    else ⟨false, "FAIL\n  Expected:\n" ++ wanted ++ "\n  Got:\n" ++ written ++ "\n"⟩

def expectation (name : String) : Run (Option String) := do
  let path ← Run.look fun world =>
    Path.fromRoot (trialDirectory world.files ++ ["expected", name ++ ".txt"])
  if ← Run.fromFiles fun files => files.has path then
    return some (← Run.fromFiles fun files => files.readPath path)
  else return none

/-- Runs a case and judges it; nothing if it ends with anything but a program that cannot be
read. -/
def tryCase (name source : String) : Run (Option Verdict) := do
  let settings : Settings := { permissions := casePermissions name }
  let (result, written) ← apart (caseRun settings source)
  let judged : Run Verdict := match result with
    | .ok _ => do return judge name (← expectation name) written
    | .error exit => throw exit
  match ← Run.attempt judged with
  | .ok verdict => return some verdict
  | .error (.fault (.malformed cause)) =>
    return some ⟨false, "FAIL (syntax): " ++ cause.message ++ "\n"⟩
  | .error exit =>
    if isFinal exit then throw exit
    else
      Run.write ("FAIL: " ++ (← exitText exit) ++ "\n")
      return none

/-! ### All cases -/

def hundredths (seconds : Float) : String :=
  let count := ((Decimal.round? (seconds * 100)).getD 0).toNat
  let rest := count % 100
  Decimal.naturalText (count / 100) ++ "." ++ Decimal.naturalText (rest / 10)
    ++ Decimal.naturalText (rest % 10)

def summary (passed failed total : Nat) (seconds : Float) : String :=
  "\n" ++ String.ofList (List.replicate 50 '=') ++ "\nResults: " ++ Decimal.naturalText passed
    ++ " passed, " ++ Decimal.naturalText failed ++ " failed out of " ++ Decimal.naturalText total
    ++ " tests\nTime: " ++ hundredths seconds ++ "s\n"

def tryCases (start : Float) (total : Nat) :
    List String → (passed failed : Nat) → Run Ending
  | [], passed, failed => do
    Run.write (summary passed failed total ((← Run.look World.clock) - start))
    return .status (if failed = 0 then 0 else 1)
  | file :: rest, passed, failed => do
    let name := stem file
    Run.write ("[" ++ Decimal.naturalText (passed + failed + 1) ++ "/" ++ Decimal.naturalText total
      ++ "] " ++ name ++ "... ")
    let source ← Run.ofExcept (← Run.look fun world =>
      world.files.readPath (Path.fromRoot (trialDirectory world.files ++ ["cases", file])))
    match ← tryCase name source with
    | none => return .brokenOff
    | some verdict =>
      Run.write verdict.text
      if verdict.passed then tryCases start total rest (passed + 1) failed
      else tryCases start total rest passed (failed + 1)

/-- Runs all cases and says how many of them have gone well. -/
def trials : Run Ending := do
  let files ← Run.look World.files
  if (files.entry? (trialDirectory files ++ ["cases"])).isNone then
    Run.diagnose "Error: tests/cases directory not found\n"
    return .status 1
  else
    let cases := caseFiles files
    Run.write ("Running " ++ Decimal.naturalText cases.length ++ " tests...\n\n")
    tryCases (← Run.look World.clock) cases.length cases 0 0

end Parlance.CommandLine
