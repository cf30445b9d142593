import Parlance.CommandLine
import Parlance.Session
import Std.Time.DateTime.Timestamp

/-!
The program. Files below the working directory and the installed packages are read at the beginning,
and those that a command has changed are written at its end. A conversation takes its lines as they
come, and a program that is to run for ever follows the clock.
-/

namespace Parlance.Main

/-! ### The world outside -/

def clock : IO Float := do
  let now ← Std.Time.Timestamp.now
  return Float.ofInt now.toNanosecondsSinceUnixEpoch.val / 1e9

/-- Reads a directory and everything below it. Names that begin with a point, and files that are not
text, are passed over. -/
partial def readBelow (entry : IO.FS.DirEntry) (location : List String) (tree : FileTree) :
    IO FileTree := do
  let mut grown := tree.withDirectory location
  for child in ← entry.path.readDir do
    let place := location ++ [child.fileName]
    if child.fileName.startsWith "." then continue
    if ← child.path.isDir then grown ← readBelow child place grown
    else
      match ← (IO.FS.readFile child.path).toBaseIO with
      | .ok text => grown := grown.put place (.file text)
      | .error _ => continue
  return grown

def readAt (location : List String) (tree : FileTree) : IO FileTree := do
  let parent := (Path.fromRoot location.dropLast).text
  let entry : IO.FS.DirEntry := ⟨parent, location.getLast?.getD ""⟩
  if ← entry.path.isDir then readBelow entry location tree else return tree

def readFiles : IO FileTree := do
  let work := (Path.ofText (← IO.currentDir).toString).parts
  let home := (Path.ofText ((← IO.getEnv "HOME").getD "/")).parts
  let tree := FileTree.initial work home ["language"]
  readAt (Package.store tree).parts (← readAt work tree)

def writeFiles (before after : FileTree) : IO Unit := do
  for (location, entry) in after.entries do
    match entry with
    | .file text =>
      if before.entry? location ≠ some entry then
        IO.FS.createDirAll (Path.fromRoot location.dropLast).text
        IO.FS.writeFile (Path.fromRoot location).text text
    | .directory => continue

partial def readInput (stream : IO.FS.Stream) : IO String := do
  let line ← stream.getLine
  if line.isEmpty then return "" else return line ++ (← readInput stream)

/-- Shows what has been written, and goes on without it. -/
def present (world : World) : IO World := do
  IO.print world.transcript
  IO.eprint (world.textOn .diagnostic)
  (← IO.getStdout).flush
  return { world with written := [] }

/-- Shows what has been written, keeps the files, and gives the exit code. -/
def finish (before : FileTree) (world : World) (code : UInt32) : IO UInt32 := do
  let shown ← present world
  writeFiles before shown.files
  return code

def tellExit (exit : Exit) : IO Unit :=
  match exit with
  | .fault cause => IO.eprintln cause.message
  | .stalled => IO.eprintln "The program cannot be read to its end."
  | .exhausted => IO.eprintln "The program goes too deep."
  | .outside => IO.eprintln "The program leaves the language."
  | .signal _ => return ()

/-! ### Commands -/

def usage : String :=
  "usage: gopa run FILE [--perm LIST] [--debug] [--forever]\n" ++
  "       gopa test\n" ++
  "       gopa repl [--perm LIST] [--debug]\n"

/-- Whether a program may ask for input: it asks itself, or uses another program. -/
def mayAsk (source : String) : Bool :=
  match tokens source with
  | .ok found => found.any (Parse.isAmong [.ask, .useWord])
  | .error _ => false

/-- The input of a command. Only a command that may ask for it waits for it. -/
def inputFor (files : FileTree) : CommandLine.Command → IO String
  | .run file _ _ _ =>
    match files.readPath (Path.ofText file) with
    | .ok source => do if mayAsk source then readInput (← IO.getStdin) else return ""
    | .error _ => return ""
  | _ => return ""

partial def follow (settings : Settings) (before : FileTree) (world : World) : IO UInt32 := do
  let shown ← present { world with clock := ← clock }
  IO.sleep 100
  match (Engine.standard settings).round shown with
  | .ok _ after =>
    writeFiles before after.files
    follow settings after.files after
  | .error exit after => do
    tellExit exit
    finish before after 1

/-- Takes lines as they come. -/
partial def talk (settings : Settings) (before : FileTree) (kept : List String) (world : World) :
    IO UInt32 := do
  let shown ← present (world.write .output (CommandLine.promptFor kept))
  let line ← (← IO.getStdin).getLine
  let given := if line.isEmpty then none else some (String.ofList (line.toList.filter (· ≠ '\n')))
  match CommandLine.take settings kept given shown with
  | .ok none after => finish before after 0
  | .ok (some others) after =>
    writeFiles before after.files
    talk settings after.files others after
  | .error exit after => do
    tellExit exit
    finish before after 1

def perform (command : CommandLine.Command) : IO UInt32 := do
  let files ← readFiles
  let input ← inputFor files command
  let start := { CommandLine.beginning files input.toList (← clock) with
    registry := (← IO.getEnv "REGISTRY_URL").getD "" }
  match command with
  | .repl permissions debug =>
    talk { permissions := Permissions.ofList permissions, debug } files []
      (start.write .output CommandLine.banner)
  | .run file permissions debug true =>
    let settings : Settings := { permissions := Permissions.ofList permissions, debug }
    match CommandLine.runFile settings true file start with
    | .ok (some code) after => finish files after code.toUInt32
    | .ok none after => follow settings files after
    | .error exit after => do
      tellExit exit
      finish files after 1
  | other =>
    match CommandLine.perform 0 other start with
    | .ok (.status code) after => finish files after code.toUInt32
    | .ok .brokenOff after => finish files after 1
    | .error exit after => do
      tellExit exit
      finish files after 1

end Parlance.Main

open Parlance in
def main (arguments : List String) : IO UInt32 := do
  match CommandLine.readArguments arguments with
  | .error refusal =>
    IO.eprint Main.usage
    return refusal.code.toUInt32
  | .ok none =>
    IO.print Main.usage
    return 1
  | .ok (some command) => Main.perform command
