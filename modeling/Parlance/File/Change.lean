import Parlance.File.Tree

/-!
Changes of files that take several steps. A step that fails ends the change, and what was done
before it stays done.

Copying a directory is the exception: a file or a directory inside it that cannot be copied is
noted, the rest is copied, and the notes are the fault in the end.
-/

namespace Parlance

/-- A change of files that can fail on the way. -/
abbrev FileChange := EStateM Refusal FileTree

namespace FileChange

/-- One step, which is done as a whole or not at all. -/
def step (action : FileTree → Except Refusal FileTree) : FileChange Unit := fun tree =>
  match action tree with
  | .ok after => .ok () after
  | .error cause => .error cause tree

def reading {α : Type} (view : FileTree → Except Refusal α) : FileChange α := fun tree =>
  match view tree with
  | .ok value => .ok value tree
  | .error cause => .error cause tree

/-! ### Directories -/

/-- Makes the directories that lead from a location along the names, as far as they are missing. -/
def makeAlong (path : Path) : List String → List String → FileChange Unit
  | _, [] => pure ()
  | location, name :: rest => do
    let next := Path.go location name
    if FileTree.isTooLong name then throw (.file (.nameTooLong path.text))
    let tree ← get
    match tree.entry? next with
    | some .directory => makeAlong path next rest
    | some (.file _) =>
      throw (.file (if rest.isEmpty then .alreadyThere path.text else .notDirectory path.text))
    | none =>
      modify fun tree => tree.put next .directory
      makeAlong path next rest

/-- Makes a directory and what is missing on the way to it. -/
def makeDirectories (path : Path) : FileChange Unit := do
  if path.parts.any FileTree.holdsNull then throw (.badValue .nullCharacter)
  makeAlong path ((← get).start path.absolute) path.parts

end FileChange

/-! ### Copying a file -/

/-- Where a copy goes: the location, and the path under which messages show it. -/
structure CopyTarget where
  location : List String
  path : Path

def CopyTarget.below (target : CopyTarget) (names : List String) : CopyTarget :=
  ⟨target.location ++ names, target.path.join ⟨false, names⟩⟩

/-- How messages show the two ends of a copy. A path that is given is shown as a path; what is met
on the way through a directory is shown as an entry of it, and its copy as a text. -/
inductive CopyManner where
  | given
  | met

namespace CopyManner

def shownPath (path : Path) : String := "PosixPath(" ++ Text.quoted path.text ++ ")"

def shownSource (manner : CopyManner) (source : List String) : String :=
  match manner with
  | .given => shownPath (Path.fromRoot source)
  | .met => "<DirEntry " ++ Text.quoted (source.getLast?.getD "") ++ ">"

def shownTarget (manner : CopyManner) (target : CopyTarget) : String :=
  match manner with
  | .given => shownPath target.path
  | .met => Text.quoted target.path.text

end CopyManner

namespace FileTree

/-- Copies a file with its text, to a place at which there is no directory. -/
def copyTo (tree : FileTree) (source : List String) (target : CopyTarget)
    (shownSource shownTarget text : String) : Except FileFault FileTree :=
  if target.location = source then .error (.sameFile shownSource shownTarget)
  else if tree.isDirectory target.location then .error (.isDirectory target.path.text)
  else .ok (tree.put target.location (.file text))

/-- Copies a file with its text: into the directory that is at the target, else to the target
itself. -/
def copyFile (tree : FileTree) (manner : CopyManner) (source : List String) (target : CopyTarget)
    (text : String) : Except FileFault FileTree :=
  let shownSource := manner.shownSource source
  if tree.isDirectory target.location then
    let inside := target.below source.getLast?.toList
    tree.copyTo source inside shownSource (Text.quoted inside.path.text) text
  else tree.copyTo source target shownSource (manner.shownTarget target) text

/-- Makes the copy of a directory, without what is in it. -/
def copyDirectory (tree : FileTree) (target : CopyTarget) : Except FileFault FileTree :=
  match tree.entry? target.location with
  | none => .ok (tree.put target.location .directory)
  | some .directory => .ok tree
  | some (.file _) => .error (.alreadyThere target.path.text)

/-- Copies what is met on the way through a directory, a directory without what is in it. -/
def copyEntry (tree : FileTree) (source : List String) (target : CopyTarget) :
    FileEntry → Except FileFault FileTree
  | .directory => tree.copyDirectory target
  | .file text => tree.copyFile .met source target text

/-- What is below a location, a directory before what is in it. -/
def below (tree : FileTree) (location : List String) : List (List String × FileEntry) :=
  tree.entries.filter fun entry => location.isPrefixOf entry.1 && entry.1 ≠ location

end FileTree

/-! ### Copying a directory -/

/-- How far the copying of a directory has come: the files, what could not be copied, and the
locations of the latter. What is below one of these is left out. -/
structure Copying where
  tree : FileTree
  failures : List CopyFailure
  skipped : List (List String)

def Copying.next (source : List String) (target : CopyTarget) (copying : Copying)
    (item : List String × FileEntry) : Copying :=
  if copying.skipped.any fun location => location.isPrefixOf item.1 then copying
  else
    let place := target.below (item.1.drop source.length)
    match copying.tree.copyEntry item.1 place item.2 with
    | .ok tree => { copying with tree }
    | .error cause =>
      { copying with
        failures := copying.failures ++ [⟨(Path.fromRoot item.1).text, place.path.text, cause⟩]
        skipped := item.1 :: copying.skipped }

namespace FileChange

def copyAll (source : List String) (target : CopyTarget) : FileChange Unit := do
  let items ← modifyGet fun tree => (tree.below source, tree)
  step fun tree => (tree.copyDirectory target).mapError Refusal.file
  let copying := items.foldl (Copying.next source target) ⟨← get, [], []⟩
  set copying.tree
  if !copying.failures.isEmpty then throw (.copy copying.failures)

/-- Copies what is at a location to another location. -/
def copy (source : List String) (target : CopyTarget) : FileChange Unit := do
  let tree ← get
  match tree.entry? source with
  | none => pure ()
  | some .directory => copyAll source target
  | some (.file text) =>
    step fun files => (files.copyFile .given source target text).mapError Refusal.file

end FileChange

end Parlance
