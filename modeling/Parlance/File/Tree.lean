import Parlance.Fault
import Parlance.File.Path
import Parlance.Manifest

/-!
Files and directories. A location is the list of names from the root. The tree also knows the
directory in which a program works, the home directory, and the directory of the library that
belongs to the language.
-/

namespace Parlance

inductive FileEntry where
  | file (text : String)
  | directory
deriving Repr, DecidableEq, Inhabited

/-- Files and directories by location. The root is always a directory. -/
structure FileTree where
  entries : List (List String × FileEntry)
  work : List String
  home : List String
  library : List String
deriving Inhabited

namespace FileTree

/-- No files at all, and where a program would work and look for them. -/
def bare : FileTree := ⟨[], ["work"], ["home"], ["library"]⟩

/-! ### Locations -/

/-- What is at a location. -/
def entry? (tree : FileTree) (location : List String) : Option FileEntry :=
  if location = [] then some .directory else tree.entries.lookup location

def isDirectory (tree : FileTree) (location : List String) : Bool :=
  tree.entry? location = some .directory

/-- Puts a file or a directory at a location, in the place of what is there. -/
def put (tree : FileTree) (location : List String) (entry : FileEntry) : FileTree :=
  if (tree.entries.lookup location).isSome then
    { tree with entries := tree.entries.map fun old =>
        if old.1 = location then (location, entry) else old }
  else { tree with entries := tree.entries ++ [(location, entry)] }

/-- The name of a location directly inside a directory. -/
def nameIn (directory location : List String) : Option String :=
  match location.getLast? with
  | some name => if location = directory ++ [name] then some name else none
  | none => none

theorem nameIn_eq_some {directory location : List String} {name : String} :
    nameIn directory location = some name ↔ location = directory ++ [name] := by
  constructor
  · intro found
    rw [nameIn] at found
    split at found
    · split at found
      · rename_i same
        rw [← Option.some.inj found]
        exact same
      · cases found
    · cases found
  · intro same
    rw [nameIn, same, List.getLast?_concat]
    exact if_pos rfl

def children (tree : FileTree) (location : List String) : List String :=
  tree.entries.filterMap fun entry => nameIn location entry.1

/-! ### Following paths -/

def isTooLong (name : String) : Bool := 255 < name.utf8ByteSize

/-- Follows names from a location. Every name but the last has to be a directory. -/
def follow (tree : FileTree) (fault : (String → FileFault) → FileFault) :
    List String → List String → Except FileFault (List String)
  | location, [] => .ok location
  | location, name :: rest =>
    match tree.entry? location with
    | none => .error (fault .notFound)
    | some (.file _) => .error (fault .notDirectory)
    | some .directory =>
      if name = "." then tree.follow fault location rest
      else if name = ".." then tree.follow fault location.dropLast rest
      else if isTooLong name then .error (fault .nameTooLong)
      else tree.follow fault (location ++ [name]) rest

/-- The names in a text that are to be followed. A slash at the end asks for a directory. -/
def names (text : String) : List String :=
  let parts := (Path.split text).filter (· ≠ "")
  if text.toList.getLast? = some '/' then parts ++ ["."] else parts

def start (tree : FileTree) (absolute : Bool) : List String := if absolute then [] else tree.work

/-- Where a path leads; a relative one begins where the program works. -/
def locate (tree : FileTree) (path : Path) : Except FileFault (List String) :=
  tree.follow (fun kind => kind path.text) (tree.start path.absolute) path.parts

/-- Whether there is something at a path. A name that is too long is refused. -/
def has (tree : FileTree) (path : Path) : Except Refusal Bool :=
  match tree.locate path with
  | .ok location => .ok (tree.entry? location).isSome
  | .error (.nameTooLong name) => .error (.file (.nameTooLong name))
  | .error _ => .ok false

def holdsNull (text : String) : Bool := text.toList.contains (Char.ofNat 0)

/-! ### Reading and writing -/

/-- The text of a file at a location. Line ends of every kind are read as one. -/
def readAt (tree : FileTree) (name : String) (location : List String) : Except Refusal String :=
  match tree.entry? location with
  | none => .error (.file (.notFound name))
  | some .directory => .error (.file (.isDirectory name))
  | some (.file text) => .ok (String.ofList (Text.universalNewlines text.toList))

/-- Where a name that a program gives leads to. -/
def locateName (tree : FileTree) (name : String) : Except Refusal (List String) :=
  if holdsNull name then .error (.badValue .nullCharacter)
  else if name.isEmpty then .error (.file (.notFound name))
  else
    match tree.follow (fun kind => kind name) (tree.start (Path.isAbsolute name)) (names name) with
    | .ok location => .ok location
    | .error cause => .error (.file cause)

def read (tree : FileTree) (name : String) : Except Refusal String := do
  tree.readAt name (← tree.locateName name)

def readPath (tree : FileTree) (path : Path) : Except Refusal String :=
  match tree.locate path with
  | .ok location => tree.readAt path.text location
  | .error cause => .error (.file cause)

def writeAt (tree : FileTree) (name : String) (location : List String) (text : String) :
    Except Refusal FileTree :=
  if tree.isDirectory location then .error (.file (.isDirectory name))
  else .ok (tree.put location (.file text))

def write (tree : FileTree) (name text : String) : Except Refusal FileTree := do
  tree.writeAt name (← tree.locateName name) text

def writePath (tree : FileTree) (path : Path) (text : String) : Except Refusal FileTree :=
  match tree.locate path with
  | .ok location => tree.writeAt path.text location text
  | .error cause => .error (.file cause)

/-! ### Building -/

/-- The tree with a directory and all the directories around it. -/
def withDirectory (tree : FileTree) (location : List String) : FileTree :=
  (List.range (location.length + 1)).foldl
    (fun grown length =>
      let part := location.take length
      if (grown.entry? part).isSome then grown else grown.put part .directory) tree

/-- Puts a file or, for a name that ends in a slash, a directory, below a location. -/
def withFile (tree : FileTree) (location : List String) (name text : String) : FileTree :=
  let full := location ++ (Path.ofText name).parts
  if name.toList.getLast? = some '/' then tree.withDirectory full
  else (tree.withDirectory full.dropLast).put full (.file text)

end FileTree

end Parlance
