import Parlance.Text.Piece

/-!
Paths as they are written: parts between slashes, from the root or from the directory in which a
program works. Parts that are empty or a single dot are dropped; two dots are kept, because what
they mean depends on the files.
-/

namespace Parlance

/-- A path as it is written, without empty parts and dots. -/
structure Path where
  absolute : Bool
  parts : List String
deriving Repr, DecidableEq, Inhabited

namespace Path

def isAbsolute (text : String) : Bool := text.toList.head? = some '/'

def split (text : String) : List String := (Text.splitAt '/' text.toList).map String.ofList

def ofText (text : String) : Path :=
  ⟨isAbsolute text, (split text).filter fun part => part ≠ "" && part ≠ "."⟩

def fromRoot (parts : List String) : Path := ⟨true, parts⟩

def text (path : Path) : String :=
  if path.absolute then "/" ++ "/".intercalate path.parts
  else if path.parts.isEmpty then "."
  else "/".intercalate path.parts

/-- The second path seen from the first. A path from the root stands by itself. -/
def join (path other : Path) : Path :=
  if other.absolute then other else ⟨path.absolute, path.parts ++ other.parts⟩

def joinText (path : Path) (other : String) : Path := path.join (ofText other)

def name (path : Path) : String := path.parts.getLast?.getD ""

/-- One part further. Two dots go back by one part. -/
def go (settled : List String) (part : String) : List String :=
  if part = ".." then settled.dropLast else settled ++ [part]

/-- The parts with every `..` carried out. -/
def settle (parts : List String) : List String := parts.foldl go []

/-- The path from the root, seen from the parts of a directory, without two dots. -/
def resolve (path : Path) (directory : List String) : Path :=
  fromRoot (settle (if path.absolute then path.parts else directory ++ path.parts))

end Path

end Parlance
