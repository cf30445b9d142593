import Parlance.File.Change

/-!
Packages. A package is a directory with a manifest. Installing copies it below the directory of
packages, in a directory for its version inside a directory for its name. Using a name looks first
in the library that belongs to the language, and then for the version that comes last in the order
of names.
-/

namespace Parlance.Package

/-! ### Places -/

def manifestName : String := "gopa.toml"

def programEnding : String := ".gopa"

/-- The directory of packages, below the home directory. -/
def store (files : FileTree) : Path := Path.fromRoot (files.home ++ [".gopa_packages"])

/-- Where the library that belongs to the language would have a program of that name. -/
def bundled (files : FileTree) (name : String) : Path :=
  (Path.fromRoot files.library).joinText (name ++ programEnding)

/-! ### Manifests -/

def manifestAt (files : FileTree) (path : Path) : Except Refusal Manifest :=
  match files.readPath path with
  | .ok text => .ok (Manifest.parse text)
  | .error cause => .error (.package (.manifestUnreadable cause.message))

/-- The text of a key that names a part of a path; a list cannot. -/
def pathPart (manifest : Manifest) (key otherwise : String) : Except Refusal String :=
  match manifest.get? key with
  | none => .ok otherwise
  | some (.text value) => .ok value
  | some (.list _) => .error (.wrongType (.operands "/" "PosixPath" "list"))

/-! ### Installing -/

structure Installed where
  name : String
  version : String

/-- Copies the content of a package, which is its directory of sources or, without one, everything
but the manifest. -/
def copyContent (source : List String) (target : CopyTarget) : FileChange Unit := do
  let files ← get
  let sources := source ++ ["src"]
  match files.entry? sources with
  | some .directory => FileChange.copyAll sources (target.below ["src"])
  | some (.file _) => throw (.file (.notDirectory (Path.fromRoot sources).text))
  | none =>
    ((files.children source).filter (· ≠ manifestName)).forM fun name =>
      FileChange.copy (source ++ [name]) (target.below [name])

/-- The manifest of the package in a directory, which a path in a program leads to. -/
def readManifest (files : FileTree) (path : String) (source : Path) : Except Refusal Manifest := do
  let manifestPath := source.joinText manifestName
  if FileTree.holdsNull path then .error (.badValue .nullCharacter)
  else if !(← files.has source) then .error (.package (.pathNotFound path))
  else if !(← files.has manifestPath) then
    .error (.package (.manifestNotFound manifestPath.text))
  else manifestAt files manifestPath

/-- What is to be installed: the package in a directory, under a name and a version. -/
structure Order where
  source : Path
  manifest : Manifest
  name : String
  version : String
deriving DecidableEq

/-- What is to be installed from a directory, by its manifest. -/
def order (files : FileTree) (path : String) : Except Refusal Order := do
  let source := (Path.ofText path).resolve files.work
  let manifest ← readManifest files path source
  let name ← pathPart manifest "name" source.name
  let version ← pathPart manifest "version" "1.0.0"
  return ⟨source, manifest, name, version⟩

def Order.target (order : Order) (files : FileTree) : Path :=
  ((store files).joinText order.name).joinText order.version

/-- Copies a package to its target and writes its manifest anew. -/
def Order.fill (order : Order) (target : Path) : FileChange Unit := do
  FileChange.makeDirectories target
  let location ← FileChange.reading fun files => (files.locate target).mapError Refusal.file
  copyContent order.source.parts ⟨location, target⟩
  FileChange.step fun files =>
    files.writePath (target.joinText manifestName) order.manifest.written

def installLocal (path : String) : FileChange Installed := do
  let order ← FileChange.reading fun files => order files path
  order.fill (order.target (← get))
  return ⟨order.name, order.version⟩

/-- Whether a text names a directory rather than a package of the registry. -/
def isLocal (name : String) : Bool :=
  name.startsWith "./" || name.startsWith "../" || Path.isAbsolute name

/-- Installs a package. The registry cannot be asked yet. -/
def install (registry name : String) : FileChange Installed :=
  if isLocal name then installLocal name
  else if registry.isEmpty then throw (.package .noRegistry)
  else throw (.package (.registryUnsupported name))

/-! ### Using -/

/-- The version of a package that a program uses. -/
structure Found where
  version : String
  manifest : Manifest
  entry : Path

/-- The permissions that a manifest can ask for. -/
def requestable : List (String × Permission) :=
  [("network", .network), ("files", .files), ("graphics", .graphics), ("sound", .sound),
   ("python_ffi", .foreign)]

def requested (manifest : Manifest) : List String :=
  match manifest.get? "permissions" with
  | some (.list names) => names
  | _ => []

/-- Whether something is asked for that is not granted; unknown names are passed over. -/
def isRefused (permissions : Permissions) (name : String) : Bool :=
  match requestable.lookup name with
  | some permission => !permissions.granted permission
  | none => false

/-- The names of the versions in a directory, the last one first. -/
def versions (files : FileTree) (directory : Path) : Except Refusal (List String) := do
  let location ← (files.locate directory).mapError Refusal.file
  if files.isDirectory location then
    let names := (files.children location).filter fun name =>
      files.isDirectory (location ++ [name])
    return names.mergeSort fun first second => second ≤ first
  else .error (.file (.notDirectory directory.text))

/-- A version that is installed, before it is looked at more closely. -/
structure Candidate where
  version : String
  place : Path
  manifest : Manifest

/-- The version whose name comes last among those installed. -/
def newest (files : FileTree) (name : String) : Except Refusal Candidate := do
  let directory := (store files).joinText name
  if !(← files.has directory) then .error (.package (.notInstalled name))
  else
    match ← versions files directory with
    | [] => .error (.package (.noVersion name))
    | version :: _ =>
      let place := directory.joinText version
      let manifestPath := place.joinText manifestName
      if !(← files.has manifestPath) then .error (.package (.noManifest name))
      else return ⟨version, place, ← manifestAt files manifestPath⟩

/-- The candidate with the path of its entry, which must be there. -/
def Candidate.enter (files : FileTree) (candidate : Candidate) : Except Refusal Found := do
  let entry := candidate.place.joinText (← pathPart candidate.manifest "entry" "src/main.gopa")
  if ← files.has entry then return ⟨candidate.version, candidate.manifest, entry⟩
  else .error (.package (.entryNotFound entry.text))

/-- A package at its entry, unless its manifest asks for what is not granted. -/
def Candidate.accept (files : FileTree) (permissions : Permissions) (name : String)
    (candidate : Candidate) : Except Refusal Found :=
  match (requested candidate.manifest).find? (isRefused permissions) with
  | some wanted => .error (.package (.lacksPermission name wanted))
  | none => candidate.enter files

/-- The version that is used, with its entry, if its permissions are granted. -/
def find (files : FileTree) (permissions : Permissions) (name : String) : Except Refusal Found := do
  (← newest files name).accept files permissions name

end Parlance.Package
