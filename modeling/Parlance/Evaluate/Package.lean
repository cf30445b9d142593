import Parlance.Evaluate.Source
import Parlance.Package

/-!
Statements that install and use packages. A program that is loaded runs in the scope of the
statement that uses it.
-/

namespace Parlance

namespace Run

def checkPackages (settings : Settings) : Run Unit := do
  if (← look World.packages).isNone then report .noPackages
  else check settings .packages

/-- Changes files; where that fails, what was done before stays done. -/
def changingFiles {α : Type} (change : FileChange α) : Run α := fun world =>
  match change world.files with
  | .ok value files => .ok value { world with files }
  | .error cause files => .error (.fault cause.fault) { world with files }

def noteLoaded (name : String) (package : LoadedPackage) : Run Unit :=
  modify fun world =>
    { world with packages := world.packages.map fun table => table.insert name package }

end Run

namespace Engine

/-- Runs the text of a package, and notes it in the journal. -/
def runPackage (engine : Engine) (source : String) : Run Unit := do
  Run.note (.package source)
  engine.runSource source

def load (engine : Engine) (path : Path) : Run Unit := do
  let source ← Run.fromFiles fun files => files.readPath path
  engine.runPackage source

/-- Runs a program of the library, or the newest version of an installed package. -/
def usePackage (settings : Settings) (engine : Engine) (name : String) : Run Unit := do
  Run.checkPackages settings
  let bundled ← Run.look fun world => Package.bundled world.files name
  if ← Run.fromFiles fun files => files.has bundled then engine.load bundled
  else
    let found ← Run.fromFiles fun files => Package.find files settings.permissions name
    engine.load found.entry
    Run.noteLoaded name ⟨found.version, found.manifest⟩

/-- Installs a package and says so. -/
def install (settings : Settings) (name : String) : Run Unit := do
  Run.checkPackages settings
  let installed ← Run.changingFiles (Package.install (← Run.look World.registry) name)
  let text := "Installed " ++ installed.name ++ " v" ++ installed.version ++ "\n"
  modify fun world => world.write .notice text

end Engine

end Parlance
