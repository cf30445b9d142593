import Parlance.Text.Blank
import Parlance.Text.Lowercase

/-!
Permissions: what a program may do beyond computing. They are granted by a list of names. Timers
are also granted by graphics, and schedules also by timers.
-/

namespace Parlance

/-- What a program may be kept from doing. -/
inductive Permission where
  | network | files | graphics | sound | packages | foreign | server | timers | cron | state
deriving Repr, DecidableEq, Inhabited

namespace Permission

def all : List Permission :=
  [.network, .files, .graphics, .sound, .packages, .foreign, .server, .timers, .cron, .state]

def grantingNames : Permission → List String
  | .network => ["network"]
  | .files => ["files"]
  | .graphics => ["graphics"]
  | .sound => ["sound"]
  | .packages => ["packages"]
  | .foreign => ["python", "python_ffi"]
  | .server => ["server"]
  | .timers => ["timers"]
  | .cron => ["cron"]
  | .state => ["state"]

def refusal : Permission → String
  | .network => "Network access not allowed"
  | .files => "File access not allowed"
  | .graphics => "Graphics access not allowed"
  | .sound => "Sound access not allowed"
  | .packages => "Package access not allowed"
  | .foreign => "Python interop not allowed"
  | .server => "Server access not allowed"
  | .timers => "Timer access not allowed"
  | .cron => "Cron access not allowed"
  | .state => "State access not allowed"

end Permission

/-- What is granted. -/
structure Permissions where
  granted : Permission → Bool

namespace Permissions

/-- Without a list, only packages are granted. -/
def default : Permissions := ⟨fun permission => permission = .packages⟩

/-- The names in a list with commas, without blanks around them and in small letters. -/
def namesIn (list : String) : List String :=
  (list.splitOn ",").map fun name => Text.lowercase (Text.strip name)

/-- The permissions of a list with commas. Names that mean nothing are passed over; an empty list
is no list. -/
def ofList (list : String) : Permissions :=
  if list.isEmpty then default
  else ⟨fun permission => permission.grantingNames.any fun name => (namesIn list).contains name⟩

def enough : Permission → List Permission
  | .timers => [.timers, .graphics]
  | .cron => [.cron, .timers]
  | permission => [permission]

/-- Whether something is granted that is enough for an activity. -/
def allows (permissions : Permissions) (activity : Permission) : Bool :=
  (enough activity).any permissions.granted

end Permissions

end Parlance
