import Parlance.Evaluate.Engine

/-!
Requests to the network and the reading and writing of files. Failures are reported, unless
debugging shows them as they are.
-/

namespace Parlance

/-! ### Requests -/

/-- How long an answer is waited for, in seconds. -/
def requestTimeout : Nat := 10

def World.ask (world : World) (request : Outgoing) : World :=
  { world with outgoing := request :: world.outgoing }

namespace Run

/-- Makes a request and takes the next reply; after the last one replies are empty. -/
def exchange (request : Outgoing) : Run Reply := fun world =>
  match world.replies with
  | some (reply :: others) => .ok reply { world.ask request with replies := some others }
  | _ => .ok .empty (world.ask request)

def setFiles (files : FileTree) : Run Unit := modify fun world => { world with files }

/-- Fails, with a report unless debugging shows the fault itself. -/
def failOutside {α : Type} (settings : Settings) (wording : String → Report) (cause : Refusal) :
    Run α :=
  if settings.debug then refuse cause else report (wording cause.message)

end Run

namespace Engine

/-- Makes a request and gives what the answer holds. -/
def request (settings : Settings) (engine : Engine) (method address : String)
    (parameters : List (String × Expr)) : Run Value := do
  Run.check settings .network
  if (← Run.look World.replies).isNone then Run.report .noClient
  else
    let values ← engine.evaluateNamed parameters
    let data ← Run.look fun world =>
      Datum.dictionary (values.map fun entry => (.string entry.1, world.heap.datum entry.2))
    match ← Run.exchange ⟨method, address, data, requestTimeout⟩ with
    | .content datum => Run.withHeap fun heap => .ok (heap.load datum)
    | .empty => Run.newDictionary []
    | .noAnswer reason => Run.failOutside settings .requestFailed (.system reason)
    | .refused reason => Run.failOutside settings .requestFailed (.system reason)

/-! ### Files -/

def readFile (settings : Settings) (name : String) : Run Value := do
  Run.check settings .files
  match ← Run.look fun world => world.files.read name with
  | .ok text => return .string text
  | .error cause => Run.failOutside settings .readFailed cause

def writeFile (settings : Settings) (engine : Engine) (content : Expr) (name : String) :
    Run Unit := do
  Run.check settings .files
  let text ← Run.text (← engine.evaluate content)
  match ← Run.look fun world => world.files.write name text with
  | .ok files => Run.setFiles files
  | .error cause => Run.failOutside settings .writeFailed cause

end Engine

end Parlance
