import Parlance.Evaluate.Engine

/-!
Servers. A server runs the block of the first route that has the method and the path of a request.
The name `request` stands for the request in the scope in which the server was started. A block
that does not come to its end makes the answer fail.
-/

namespace Parlance

namespace Incoming

def plainPath (incoming : Incoming) : String :=
  ((incoming.path.splitOn "?")[0]?).getD ""

/-- The name and the value of a part of the query; a part without an equal sign says nothing. -/
def queryPair? (part : String) : Option (Value × Value) :=
  match part.splitOn "=" with
  | name :: first :: rest => some (.string name, .string ("=".intercalate (first :: rest)))
  | _ => none

/-- What is asked for: the names and values between the first question mark and the next. -/
def query (incoming : Incoming) : List (Value × Value) :=
  let asked := ((incoming.path.splitOn "?")[1]?).getD ""
  Entries.ofList ((asked.splitOn "&").filterMap queryPair?)

end Incoming

namespace Run

def noteServer (port : Int) : Run Unit :=
  modify fun world => { world with servers := port :: world.servers }

def noteAnswer (reply : Answer) : Run Unit :=
  modify fun world => { world with answers := reply :: world.answers }

end Run

namespace Engine

/-- Makes `request` stand for a request. -/
def announce (incoming : Incoming) : Run Unit := do
  let query ← Run.newDictionary incoming.query
  let headers ← Run.newDictionary (Entries.ofList
    (incoming.headers.map fun header => (.string header.1, .string header.2)))
  let body ← Run.newDictionary []
  let request ← Run.newDictionary
    [(.string "path", .string incoming.plainPath), (.string "query", query),
     (.string "headers", headers), (.string "body", body)]
  Run.setVariable "request" request

/-- The answer that a block comes to. Faults and signals in it do not end the server. -/
def answered (body : Run Unit) : Run Answer := fun world =>
  match body world with
  | .ok _ after => .ok (.status 200) after
  | .error .exhausted after => .error .exhausted after
  | .error .outside after => .error .outside after
  | .error (.fault cause) after => .ok .failed (after.holdUp cause)
  | .error _ after => .ok .failed after

/-- Answers a request by the first route that fits it. -/
def answer (engine : Engine) (routes : List Route) (incoming : Incoming) : Run Unit := do
  let fits (route : Route) : Bool :=
    route.method = incoming.method && route.path = incoming.plainPath
  let reply ← match routes.find? fits with
    | none => pure (Answer.status 404)
    | some route => do
      announce incoming
      answered (engine.executeAll route.body)
  Run.noteAnswer reply

def answerAll (engine : Engine) (routes : List Route) : List Incoming → Run Unit
  | [] => return ()
  | incoming :: rest => do
    engine.answer routes incoming
    engine.answerAll routes rest

/-- Answers all requests, if the port can be one. -/
def serve (engine : Engine) (port : Int) (routes : List Route) : Run Unit := do
  if 0 ≤ port && port ≤ 65535 then
    Run.writeLine ("[server] started on port " ++ Decimal.integerText port)
    engine.answerAll routes (← Run.look World.incoming)
  else Run.writeLine "[server] error: bind(): port must be 0-65535."

def startServer (engine : Engine) (port : Int) (routes : List Route) : Run Unit := do
  Run.noteServer port
  engine.serve port routes

def showRoutes : List Route → Run Unit
  | [] => return ()
  | route :: rest => do
    Run.writeLine ("[server] registered " ++ route.method ++ " " ++ route.path)
    showRoutes rest

/-- Starts a server. Without a screen the routes are only shown. -/
def server (settings : Settings) (engine : Engine) (port : Expr) (routes : List Route) :
    Run Unit := do
  Run.check settings .server
  let number ← engine.whole port
  if ← Run.look fun world => world.screen.isSome then engine.startServer number routes
  else
    Run.writeLine ("[server] registered on port " ++ (← Run.text (.int number)))
    showRoutes routes

end Engine

end Parlance
