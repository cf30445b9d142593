import Parlance.Evaluate.Engine

/-!
Waiting, and blocks that are kept for later. Without a scheduler the blocks are only told, and
waiting lets the clock go on.
-/

namespace Parlance

namespace Run

/-- Changes the scheduler by the clock, or tells what would have been kept. -/
def schedule (change : Float → Scheduler → Scheduler) (told : String) : Run Unit := fun world =>
  match world.scheduler with
  | some scheduler => .ok () { world with scheduler := some (change world.reading scheduler) }
  | none => writeLine told world

/-- Keeps a block to run by the calendar, or tells what would have been kept. -/
def scheduleByCalendar (schedule : String) (block : Block) : Run Unit := fun world =>
  match world.scheduler with
  | none => writeLine ("[cron] registered '" ++ schedule ++ "'") world
  | some scheduler =>
    match scheduler.addScheduled schedule block with
    | .ok changed => .ok () { world with scheduler := some changed }
    | .error cause => .error (.fault cause.fault) world

/-- Lets time pass: the time of a scheduler that has one of its own, or the time of the clock. -/
def passTime (span : Float) : Run Unit := modify fun world =>
  match world.scheduler with
  | some scheduler =>
    if scheduler.isVirtual then
      { world with scheduler := some { scheduler with time := scheduler.time + span } }
    else world.sleep span
  | none => world.sleep span

end Run

namespace Engine

/-- Lets time pass. -/
def wait (settings : Settings) (engine : Engine) (seconds : Expr) : Run Unit := do
  Run.check settings .timers
  Run.passTime (← engine.real seconds)

/-- Keeps a block to be run once, some seconds from now. -/
def after (settings : Settings) (engine : Engine) (place : Nat) (seconds : Expr)
    (body : List Stmt) : Run Unit := do
  Run.check settings .timers
  let span ← engine.real seconds
  let block ← Run.keep body
  Run.schedule (fun clock scheduler => scheduler.addDelayed clock place span block)
    ("[timer] registered after " ++ Decimal.floatText span ++ " seconds")

/-- Keeps a block to be run again and again. -/
def every (settings : Settings) (engine : Engine) (seconds : Expr) (body : List Stmt) :
    Run Unit := do
  Run.check settings .timers
  let span ← engine.real seconds
  let block ← Run.keep body
  Run.schedule (fun clock scheduler => scheduler.addRecurring clock span block)
    ("[timer] registered every " ++ Decimal.floatText span ++ " seconds")

/-- Keeps a block to be run again and again under a name, in the place of one that has it. -/
def job (settings : Settings) (engine : Engine) (name : String) (seconds : Expr)
    (body : List Stmt) : Run Unit := do
  Run.check settings .timers
  let span ← engine.real seconds
  let block ← Run.keep body
  Run.schedule (fun clock scheduler => scheduler.addJob clock name span block)
    ("[job] registered '" ++ name ++ "' every " ++ Decimal.floatText span ++ " seconds")

def stopJob (name : String) : Run Unit :=
  Run.schedule (fun _ scheduler => scheduler.stopJob name) ("[job] stop '" ++ name ++ "'")

def cron (settings : Settings) (schedule : String) (body : List Stmt) : Run Unit := do
  Run.check settings .cron
  Run.scheduleByCalendar schedule (← Run.keep body)

end Engine

end Parlance
