import Parlance.Evaluate

/-!
What happens between the runs of a program: time passes and blocks whose time has come are run, and
the mouse is clicked. A fault or a signal in such a block ends the block and nothing else. The passes
over what runs once and over the jobs go over what was there at their beginning, the other two also
over what is added meanwhile.
-/

namespace Parlance

namespace Run

/-- Runs to whatever end; only reading that stalls, steps that are used up and what is not described
go on. -/
def undisturbed (action : Run Unit) : Run Unit := fun world =>
  match action world with
  | .error (.fault cause) after => .ok () (after.holdUp cause)
  | .error (.signal _) after => .ok () after
  | result => result

/-- Changes the scheduler, if there is one. -/
def changeScheduler (change : Scheduler → Scheduler) : Run Unit :=
  modify fun world => { world with scheduler := world.scheduler.map change }

def lookScheduler {α : Type} (otherwise : α) (view : Scheduler → α) : Run α :=
  look fun world => (world.scheduler.map view).getD otherwise

end Run

namespace Engine

/-- Runs a block that was kept, to whatever end. -/
def runKept (engine : Engine) (block : Block) : Run Unit :=
  Run.undisturbed (engine.runBlock block)

/-- Notes a start, and runs the block. -/
def start (engine : Engine) (due : Due) : Run Unit := do
  Run.changeScheduler fun scheduler => scheduler.start due
  engine.runKept due.block

/-! ### Passes -/

/-- Runs and drops a block if its time has come. `time` reads the time. -/
def examine (engine : Engine) (time : World → Float) (task : Delayed) : Run Unit := do
  if task.time ≤ (← Run.look time) then
    engine.start (.once task)
    Run.changeScheduler fun scheduler => scheduler.dropDelayed task

/-- Runs and drops those of some blocks whose time has come. -/
def runDelayed (engine : Engine) (time : World → Float) : List Delayed → Run Unit
  | [] => return ()
  | task :: rest => do
    engine.examine time task
    engine.runDelayed time rest

/-- Runs and drops those blocks whose time has come that are there now. -/
def passDelayed (engine : Engine) (time : World → Float) : Run Unit := do
  engine.runDelayed time (← Run.lookScheduler [] Scheduler.delayed)

/-- Runs the blocks that are due again, from a place on. -/
def runRecurring (engine : Engine) (time : World → Float) : (rounds place : Nat) → Run Unit
  | 0, _ => throw .exhausted
  | rounds + 1, place => do
    match ← Run.lookScheduler none fun scheduler => scheduler.recurring[place]? with
    | none => return ()
    | some task =>
      if task.lastRun + task.interval ≤ (← Run.look time) then
        engine.start (.again place task)
        let now ← Run.look time
        Run.changeScheduler fun scheduler => scheduler.markRecurring place now
      engine.runRecurring time rounds (place + 1)

/-- Runs the jobs that are due among some, and sets when each of them ran. -/
def runJobs (engine : Engine) (time : World → Float) : List (String × Job) → Run Unit
  | [] => return ()
  | (name, job) :: rest => do
    if job.lastRun + job.interval ≤ (← Run.look time) then
      engine.start (.job name job)
      let now ← Run.look time
      Run.changeScheduler fun scheduler => scheduler.markJob name job.serial now
    engine.runJobs time rest

/-- Runs the blocks whose schedule a moment matches, from a place on. -/
def runScheduled (engine : Engine) (moment : Moment) : (rounds place : Nat) → Run Unit
  | 0, _ => throw .exhausted
  | rounds + 1, place => do
    match ← Run.lookScheduler none fun scheduler => scheduler.scheduled[place]? with
    | none => return ()
    | some task =>
      if task.fields.holds moment then engine.start (.byCalendar moment place task)
      engine.runScheduled moment rounds (place + 1)

/-- Runs the blocks whose time has come that are kept when they have run. -/
def runLasting (engine : Engine) (time calendar : World → Float) : Run Unit := do
  engine.runRecurring time engine.rounds 0
  engine.runJobs time (← Run.lookScheduler [] Scheduler.jobs)
  let moment ← Run.ofExcept (Moment.ofTime (← Run.look calendar))
  engine.runScheduled moment engine.rounds 0

/-- Runs everything whose time has come. `time` reads the time for the first three passes and
`calendar` the time for the last. -/
def runDue (engine : Engine) (time calendar : World → Float) : Run Unit := do
  engine.passDelayed time
  engine.runLasting time calendar

/-! ### Time that is moved by hand -/

def schedulerTime (world : World) : Float := (world.scheduler.map Scheduler.time).getD 0

/-- The time some seconds after another one. -/
def later (time : Float) (seconds : Value) : Except Refusal Float :=
  match seconds.number? with
  | some x => x.toFloat.map fun span => time + span
  | none => .error (.wrongType (.operands "+=" "float" seconds.typeName))

/-- Moves the time of a scheduler that has one of its own, and runs what is due. -/
def step (engine : Engine) (seconds : Value) : Run Unit := do
  if ← Run.lookScheduler false Scheduler.isVirtual then
    let time ← Run.ofExcept (later (← Run.look schedulerTime) seconds)
    Run.changeScheduler fun scheduler => { scheduler with time }
    engine.runDue schedulerTime schedulerTime

/-! ### Time by the clock -/

/-- How long the clock is left alone between two rounds, in seconds. -/
def roundPause : Float := 0.1

/-- One round by the clock. A scheduler with a time of its own only waits. -/
def round (engine : Engine) : Run Unit := do
  if !(← Run.lookScheduler true Scheduler.isVirtual) then
    let now ← Run.look World.clock
    engine.runDue (fun _ => now) World.reading
  modify fun world => world.sleep roundPause

/-- Rounds by the clock, until the program has slept so often. -/
def roundsUntil (engine : Engine) (sleeps : Nat) : (rounds : Nat) → Run Unit
  | 0 => throw .exhausted
  | rounds + 1 => do
    if sleeps ≤ (← Run.look World.sleeps) then return ()
    else
      engine.round
      engine.roundsUntil sleeps rounds

/-- Rounds by the clock, for so many sleeps. -/
def ticks (engine : Engine) (count : Nat) : Run Unit := do
  engine.roundsUntil ((← Run.look World.sleeps) + count) engine.rounds

/-! ### Mouse clicks -/

/-- Runs the blocks for a click, from a place on. For each of them `mouse` stands for the place of
the click. -/
def runClicks (engine : Engine) (x y : Value) : (rounds place : Nat) → Run Unit
  | 0, _ => throw .exhausted
  | rounds + 1, place => do
    match ← Run.look fun world => (world.screen.getD [])[place]? with
    | none => return ()
    | some handler =>
      Run.setVariable "mouse" (← Run.newDictionary [(.string "x", x), (.string "y", y)])
      engine.runKept handler.block
      engine.runClicks x y rounds (place + 1)

def click (engine : Engine) (x y : Value) : Run Unit := engine.runClicks x y engine.rounds 0

end Engine

end Parlance
