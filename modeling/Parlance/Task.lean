import Parlance.Cron
import Parlance.Stmt
import Parlance.Table

/-!
Blocks that wait for their time: once after a delay, again and again, as named jobs, or by the
calendar. A scheduler with a time of its own is moved on by hand; another one follows the clock.
-/

namespace Parlance

/-! ### Blocks -/

/-- Which copy of a statement of a program a block belongs to: the number that the statement was
given when it was run, after the numbers of the copies that calls have made of it since, the last one
first. -/
abbrev Edition := List Nat

/-- A block that is kept for later, in the edition of the statement that keeps it. -/
structure Block where
  edition : Edition
  body : List Stmt

/-- A block to be run once. -/
structure Delayed where
  /-- Every registration has a number of its own. -/
  serial : Nat
  /-- The place of the statement that keeps the block. -/
  place : Nat
  time : Float
  block : Block

/-- Whether a block has no statement, apart from nodes that are absent. -/
def Block.isBlank (block : Block) : Bool := block.body.all Stmt.isAbsent

/-- Whether two registrations count as one and the same: they run at the same time, and they come
from the same statement in the same edition, or from blocks without a statement. -/
def Delayed.isLike (first second : Delayed) : Bool :=
  first.time == second.time &&
    (first.place = second.place && first.block.edition = second.block.edition
      || first.block.isBlank && second.block.isBlank
        && first.block.body.length = second.block.body.length)

/-- Whether a registration is dropped when a block has run, if it comes first. -/
def Delayed.drops (task other : Delayed) : Bool :=
  other.serial = task.serial || other.isLike task

/-- A block to be run again and again. -/
structure Recurring where
  interval : Float
  lastRun : Float
  block : Block

/-- A block to be run again and again, under a name. -/
structure Job where
  /-- Every registration has a number of its own. -/
  serial : Nat
  interval : Float
  lastRun : Float
  block : Block

/-- A block to be run by the calendar. -/
structure Scheduled where
  schedule : String
  fields : CronFields
  block : Block

/-- A block whose time has come. Blocks without a name go by their place among those that wait, and
those of the calendar are started in a minute of it. -/
inductive Due where
  | once (task : Delayed)
  | again (place : Nat) (task : Recurring)
  | job (name : String) (task : Job)
  | byCalendar (moment : Moment) (place : Nat) (task : Scheduled)

def Due.block : Due → Block
  | .once task => task.block
  | .again _ task => task.block
  | .job _ task => task.block
  | .byCalendar _ _ task => task.block

/-! ### Schedulers -/

/-- What waits for its time, and what has been registered and started so far. -/
structure Scheduler where
  isVirtual : Bool
  time : Float := 0
  /-- How many blocks have been numbered. -/
  serials : Nat := 0
  delayed : List Delayed := []
  recurring : List Recurring := []
  jobs : Table Job := []
  scheduled : List Scheduled := []
  /-- Every block that was registered to run once, latest first. -/
  history : List Delayed := []
  /-- Every block that was started, latest first. -/
  started : List Due := []

namespace Scheduler

/-- The time by which blocks are registered, given the time of the clock. -/
def now (scheduler : Scheduler) (clock : Float) : Float :=
  if scheduler.isVirtual then scheduler.time else clock

/-- Registers a block to be run once, at the end of those that wait. -/
def addDelayed (scheduler : Scheduler) (clock : Float) (place : Nat) (seconds : Float)
    (block : Block) : Scheduler :=
  let task : Delayed := ⟨scheduler.serials, place, scheduler.now clock + seconds, block⟩
  { scheduler with
    serials := scheduler.serials + 1
    delayed := scheduler.delayed ++ [task]
    history := task :: scheduler.history }

def addRecurring (scheduler : Scheduler) (clock seconds : Float) (block : Block) : Scheduler :=
  { scheduler with
    recurring := scheduler.recurring ++ [⟨seconds, scheduler.now clock, block⟩] }

/-- Registers a job, in place of a job of the same name. -/
def addJob (scheduler : Scheduler) (clock : Float) (name : String) (seconds : Float)
    (block : Block) : Scheduler :=
  { scheduler with
    serials := scheduler.serials + 1
    jobs := scheduler.jobs.insert name
      ⟨scheduler.serials, seconds, scheduler.now clock, block⟩ }

def stopJob (scheduler : Scheduler) (name : String) : Scheduler :=
  { scheduler with jobs := scheduler.jobs.erase name }

def addScheduled (scheduler : Scheduler) (schedule : String) (block : Block) :
    Except Refusal Scheduler := do
  let fields ← CronFields.parse schedule
  return { scheduler with scheduled := scheduler.scheduled ++ [⟨schedule, fields, block⟩] }

/-- Notes that a block is started. -/
def start (scheduler : Scheduler) (due : Due) : Scheduler :=
  { scheduler with started := due :: scheduler.started }

/-- Drops a delayed block that has run. Of several registrations that count as the same, the first
is dropped, whichever of them has run. -/
def dropDelayed (scheduler : Scheduler) (task : Delayed) : Scheduler :=
  { scheduler with delayed := scheduler.delayed.eraseP task.drops }

def markRecurring (scheduler : Scheduler) (place : Nat) (time : Float) : Scheduler :=
  { scheduler with
    recurring := scheduler.recurring.modify place fun task => { task with lastRun := time } }

/-- Notes when a job ran, unless it has been dropped or replaced. -/
def markJob (scheduler : Scheduler) (name : String) (serial : Nat) (time : Float) : Scheduler :=
  match scheduler.jobs.get? name with
  | some job =>
    if job.serial = serial then
      { scheduler with jobs := scheduler.jobs.insert name { job with lastRun := time } }
    else scheduler
  | none => scheduler

end Scheduler

end Parlance
