import Parlance.Proofs.Keeping
import Parlance.Session

/-!
What happens between the runs of a program respects congruences, too, if they also hold for the
ways in which events hold up faults, look at the time and tidy the scheduler.

The passes over what is due ask for less than programs do: for the runs of blocks, for looks at what
waits and for notes of when it ran.
-/

namespace Parlance

open Scheduler Engine Run

/-- Whether a change tidies the scheduler: it brings in no block that was not there, and it leaves
the calendar alone. -/
def Scheduler.IsTidying (change : Scheduler → Scheduler) : Prop :=
  ∀ scheduler, (scheduler.delayed = [] → (change scheduler).delayed = []) ∧
    (scheduler.recurring = [] → (change scheduler).recurring = []) ∧
    (scheduler.jobs = [] → (change scheduler).jobs = []) ∧
    (change scheduler).scheduled = scheduler.scheduled

namespace Scheduler

theorem isTidying_dropDelayed (task : Delayed) :
    IsTidying fun scheduler => scheduler.dropDelayed task := by
  refine fun scheduler => ⟨fun empty => ?_, id, id, rfl⟩
  show scheduler.delayed.eraseP _ = []
  rw [empty, List.eraseP_nil]

theorem isTidying_markRecurring (place : Nat) (time : Float) :
    IsTidying fun scheduler => scheduler.markRecurring place time := by
  refine fun scheduler => ⟨id, fun empty => ?_, id, rfl⟩
  show scheduler.recurring.modify place _ = []
  rw [empty, List.modify_nil]

theorem isTidying_markJob (name : String) (serial : Nat) (time : Float) :
    IsTidying fun scheduler => scheduler.markJob name serial time := by
  intro scheduler
  dsimp only
  rw [markJob]
  split
  · rename_i job present
    split
    · refine ⟨id, id, fun empty => ?_, rfl⟩
      rw [empty] at present
      cases present
    · exact ⟨id, id, id, rfl⟩
  · exact ⟨id, id, id, rfl⟩

theorem isTidying_start (due : Due) : IsTidying fun scheduler => scheduler.start due :=
  fun _ => ⟨id, id, id, rfl⟩

theorem isTidying_time (time : Float) : IsTidying fun scheduler => { scheduler with time } :=
  fun _ => ⟨id, id, id, rfl⟩

end Scheduler

/-! ### Blocks that are kept -/

/-- Whether something is known of all blocks that wait for their time. -/
structure Scheduler.AllBodies (known : List Stmt → Prop) (scheduler : Scheduler) : Prop where
  delayed : ∀ task ∈ scheduler.delayed, known task.block.body
  recurring : ∀ task ∈ scheduler.recurring, known task.block.body
  jobs : ∀ entry ∈ scheduler.jobs, known entry.2.block.body
  scheduled : ∀ task ∈ scheduler.scheduled, known task.block.body

namespace Scheduler.AllBodies

variable {known : List Stmt → Prop} {scheduler : Scheduler} {block : Block}
  (held : scheduler.AllBodies known)

include held

theorem add (registration : Registration)
    (fits : known block.body) (clock : Float) :
    (registration.add block clock scheduler).AllBodies known := by
  cases registration with
  | once place span =>
    refine { held with delayed := ?_ }
    exact List.forall_mem_append.mpr ⟨held.delayed, List.forall_mem_singleton.mpr fits⟩
  | again span =>
    refine { held with recurring := ?_ }
    exact List.forall_mem_append.mpr ⟨held.recurring, List.forall_mem_singleton.mpr fits⟩
  | job name span =>
    refine { held with jobs := fun entry listed => ?_ }
    rcases Table.mem_insert listed with old | new
    · exact held.jobs entry old
    · rw [new]
      exact fits

theorem addScheduled {schedule : String} (fits : known block.body) {changed : Scheduler}
    (added : scheduler.addScheduled schedule block = .ok changed) : changed.AllBodies known := by
  rw [Scheduler.addScheduled] at added
  generalize CronFields.parse schedule = result at added ⊢
  cases result with
  | error cause => cases added
  | ok fields =>
    cases added
    refine { held with scheduled := ?_ }
    exact List.forall_mem_append.mpr ⟨held.scheduled, List.forall_mem_singleton.mpr fits⟩

theorem dropDelayed (task : Delayed) : (scheduler.dropDelayed task).AllBodies known :=
  { held with delayed := fun other member =>
      held.delayed other (List.mem_of_mem_eraseP member) }

theorem markRecurring (place : Nat) (time : Float) :
    (scheduler.markRecurring place time).AllBodies known := by
  refine { held with recurring := fun task member => ?_ }
  obtain ⟨index, found⟩ := List.mem_iff_getElem?.mp member
  rw [Scheduler.markRecurring, List.getElem?_modify] at found
  obtain ⟨old, there, rfl⟩ := Option.map_eq_some_iff.mp found
  split <;> exact held.recurring old (List.mem_of_getElem? there)

theorem markJob (name : String) (serial : Nat) (time : Float) :
    (scheduler.markJob name serial time).AllBodies known := by
  rw [Scheduler.markJob]
  split
  · rename_i job present
    split
    · refine { held with jobs := fun entry listed => ?_ }
      rcases Table.mem_insert listed with old | new
      · exact held.jobs entry old
      · rw [new]
        exact held.jobs (name, job) (Table.mem_of_get? present)
    · exact held
  · exact held

end Scheduler.AllBodies

variable {kept : World → World → Prop} {settings : Settings} {allowed : Exit → World → Prop}
  {world : World} {scheduler : Scheduler}

theorem handles_undisturbed : Handles True none undisturbed where
  ok _ := ⟨(), fun ended => by rw [undisturbed, ended]⟩
  error exit := by
    refine ⟨undisturbed (throw exit), ?_, fun ended => by rw [undisturbed, ended]; rfl⟩
    cases exit with
    | fault _ => exact .heldUp trivial
    | signal _ => exact .caught
    | _ => exact .passed

theorem Preserved.keeps_runKept (preserved : Preserved kept settings) (depth : Nat)
    (block : Block) : ((ofDepth settings depth).runKept block).Keeps kept :=
  have law := preserved.congruence
  preserved.keeps_handled handles_undisturbed (law.runBlock (law.ofDepth depth) block)

theorem Run.keeps_changeScheduler {kept : Scheduler → Scheduler → Prop}
    {change : Scheduler → Scheduler} (changed : ∀ scheduler, kept scheduler (change scheduler)) :
    (changeScheduler change).Keeps (World.SchedulerKept kept) := by
  intro world
  show Option.Rel kept world.scheduler (world.scheduler.map change)
  cases world.scheduler with
  | none => exact .none
  | some scheduler => exact .some (changed scheduler)

/-! ### Passes -/

/-- The registration, if a block runs once. -/
def Due.once? : Due → Option Delayed
  | .once task => some task
  | _ => none

/-- What makes a relation between runs one that the passes over what waits for a span of time
respect, where two engines run the blocks that are known. -/
structure SpanRules (related : RunRelation) (known : List Stmt → Prop) (one other : Engine) :
    Prop where
  rounds : RoundsRelated related one.rounds other.rounds
  pure {α : Type} (value : α) : related.Refl (Pure.pure value)
  exhausted {α : Type} : related.Refl (MonadExcept.throw Exit.exhausted : Run α)
  bind {α β : Type} {first second : Run α} {next later : α → Run β} :
    related α first second → (∀ value, related β (next value) (later value)) →
      related β (first >>= next) (second >>= later)
  startAgain (place : Nat) (task : Recurring) : known task.block.body →
    related Unit (one.start (.again place task)) (other.start (.again place task))
  startJob (name : String) (job : Job) : known job.block.body →
    related Unit (one.start (.job name job)) (other.start (.job name job))
  /-- What waits is seen without the time, and its blocks are known. -/
  waiting {α β : Type} (given : α → Prop) (otherwise : α) (view : Scheduler → α)
      {next later : α → Run β} :
    ((∀ body, known body) → ∀ value, given value) → given otherwise →
      (∀ scheduler : Scheduler, scheduler.AllBodies known → given (view scheduler)) →
      (∀ scheduler isVirtual time, view { scheduler with isVirtual, time } = view scheduler) →
      (∀ value, given value → related β (next value) (later value)) →
        related β (lookScheduler otherwise view >>= next) (lookScheduler otherwise view >>= later)
  markRecurring (place : Nat) (time : Float) :
    related.Refl (changeScheduler fun scheduler => scheduler.markRecurring place time)
  markJob (name : String) (serial : Nat) (time : Float) :
    related.Refl (changeScheduler fun scheduler => scheduler.markJob name serial time)

/-- What makes a relation between runs one that all passes over what is due respect. -/
structure PassRules (related : RunRelation) (known : List Stmt → Prop) (one other : Engine) : Prop
    extends SpanRules related known one other where
  /-- Blocks that run once have a pass of their own. -/
  start (due : Due) : due.once? = none → known due.block.body →
    related Unit (one.start due) (other.start due)
  startAgain place task := start (.again place task) rfl
  startJob name job := start (.job name job) rfl

namespace SpanRules

variable {related : RunRelation} {known : List Stmt → Prop} {one other : Engine}
  (law : SpanRules related known one other)

include law

variable {time beside : World → Float} (timely : related _ (look time) (look beside))

include timely

section

variable (start : ∀ task, known task.block.body →
    related _ (one.start (.once task)) (other.start (.once task)))
  (drop : ∀ task, related.Refl (changeScheduler fun scheduler => scheduler.dropDelayed task))

include start drop

/-- The blocks that run once, if they too are started and dropped in related ways. -/
theorem examine (task : Delayed) (isKnown : known task.block.body) :
    related _ (one.examine time task) (other.examine beside task) := by
  refine law.bind timely fun now => ?_
  split
  · exact law.bind (start task isKnown) fun _ => drop task
  · exact law.pure ()

theorem runDelayed (tasks : List Delayed) (areKnown : ∀ task ∈ tasks, known task.block.body) :
    related _ (one.runDelayed time tasks) (other.runDelayed beside tasks) := by
  induction tasks with
  | nil => exact law.pure ()
  | cons task rest ih =>
    obtain ⟨here, later⟩ := List.forall_mem_cons.mp areKnown
    exact law.bind (law.examine timely start drop task here) fun _ => ih later

theorem passDelayed : related _ (one.passDelayed time) (other.passDelayed beside) :=
  law.waiting (fun tasks => ∀ task ∈ tasks, known task.block.body) [] delayed
    (fun all _ _ _ => all _) (List.forall_mem_nil _) (fun _ held => held.delayed)
    (fun _ _ _ => rfl) fun tasks areKnown => law.runDelayed timely start drop tasks areKnown

end

theorem runRecurring {few many : Nat} (rounds : RoundsRelated related few many) (place : Nat) :
    related _ (one.runRecurring time few place) (other.runRecurring beside many place) := by
  induction rounds generalizing place with
  | none => exact law.exhausted
  | usedUp _ usedUp => exact usedUp _
  | more _ ih =>
    refine law.waiting (fun found => ∀ task ∈ found, known task.block.body) none
      (fun scheduler => scheduler.recurring[place]?) (fun all _ _ _ => all _)
      (fun _ absent => by cases absent)
      (fun _ held task there => held.recurring task (List.mem_of_getElem? there))
      (fun _ _ _ => rfl) fun found isKnown => ?_
    cases found with
    | none => exact law.pure ()
    | some task =>
      refine law.bind timely fun now => ?_
      dsimp only
      split
      · refine law.bind (law.startAgain place task (isKnown task rfl)) fun _ => ?_
        refine law.bind timely fun later => ?_
        refine law.bind (law.markRecurring place later) fun _ => ?_
        exact ih (place + 1)
      · exact ih (place + 1)

theorem runJobs (jobs : List (String × Job))
    (areKnown : ∀ entry ∈ jobs, known entry.2.block.body) :
    related _ (one.runJobs time jobs) (other.runJobs beside jobs) := by
  induction jobs with
  | nil => exact law.pure ()
  | cons entry rest ih =>
    obtain ⟨name, job⟩ := entry
    obtain ⟨here, others⟩ := List.forall_mem_cons.mp areKnown
    refine law.bind timely fun now => ?_
    dsimp only
    split
    · refine law.bind (law.startJob name job here) fun _ => law.bind timely fun later => ?_
      refine law.bind (law.markJob name job.serial later) fun _ => ?_
      exact ih others
    · exact ih others

end SpanRules

namespace PassRules

variable {related : RunRelation} {known : List Stmt → Prop} {one other : Engine}
  (law : PassRules related known one other)

include law

theorem runScheduled (moment : Moment) {few many : Nat} (rounds : RoundsRelated related few many)
    (place : Nat) :
    related _ (one.runScheduled moment few place) (other.runScheduled moment many place) := by
  induction rounds generalizing place with
  | none => exact law.exhausted
  | usedUp _ usedUp => exact usedUp _
  | more _ ih =>
    refine law.waiting (fun found => ∀ task ∈ found, known task.block.body) none
      (fun scheduler => scheduler.scheduled[place]?) (fun all _ _ _ => all _)
      (fun _ absent => by cases absent)
      (fun _ held task there => held.scheduled task (List.mem_of_getElem? there))
      (fun _ _ _ => rfl) fun found isKnown => ?_
    cases found with
    | none => exact law.pure ()
    | some task =>
      dsimp only
      split
      · refine law.bind (law.start (.byCalendar moment place task) rfl (isKnown task rfl))
          fun _ => ?_
        exact ih (place + 1)
      · exact ih (place + 1)

section

variable {time beside : World → Float} (timely : related _ (look time) (look beside))

include timely

variable {calendar dating : World → Float}

/-- The blocks that are kept when they have run, if the moment is found in related ways. -/
theorem runLasting
    (dated : related Moment (look calendar >>= fun date => ofExcept (Moment.ofTime date))
      (look dating >>= fun date => ofExcept (Moment.ofTime date))) :
    related _ (one.runLasting time calendar) (other.runLasting beside dating) := by
  refine law.bind (law.runRecurring timely law.rounds 0) fun _ => ?_
  refine law.waiting (fun jobs => ∀ entry ∈ jobs, known entry.2.block.body) [] jobs
    (fun all _ _ _ => all _) (List.forall_mem_nil _) (fun _ held => held.jobs) (fun _ _ _ => rfl)
    fun jobs areKnown => ?_
  refine law.bind (law.runJobs timely jobs areKnown) fun _ => ?_
  have found := law.bind dated fun moment => law.runScheduled moment law.rounds 0
  rw [bind_assoc, bind_assoc] at found
  exact found

/-- Everything that is due, if the pass over the blocks that run once is run in related ways, too. -/
theorem runDue (delayed : related _ (one.passDelayed time) (other.passDelayed beside))
    (dated : related Moment (look calendar >>= fun date => ofExcept (Moment.ofTime date))
      (look dating >>= fun date => ofExcept (Moment.ofTime date))) :
    related _ (one.runDue time calendar) (other.runDue beside dating) :=
  law.bind delayed fun _ => law.runLasting timely dated

end

end PassRules

/-! ### How passes end -/

/-- Whether an exit means that the end of a run is not told: reading stalls, the steps are used up, or
what the run does next is not described. -/
def Exit.isEndless : Exit → Bool
  | .stalled | .exhausted | .outside => true
  | .fault _ | .signal _ => false

namespace Run

variable {α β : Type} {allowed : Exit → World → Prop}

/-- Whether a run has come to an end, whatever end that is. -/
def hasEnded : EStateM.Result Exit World α → Bool
  | .ok _ _ => true
  | .error exit _ => !exit.isEndless

/-- Whether a run ends without a result in certain ways only, given by the exit and by the world
that it leaves. -/
def EndsOnly (allowed : Exit → World → Prop) (action : Run α) : Prop :=
  ∀ world exit after, action world = .error exit after → allowed exit after

variable {action : Run α} {next : α → Run β} {world : World}

theorem endsOnly_bind (head : action.EndsOnly allowed)
    (tail : ∀ value, (next value).EndsOnly allowed) : (action >>= next).EndsOnly allowed := by
  intro world exit after ended
  cases begun : action world with
  | ok value between =>
    rw [bind_ok begun] at ended
    exact tail value between exit after ended
  | error first between =>
    rw [bind_error begun] at ended
    cases ended
    exact head world exit after begun

/-- What has come to an end has done so from its beginning on. -/
theorem hasEnded_of_bind (ended : hasEnded ((action >>= next) world) = true) :
    hasEnded (action world) = true := by
  cases begun : action world with
  | ok _ _ => rfl
  | error exit after =>
    rw [bind_error begun] at ended
    exact ended

/-- One run after another comes to an end if both do. -/
theorem hasEnded_bind (head : hasEnded (action world) = true)
    (tail : ∀ value after, action world = .ok value after → hasEnded (next value after) = true) :
    hasEnded ((action >>= next) world) = true := by
  cases begun : action world with
  | ok value after =>
    rw [bind_ok begun]
    exact tail value after begun
  | error exit after =>
    rw [begun] at head
    rw [bind_error begun]
    exact head

theorem EndsOnly.exists_ok (endsOnly : action.EndsOnly fun exit _ => exit.isEndless = true)
    (ended : hasEnded (action world) = true) : ∃ value after, action world = .ok value after := by
  cases begun : action world with
  | ok value after => exact ⟨value, after, rfl⟩
  | error exit after =>
    have endless : exit.isEndless = true := endsOnly world exit after begun
    rw [begun, hasEnded, endless] at ended
    exact absurd ended Bool.false_ne_true

theorem endsOnly_look (view : World → α) : (look view).EndsOnly allowed := by
  intro world exit after ended
  rw [look] at ended
  cases ended

theorem endsOnly_changeScheduler (change : Scheduler → Scheduler) :
    (changeScheduler change).EndsOnly allowed := by
  intro world exit after ended
  have changed : changeScheduler change world =
      .ok () { world with scheduler := world.scheduler.map change } := rfl
  rw [changed] at ended
  cases ended

/-- A run that is not disturbed by faults and signals ends early only if reading stalls, if the steps
are used up, or if it does what is not described. -/
theorem endsOnly_undisturbed (action : Run Unit)
    (endless : ∀ exit world, exit.isEndless = true → allowed exit world) :
    (undisturbed action).EndsOnly allowed := by
  intro world exit after ended
  rw [undisturbed] at ended
  generalize action world = result at ended ⊢
  cases result with
  | ok _ between => cases ended
  | error first between =>
    cases first with
    | fault _ | signal _ => cases ended
    | stalled | exhausted | outside =>
      cases ended
      exact endless _ after rfl

end Run

namespace Engine

variable {engine : Engine} {world : World} {scheduler : Scheduler} {due : Due}

theorem lookScheduler_bind {α β : Type} {otherwise : α} {view : Scheduler → α} {next : α → Run β}
    (present : world.scheduler = some scheduler) :
    (lookScheduler otherwise view >>= next) world = next (view scheduler) world := by
  rw [lookScheduler, look_bind, present]
  rfl

theorem schedulerTime_eq (present : world.scheduler = some scheduler) :
    schedulerTime world = scheduler.time := by
  rw [schedulerTime, present]
  rfl

theorem start_eq (engine : Engine) (due : Due) (present : world.scheduler = some scheduler) :
    engine.start due world =
      engine.runKept due.block { world with scheduler := some (scheduler.start due) } := by
  show engine.runKept due.block { world with scheduler := world.scheduler.map _ } = _
  rw [present]
  rfl

/-- A block that is started and comes to an end has done to the scheduler what programs do. -/
theorem exists_ok_start {kept : Scheduler → Scheduler → Prop}
    (keeps : ∀ block, (engine.runKept block).Keeps (World.SchedulerKept kept))
    (present : world.scheduler = some scheduler)
    (ended : hasEnded (engine.start due world) = true) :
    ∃ reached after, engine.start due world = .ok () reached ∧ reached.scheduler = some after ∧
      kept (scheduler.start due) after := by
  rw [engine.start_eq due present] at ended ⊢
  have endsOnly := endsOnly_undisturbed (engine.runBlock due.block)
    (fun (exit : Exit) (_ : World) (endless : exit.isEndless = true) => endless)
  obtain ⟨_, reached, finished⟩ := endsOnly.exists_ok ended
  have finished : engine.runKept due.block
      { world with scheduler := some (scheduler.start due) } = .ok () reached := finished
  have related := keeps due.block { world with scheduler := some (scheduler.start due) }
  rw [finished] at related
  obtain ⟨after, there, changed⟩ := related.exists_some rfl
  exact ⟨reached, after, finished, there, changed⟩

end Engine

variable (engine : Engine)

/-- What a block does that is due never keeps another one from being run, unless reading stalls or
the steps are used up. -/
theorem passRules_endsOnly (endless : ∀ exit world, exit.isEndless = true → allowed exit world) :
    PassRules (fun _ action _ => action.EndsOnly allowed) (fun _ => True) engine engine where
  rounds := .refl _
  pure value := endsOnly_look fun _ => value
  exhausted world _ _ ended := by
    cases ended
    exact endless _ world rfl
  bind := endsOnly_bind
  start _ _ _ := endsOnly_bind (endsOnly_changeScheduler _) fun _ =>
    endsOnly_undisturbed _ endless
  waiting _ _ _ _ _ always _ _ _ tail := endsOnly_bind (endsOnly_look _) fun value =>
    tail value (always (fun _ => trivial) value)
  markRecurring _ _ := endsOnly_changeScheduler _
  markJob _ _ _ := endsOnly_changeScheduler _

theorem passDelayed_endsOnly (time : World → Float)
    (endless : ∀ exit world, exit.isEndless = true → allowed exit world) :
    (engine.passDelayed time).EndsOnly allowed :=
  @SpanRules.passDelayed _ _ engine engine (passRules_endsOnly engine endless).toSpanRules time time
    (endsOnly_look time)
    (fun _ _ => endsOnly_bind (endsOnly_changeScheduler _) fun _ =>
      endsOnly_undisturbed _ endless)
    fun _ => endsOnly_changeScheduler _

/-- What is due comes to its end, unless a run would not, or there is no moment at the time that the
calendar gives. -/
theorem runDue_endsOnly (time calendar : World → Float) :
    (engine.runDue time calendar).EndsOnly fun exit after => exit.isEndless = true ∨
      ∃ cause, exit = .fault cause.fault ∧ Moment.ofTime (calendar after) = .error cause := by
  have endless (exit : Exit) (world : World) (isEndless : exit.isEndless = true) :
      exit.isEndless = true ∨
        ∃ cause, exit = .fault cause.fault ∧ Moment.ofTime (calendar world) = .error cause :=
    .inl isEndless
  refine @PassRules.runDue _ _ engine engine (passRules_endsOnly engine endless) time time
    (endsOnly_look time) calendar calendar (passDelayed_endsOnly engine time endless) ?_
  intro world exit after ended
  rw [look_bind] at ended
  cases found : Moment.ofTime (calendar world) with
  | ok moment =>
    rw [found] at ended
    cases ended
  | error cause =>
    rw [found] at ended
    cases ended
    exact .inr ⟨cause, rfl, found⟩

/-! ### Events -/

theorem Engine.passDelayed_eq (time : World → Float) (present : world.scheduler = some scheduler) :
    engine.passDelayed time world = engine.runDelayed time scheduler.delayed world :=
  lookScheduler_bind present

/-- A step of a scheduler with a time of its own moves that time and runs what is due. -/
theorem Engine.step_eq (present : world.scheduler = some scheduler)
    (byHand : scheduler.isVirtual = true) {seconds : Value} {time : Float}
    (reached : later scheduler.time seconds = .ok time) :
    engine.step seconds world = engine.runDue schedulerTime schedulerTime
      { world with scheduler := some { scheduler with time } } := by
  rw [step, lookScheduler_bind present, if_pos byHand]
  show (look schedulerTime >>= _) world = _
  rw [look_bind, schedulerTime_eq present, reached]
  show engine.runDue _ _ { world with scheduler := world.scheduler.map _ } = _
  rw [present]
  rfl

namespace Operation

/-- Whether what an operation brings along is run in related ways. -/
def Runs (related : RunRelation) (one other : Engine) : Operation → Prop
  | .execute program => related Unit (one.runProgram program) (other.runProgram program)
  | .evaluate expression => related Value (one.evaluate expression) (other.evaluate expression)
  | _ => True

/-- Steps one after another, without their records. -/
def stepping (engine : Engine) (seconds : Value) : Nat → Run (Option Value)
  | 0 => pure none
  | count + 1 => do
    engine.step seconds
    modify fun world => { world with written := [] }
    stepping engine seconds count

/-- What an operation does, apart from the records of its steps. -/
def whole (engine : Engine) : Operation → Run (Option Value)
  | .step seconds count => do
    match ← look World.scheduler with
    | none => lacking "step"
    | some _ => stepping engine (← load seconds) count
  | operation => operation.action engine

theorem stepAll_snd (seconds : Value) (count number : Nat) (world : World) :
    (stepAll engine seconds count number world).2 = stepping engine seconds count world := by
  induction count generalizing number world with
  | zero => rfl
  | succ count ih =>
    rw [stepAll, stepping]
    cases stepped : engine.step seconds world with
    | error exit after => exact (bind_error stepped).symm
    | ok _ after =>
      rw [bind_ok stepped]
      exact ih (number + 1) _

theorem result_snd (operation : Operation) (world : World) :
    (operation.result engine world).2 = operation.whole engine world := by
  cases operation with
  | step seconds count =>
    rw [result, whole, look_bind]
    cases world.scheduler with
    | none => rfl
    | some scheduler => exact stepAll_snd engine _ count 0 _
  | _ => rfl

end Operation

/-- What makes a relation between runs one that events respect, where two engines run programs. -/
structure EventRules (related : RunRelation) (known : List Stmt → Prop) (one other : Engine) : Prop
    extends PassRules related known one other where
  plain {α : Type} {action : Run α} : action.IsPlain → related α action action
  cleared : related.Refl (modify fun world => { world with written := [] })
  runSource (source : String) : related Unit (one.runSource source) (other.runSource source)
  evaluateSource (source : String) : related Value (expression source >>= one.evaluate)
    (expression source >>= other.evaluate)
  runKept (block : Block) : known block.body → related Unit (one.runKept block)
    (other.runKept block)
  delayedByHand : related Unit (one.passDelayed schedulerTime) (other.passDelayed schedulerTime)
  delayedByClock (now : Float) : related Unit (one.passDelayed fun _ => now)
    (other.passDelayed fun _ => now)
  lookTime {α : Type} (view : Option Scheduler → Float → Float → Nat → α) :
    related.Refl (look fun world => view world.scheduler world.clock world.reading world.sleeps)
  moveTime (time : Float) : related.Refl (changeScheduler fun scheduler => { scheduler with time })
  sleep (span : Float) : related.Refl (modify fun world => world.sleep span)
  screen : related.Refl (look World.screen)
  handler {β : Type} (place : Nat) {next later : Option ClickHandler → Run β} :
    (∀ found, (∀ handler ∈ found, known handler.block.body) →
      related β (next found) (later found)) →
      related β (look (fun world => (world.screen.getD [])[place]?) >>= next)
        (look (fun world => (world.screen.getD [])[place]?) >>= later)
  pure value := plain (isPlain_pure value)
  exhausted := plain (isPlain_throw rfl)

namespace EventRules

variable {related : RunRelation} {known : List Stmt → Prop} {one other : Engine}
  (law : EventRules related known one other)

include law

theorem due {time calendar : World → Float} (timely : related.Refl (look time))
    (delayed : related _ (one.passDelayed time) (other.passDelayed time))
    (dated : related.Refl (look calendar)) :
    related _ (one.runDue time calendar) (other.runDue time calendar) :=
  law.runDue timely delayed
    (law.bind dated fun date => law.plain (isPlain_ofExcept (Moment.ofTime date)))

theorem step (seconds : Value) : related _ (one.step seconds) (other.step seconds) := by
  refine law.bind (law.lookTime fun scheduler _ _ _ =>
    (scheduler.map isVirtual).getD false) fun isVirtual => ?_
  have timely : related.Refl (look schedulerTime) :=
    law.lookTime fun scheduler _ _ _ => (scheduler.map time).getD 0
  cases isVirtual with
  | false => exact law.pure ()
  | true =>
    refine law.bind timely fun before => ?_
    refine law.bind (law.plain (isPlain_ofExcept (later before seconds))) fun time => ?_
    exact law.bind (law.moveTime time) fun _ => law.due timely law.delayedByHand timely

theorem round : related _ one.round other.round := by
  refine law.bind (law.lookTime fun scheduler _ _ _ =>
    (scheduler.map isVirtual).getD true) fun isVirtual => ?_
  have dated : related.Refl (look World.clock) :=
    law.lookTime fun _ clock _ _ => clock
  cases isVirtual with
  | true => exact law.sleep _
  | false =>
    refine law.bind dated fun now => ?_
    have timely : related.Refl (look fun _ => now) :=
      law.lookTime fun _ _ _ _ => now
    have read := law.lookTime fun _ _ reading _ => reading
    exact law.bind (law.due timely (law.delayedByClock now) read) fun _ => law.sleep _

variable {few many : Nat}

theorem roundsUntil (sleeps : Nat) (rounds : RoundsRelated related few many) :
    related _ (one.roundsUntil sleeps few) (other.roundsUntil sleeps many) := by
  induction rounds with
  | none => exact law.exhausted
  | usedUp _ usedUp => exact usedUp _
  | more _ ih =>
    refine law.bind (law.lookTime fun _ _ _ slept => slept) fun slept => ?_
    split
    · exact law.pure ()
    · exact law.bind law.round fun _ => ih

theorem ticks (count : Nat) : related _ (one.ticks count) (other.ticks count) := by
  refine law.bind (law.lookTime fun _ _ _ slept => slept) fun slept => ?_
  exact law.roundsUntil _ law.rounds

variable (x y : Value)

theorem runClicks (rounds : RoundsRelated related few many) (place : Nat) :
    related _ (one.runClicks x y few place) (other.runClicks x y many place) := by
  induction rounds generalizing place with
  | none => exact law.exhausted
  | usedUp _ usedUp => exact usedUp _
  | more _ ih =>
    refine law.handler place fun found isKnown => ?_
    cases found with
    | none => exact law.pure ()
    | some handler =>
      refine law.bind (law.plain (isPlain_newDictionary _)) fun mouse => ?_
      refine law.bind (law.plain (isPlain_setVariable _ mouse)) fun _ => ?_
      exact law.bind (law.runKept handler.block (isKnown handler rfl)) fun _ => ih (place + 1)

theorem click : related _ (one.click x y) (other.click x y) :=
  law.runClicks x y law.rounds 0

/-- Operations, if they run what they bring along in related ways. -/
theorem action {operation : Operation} (runs : operation.Runs related one other) :
    related _ (operation.action one) (operation.action other) := by
  cases operation with
  | run source => exact law.bind (law.runSource source) fun _ => law.pure none
  | execute program => exact law.bind runs fun _ => law.pure none
  | evaluateSource source =>
    have read := law.bind (law.evaluateSource source) fun value => law.pure (some value)
    rw [bind_assoc, bind_assoc] at read
    exact read
  | evaluate expression => exact law.bind runs fun value => law.pure (some value)
  | click x y =>
    refine law.bind law.screen fun screen => ?_
    cases screen with
    | none => exact law.bind (law.plain (isPlain_fail rfl)) fun _ => law.pure none
    | some handlers =>
      refine law.bind (law.plain (isPlain_withHeap _)) fun first => ?_
      refine law.bind (law.plain (isPlain_withHeap _)) fun second => ?_
      exact law.bind (law.click first second) fun _ => law.pure none
  | step seconds count => exact law.pure none
  | ticks count =>
    refine law.bind (law.lookTime fun scheduler _ _ _ => scheduler) fun scheduler => ?_
    cases scheduler with
    | none => exact law.bind (law.plain (isPlain_fail rfl)) fun _ => law.pure none
    | some scheduler => exact law.bind (law.ticks count) fun _ => law.pure none

theorem stepping (seconds : Value) (count : Nat) : related _
    (Operation.stepping one seconds count) (Operation.stepping other seconds count) := by
  induction count with
  | zero => exact law.pure none
  | succ count ih =>
    exact law.bind (law.step seconds) fun _ => law.bind law.cleared fun _ => ih

theorem whole {operation : Operation} (runs : operation.Runs related one other) :
    related _ (operation.whole one) (operation.whole other) := by
  cases operation with
  | step seconds count =>
    refine law.bind (law.lookTime fun scheduler _ _ _ => scheduler) fun scheduler => ?_
    cases scheduler with
    | none => exact law.plain (isPlain_fail rfl)
    | some scheduler =>
      exact law.bind (law.plain (isPlain_withHeap _)) fun value =>
        law.stepping value count
  | _ => exact law.action runs

end EventRules

/-! ### Congruences -/

/-- What makes a congruence one that events respect. -/
structure EventCongruence (related : RunRelation) (first second : Settings) : Prop
    extends Congruence related first second where
  undisturbed {one other : Run Unit} : related Unit one other →
    related Unit (undisturbed one) (undisturbed other)
  lookTime {α : Type} (view : Option Scheduler → Float → Float → Nat → α) :
    related.Refl (look fun world => view world.scheduler world.clock world.reading world.sleeps)
  changeScheduler (change : Scheduler → Scheduler) : Scheduler.IsTidying change →
    related.Refl (changeScheduler change)
  sleep (span : Float) : related.Refl (modify fun world => world.sleep span)

namespace EventCongruence

variable {related : RunRelation} {first second : Settings} {one other : Engine}
  (law : EventCongruence related first second) (parts : Engine.Related related one other)

include law

theorem lookScheduler {α : Type} (otherwise : α) (view : Scheduler → α) :
    related.Refl (lookScheduler otherwise view) :=
  law.lookTime fun scheduler _ _ _ => (scheduler.map view).getD otherwise

include parts

theorem runKept (block : Block) : related _ (one.runKept block) (other.runKept block) :=
  law.undisturbed (law.runBlock parts block)

theorem start (due : Due) : related _ (one.start due) (other.start due) :=
  law.bind (law.changeScheduler _ (isTidying_start due)) fun _ =>
    law.runKept parts due.block

theorem passRules : PassRules related (fun _ => True) one other where
  rounds := parts.rounds
  pure := law.pure
  exhausted := law.exhausted
  bind := law.bind
  start due _ _ := law.start parts due
  waiting _ otherwise view _ _ always _ _ _ tail := law.bind (law.lookScheduler otherwise view)
    fun value => tail value (always (fun _ => trivial) value)
  markRecurring place time := law.changeScheduler _ (isTidying_markRecurring place time)
  markJob name serial time := law.changeScheduler _ (isTidying_markJob name serial time)

theorem passDelayed {time : World → Float} (timely : related.Refl (look time)) :
    related _ (one.passDelayed time) (other.passDelayed time) :=
  (law.passRules parts).passDelayed timely (fun task _ => law.start parts (.once task))
    fun task => law.changeScheduler _ (isTidying_dropDelayed task)

/-- Events respect the congruence. -/
theorem rules : EventRules related (fun _ => True) one other where
  toPassRules := law.passRules parts
  plain := law.plain
  cleared := law.inner ⟨fun _ inner => .ok () { inner with written := [] }, fun _ => rfl⟩
  runSource := law.runSource parts
  evaluateSource source := law.bind (law.inner (isInner_expression source)) parts.evaluate
  runKept block _ := law.runKept parts block
  delayedByHand := law.passDelayed parts (law.lookScheduler 0 time)
  delayedByClock now := law.passDelayed parts (law.lookTime fun _ _ _ _ => now)
  lookTime := law.lookTime
  moveTime time := law.changeScheduler _ (isTidying_time time)
  sleep := law.sleep
  screen := law.screen id
  handler place _ _ tail := law.bind (law.screen fun screen => (screen.getD [])[place]?)
    fun found => tail found fun _ _ => trivial

theorem runs (operation : Operation) : operation.Runs related one other := by
  cases operation with
  | execute program => exact law.calls.runProgram parts program
  | evaluate expression => exact parts.evaluate expression
  | _ => trivial

theorem step (seconds : Value) : related _ (one.step seconds) (other.step seconds) :=
  (law.rules parts).step seconds

theorem action (operation : Operation) :
    related _ (operation.action one) (operation.action other) :=
  (law.rules parts).action (law.runs parts operation)

theorem whole (operation : Operation) :
    related _ (operation.whole one) (operation.whole other) :=
  (law.rules parts).whole (law.runs parts operation)

end EventCongruence

/-! ### Sessions -/

namespace Operation

variable {engine : Engine} {seconds : Value} {world after : World} {exit : Exit}
  {settings : Settings} {operation : Operation} {steps : List StepRecord}

theorem stepAll_error (stepped : engine.step seconds world = .error exit after)
    (count number : Nat) :
    stepAll engine seconds (count + 1) number world = ([], .error exit after) := by
  rw [stepAll, stepped]

theorem stepAll_ok (stepped : engine.step seconds world = .ok () after) (count number : Nat) :
    stepAll engine seconds (count + 1) number world =
      (StepRecord.before ⟨number, schedulerTime after, after.transcript⟩
        (stepAll engine seconds count (number + 1) { after with written := [] }).1,
       (stepAll engine seconds count (number + 1) { after with written := [] }).2) := by
  rw [stepAll, stepped]

theorem perform_ok {value : Option Value}
    (ended : operation.result (standard settings) world = (steps, .ok value after)) :
    operation.perform settings world = conclude steps none value after := by
  rw [perform, ended]

theorem perform_error
    (ended : operation.result (standard settings) world = (steps, .error exit after)) :
    operation.perform settings world = conclude steps (some exit) none after := by
  rw [perform, ended]

theorem performAll_cons (settings : Settings) (world : World) (operation : Operation)
    (rest : List Operation) :
    performAll settings world (operation :: rest) =
      ((operation.perform settings world).1 ::
          (performAll settings (operation.perform settings world).2 rest).1,
        (performAll settings (operation.perform settings world).2 rest).2) := rfl

end Operation

end Parlance
