import Parlance.Proofs.Oversight

/-!
Worlds that look alike: the same functions are seen from each of the scopes that calls have opened,
and everything else is the same, apart from the editions of blocks and from the journal.
-/

namespace Parlance

open Scheduler

variable {α β : Type}

/-! ### Functions that are seen -/

/-- What a call sees of a function. -/
def Routine.content (function : Routine) : List String × List Stmt :=
  (function.parameters, function.block.body)

/-- What a call by a name sees in the first scope that knows the name, innermost first. -/
def visible? (scopes : List (Scope Value Routine)) (name : String) :
    Option (List String × List Stmt) :=
  (Scope.function? scopes name).map Routine.content

variable (scope : Scope Value Routine) (around : List (Scope Value Routine))

theorem visible?_cons (around : List (Scope Value Routine)) (name : String) :
    visible? (scope :: around) name =
      ((scope.functions.get? name).map Routine.content).or (visible? around name) := by
  rw [visible?, Scope.function?]
  cases scope.functions.get? name <;> rfl

theorem visible?_define (around : List (Scope Value Routine)) (name other : String)
    (function : Routine) :
    visible? (scope.define name function :: around) other =
      if name = other then some function.content else visible? (scope :: around) other := by
  rw [visible?_cons, visible?_cons, Scope.define, Table.get?_insert]
  split <;> rfl

theorem visible?_congr {one other : Scope Value Routine} (same : one.functions = other.functions) :
    visible? (one :: around) = visible? (other :: around) := by
  funext name
  rw [visible?_cons, visible?_cons, same]

variable {child : Scope Value Routine}

/-- Copies of the functions of a scope change nothing that is seen inside it. -/
theorem visible?_copies {scope : Scope Value Routine} (number : Nat) (copied : child.functions =
      Table.mapValues (fun function => function.copy number) scope.functions) :
    visible? (child :: scope :: around) = visible? (scope :: around) := by
  funext name
  rw [visible?_cons child, visible?_cons scope, copied, Table.get?_mapValues]
  cases scope.functions.get? name <;> rfl

/-- Nor does a scope without functions. -/
theorem visible?_nothing (nothing : child.functions = []) :
    visible? (child :: around) = visible? around := by
  funext name
  rw [visible?_cons, nothing]
  rfl

/-- Whether scopes are the same, apart from some that have been opened. Those have the same
variables, belong to the same calls and let the same functions be seen. -/
inductive ScopesAlike :
    (opened : Nat) → List (Scope Value Routine) → List (Scope Value Routine) → Prop
  | same (scope : Scope Value Routine) (around : List (Scope Value Routine)) :
    ScopesAlike 0 (scope :: around) (scope :: around)
  | cons {opened : Nat} {one other : Scope Value Routine}
    {around beside : List (Scope Value Routine)}
    (bindings : one.bindings = other.bindings) (call : one.call = other.call)
    (functions : visible? (one :: around) = visible? (other :: beside))
    (rest : ScopesAlike opened around beside) :
    ScopesAlike (opened + 1) (one :: around) (other :: beside)

namespace ScopesAlike

variable {opened : Nat} {scopes others : List (Scope Value Routine)}
  {one other : Scope Value Routine} {around beside : List (Scope Value Routine)}

theorem eq_of_zero (alike : ScopesAlike 0 scopes others) : scopes = others := by
  cases alike
  rfl

theorem exists_around (alike : ScopesAlike (opened + 1) (one :: scopes) (other :: others)) :
    ∃ caller around child beside, scopes = caller :: around ∧ others = child :: beside ∧
      ScopesAlike opened (caller :: around) (child :: beside) := by
  cases alike with
  | cons _ _ _ rest =>
    cases rest with
    | same scope around => exact ⟨scope, around, scope, around, rfl, rfl, .same scope around⟩
    | cons bindings call functions rest =>
      exact ⟨_, _, _, _, rfl, rfl, .cons bindings call functions rest⟩

theorem bindings_eq (alike : ScopesAlike opened scopes others) :
    scopes.map Scope.bindings = others.map Scope.bindings := by
  induction alike with
  | same => rfl
  | cons bindings _ _ _ ih =>
    rw [List.map_cons, List.map_cons, bindings, ih]

theorem visible?_eq (alike : ScopesAlike opened scopes others) :
    visible? scopes = visible? others := by
  cases alike with
  | same => rfl
  | cons _ _ functions _ => exact functions

/-- Other variables in the innermost scopes, the same ones in both. -/
theorem withBindings (alike : ScopesAlike opened (one :: around) (other :: beside))
    (bindings : Table Value) :
    ScopesAlike opened ({ one with bindings } :: around) ({ other with bindings } :: beside) := by
  cases alike with
  | same => exact .same _ _
  | cons _ call functions rest =>
    exact .cons rfl call
      ((visible?_congr around rfl).trans (functions.trans (visible?_congr beside rfl))) rest

/-- A function in the innermost scopes. It may belong to another text in scopes that have been
opened. -/
theorem define (alike : ScopesAlike opened (one :: around) (other :: beside)) (name : String)
    {function copy : Routine} (content : function.content = copy.content)
    (same : opened = 0 → function = copy) :
    ScopesAlike opened (one.define name function :: around) (other.define name copy :: beside) := by
  cases alike with
  | same =>
    rw [same rfl]
    exact .same _ _
  | cons bindings call functions rest =>
    refine .cons bindings call (funext fun sought => ?_) rest
    rw [visible?_define, visible?_define, functions, content]

end ScopesAlike

/-! ### Blocks without editions -/

def Block.bare (block : Block) : Block := { block with edition := [] }

def ClickHandler.bare (handler : ClickHandler) : ClickHandler :=
  { handler with block := handler.block.bare }

/-- The registration without the edition of its block. -/
def Delayed.bare (task : Delayed) : Delayed := { task with block := task.block.bare }

/-- The registration without the edition of its block. -/
def Recurring.bare (task : Recurring) : Recurring := { task with block := task.block.bare }

def Job.bare (job : Job) : Job := { job with block := job.block.bare }

/-- The registration without the edition of its block. -/
def Scheduled.bare (task : Scheduled) : Scheduled := { task with block := task.block.bare }

namespace Scheduler

/-- The scheduler without the editions of its blocks. -/
def bare (scheduler : Scheduler) : Scheduler :=
  { scheduler with
    delayed := scheduler.delayed.map Delayed.bare
    recurring := scheduler.recurring.map Recurring.bare
    jobs := Table.mapValues Job.bare scheduler.jobs
    scheduled := scheduler.scheduled.map Scheduled.bare
    history := scheduler.history.map Delayed.bare }

theorem bare_add (registration : Registration) (block : Block) (clock : Float)
    (scheduler : Scheduler) :
    (registration.add block clock scheduler).bare =
      registration.add block.bare clock scheduler.bare := by
  cases registration with
  | once place span =>
    let task : Delayed := ⟨scheduler.serials, place, scheduler.now clock + span, block.bare⟩
    exact congrArg
      (fun delayed => { scheduler.bare with
        serials := scheduler.serials + 1, delayed, history := task :: scheduler.bare.history })
      List.map_append
  | again span =>
    exact congrArg (fun recurring => { scheduler.bare with recurring }) List.map_append
  | job name span =>
    exact congrArg (fun jobs => { scheduler.bare with serials := scheduler.serials + 1, jobs })
      (Table.mapValues_insert Job.bare scheduler.jobs name _)

variable (scheduler : Scheduler)

theorem bare_stopJob (name : String) :
    (scheduler.stopJob name).bare = scheduler.bare.stopJob name :=
  congrArg (fun jobs => { scheduler.bare with jobs })
    (Table.mapValues_erase Job.bare scheduler.jobs name)

theorem bare_scheduled (task : Scheduled) :
    bare { scheduler with scheduled := scheduler.scheduled ++ [task] } =
      { scheduler.bare with scheduled := scheduler.bare.scheduled ++ [task.bare] } :=
  congrArg (fun scheduled => { scheduler.bare with scheduled }) List.map_append

end Scheduler

/-! ### Faces -/

/-- The part of a world in which worlds that look alike may differ. -/
structure Face where
  scope : Scope Value Routine
  callers : List (Scope Value Routine)
  edition : Edition
  scheduler : Option Scheduler
  screen : Option (List ClickHandler)
  journal : List Note

/-- Whether faces show the same, where some scopes have been opened. -/
structure Face.Alike (opened : Nat) (one other : Face) : Prop where
  scopes : ScopesAlike opened (one.scope :: one.callers) (other.scope :: other.callers)
  edition : opened = 0 → one.edition = other.edition
  scheduler : one.scheduler.map bare = other.scheduler.map bare
  screen : one.screen.map (List.map ClickHandler.bare) =
    other.screen.map (List.map ClickHandler.bare)

namespace World

def face (world : World) : Face :=
  { scope := world.scope
    callers := world.callers
    edition := world.edition
    scheduler := world.scheduler
    screen := world.screen
    journal := world.journal }

def withFace (world : World) (face : Face) : World :=
  { world with
    scope := face.scope
    callers := face.callers
    edition := face.edition
    scheduler := face.scheduler
    screen := face.screen
    journal := face.journal }

/-- Whether two worlds look alike, where some scopes have been opened. -/
inductive Alike (opened : Nat) (world : World) : World → Prop
  | mk (face : Face) (alike : Face.Alike opened world.face face) :
    Alike opened world (world.withFace face)

theorem Alike.refl (world : World) : Alike 0 world world :=
  .mk world.face ⟨.same _ _, fun _ => rfl, rfl, rfl⟩

theorem Alike.edition_eq {opened : Nat} {world beside : World} (alike : Alike opened world beside)
    (none : opened = 0) : world.edition = beside.edition := by
  obtain ⟨face, shown⟩ := alike
  exact shown.edition none

end World

/-! ### Runs that go alike -/

/-- Whether two runs have ended in the same way, in worlds that look alike. -/
inductive EndsAlike (opened : Nat) :
    EStateM.Result Exit World α → EStateM.Result Exit World α → Prop
  | ok (value : α) {after later : World} (alike : World.Alike opened after later) :
    EndsAlike opened (.ok value after) (.ok value later)
  | error (exit : Exit) {after later : World} (alike : World.Alike opened after later) :
    EndsAlike opened (.error exit after) (.error exit later)

/-- Whether two runs go alike in all worlds that look alike. -/
def Run.GoAlike (one other : Run α) : Prop :=
  ∀ opened before beside, World.Alike opened before beside →
    EndsAlike opened (one before) (other beside)

namespace Run

/-! ### What is done without a call -/

variable {action : Run α} {opened : Nat} {world : World} {face : Face}

/-- What depends on the plain part only goes alike. -/
theorem goAlike_plain (isPlain : action.IsPlain) : GoAlike action action := by
  obtain ⟨step, _, steps⟩ := isPlain
  rintro opened world _ ⟨face, shown⟩
  have bindings := shown.scopes.bindings_eq
  rw [List.map_cons, List.map_cons, List.cons.injEq] at bindings
  have samePlain : (world.withFace face).plain = world.plain := by
    show { world.plain with bindings := face.scope.bindings } = world.plain
    rw [← bindings.1]
    rfl
  have sameAround : (world.withFace face).around = world.around := bindings.2.symm
  have changed (left : PlainEnd) :
      World.Alike opened (world.withPlain left) ((world.withFace face).withPlain left) :=
    .mk { face with scope := { face.scope with bindings := left.bindings } }
      { shown with scopes := shown.scopes.withBindings left.bindings }
  rw [steps world, steps (world.withFace face), samePlain, sameAround]
  cases step world.around world.plain with
  | ok value left => exact .ok value (changed left)
  | error exit left => exact .error exit (changed left)

theorem goAlike_of_overlooks
    (overlooks : ∀ face, action.Overlooks fun world => world.withFace face) :
    GoAlike action action := by
  rintro opened world _ ⟨face, shown⟩
  have own : action world = mapState (fun after => after.withFace world.face) (action world) :=
    overlooks world.face world
  have other : action (world.withFace face) =
      mapState (fun after => after.withFace face) (action world) := overlooks face world
  rw [other]
  cases ended : action world with
  | ok value after =>
    rw [ended] at own
    injection own with _ same
    refine .ok value (.mk face ?_)
    rw [same]
    exact shown
  | error exit after =>
    rw [ended] at own
    injection own with _ same
    refine .error exit (.mk face ?_)
    rw [same]
    exact shown

/-- Reading a program does not look at the world. -/
theorem goAlike_program (source : String) : GoAlike (program source) (program source) := by
  rcases eq_pure_or_throw_program source with ⟨statements, read⟩ | ⟨exit, failed⟩
  · rw [read]
    exact goAlike_plain (isPlain_pure statements)
  · rw [failed]
    exact fun _ _ _ alike => .error exit alike

/-! ### Timers, schedules and clicks -/

theorem cases_of_map_eq {f : α → β} {one other : Option α} (same : one.map f = other.map f) :
    one = none ∧ other = none ∨
      ∃ known beside, one = some known ∧ other = some beside ∧ f known = f beside := by
  cases one with
  | none => exact .inl ⟨rfl, Option.map_eq_none_iff.mp same.symm⟩
  | some known =>
    obtain ⟨beside, found, equal⟩ := Option.map_eq_some_iff.mp same.symm
    exact .inr ⟨known, beside, rfl, found, equal.symm⟩

/-- Where one of two worlds that look alike has a scheduler, the other has one with the same
registrations. -/
theorem scheduler_cases (shown : Face.Alike opened world.face face) :
    world.scheduler = none ∧ (world.withFace face).scheduler = none ∨
      ∃ known other, world.scheduler = some known ∧ (world.withFace face).scheduler = some other ∧
        known.bare = other.bare :=
  cases_of_map_eq shown.scheduler

theorem goAlike_passTime (span : Float) : GoAlike (passTime span) (passTime span) := by
  rintro opened world _ ⟨face, shown⟩
  have slept : World.Alike opened (world.sleep span) ((world.withFace face).sleep span) :=
    .mk face { shown with }
  rcases scheduler_cases shown with ⟨present, absent⟩ | ⟨scheduler, other, present, found, bare⟩
  · rw [passTime_none span present, passTime_none span absent]
    exact .ok () slept
  · have virtual : scheduler.bare.isVirtual = other.bare.isVirtual := congrArg isVirtual bare
    rw [passTime_some span present, passTime_some span found]
    by_cases own : scheduler.isVirtual = true
    · have others : other.isVirtual = true := virtual.symm.trans own
      rw [if_pos own, if_pos others]
      refine .ok () (.mk { face with
        scheduler := some { other with time := other.time + span } }
        { shown with scheduler := ?_ })
      exact congrArg (fun known : Scheduler => some { known with time := known.time + span }) bare
    · have others : ¬ other.isVirtual = true := fun held => own (virtual.trans held)
      rw [if_neg own, if_neg others]
      exact .ok () slept

/-- Changes of the scheduler that do not depend on editions go alike. -/
theorem goAlike_schedule {one other : Float → Scheduler → Scheduler}
    (same : ∀ clock known beside, bare known = bare beside →
      (one clock known).bare = (other clock beside).bare) (told : String) :
    GoAlike (schedule one told) (schedule other told) := by
  rintro opened world _ ⟨face, shown⟩
  rw [schedule, schedule]
  rcases scheduler_cases shown with ⟨present, absent⟩ | ⟨scheduler, known, present, found, bare⟩
  · rw [present, absent]
    exact goAlike_plain (isPlain_writeLine told) opened world _ (.mk face shown)
  · rw [present, found]
    refine .ok () (.mk { face with scheduler := some (other world.reading known) }
      { shown with scheduler := ?_ })
    exact congrArg some (same world.reading scheduler known bare)

theorem goAlike_register (registration : Registration) (body : List Stmt) (told : String) :
    GoAlike (register registration body told) (register registration body told) := by
  intro opened world beside alike
  refine goAlike_schedule (fun clock known other bare => ?_) told opened world beside alike
  rw [bare_add, bare_add, bare]
  rfl

variable (name : String)

theorem goAlike_stopJob : GoAlike (Engine.stopJob name) (Engine.stopJob name) := by
  refine goAlike_schedule (fun clock known other bare => ?_) _
  rw [bare_stopJob, bare_stopJob, bare]

theorem goAlike_calendar (schedule : String) (body : List Stmt) :
    GoAlike (registerByCalendar schedule body) (registerByCalendar schedule body) := by
  rintro opened world _ ⟨face, shown⟩
  show EndsAlike opened (scheduleByCalendar schedule ⟨world.edition, body⟩ world)
    (scheduleByCalendar schedule ⟨face.edition, body⟩ (world.withFace face))
  rw [scheduleByCalendar, scheduleByCalendar]
  rcases scheduler_cases shown with ⟨present, absent⟩ | ⟨scheduler, known, present, found, bare⟩
  · rw [present, absent]
    exact goAlike_plain (isPlain_writeLine _) opened world _ (.mk face shown)
  · rw [present, found]
    dsimp only
    rw [addScheduled, addScheduled]
    cases CronFields.parse schedule with
    | error cause => exact .error (.fault cause.fault) (.mk face shown)
    | ok fields =>
      let task (edition : Edition) : Scheduled := ⟨schedule, fields, ⟨edition, body⟩⟩
      let changed : Scheduler :=
        { known with scheduled := known.scheduled ++ [task face.edition] }
      refine .ok () (.mk { face with scheduler := some changed }
        { shown with scheduler := congrArg some ?_ })
      rw [bare_scheduled known, ← bare]
      exact bare_scheduled scheduler (task world.edition)

theorem goAlike_clicks (canvas : Value) (body : List Stmt) :
    GoAlike (registerForClicks canvas body) (registerForClicks canvas body) := by
  rintro opened world _ ⟨face, shown⟩
  show EndsAlike opened (keepForClicks canvas ⟨world.edition, body⟩ world)
    (keepForClicks canvas ⟨face.edition, body⟩ (world.withFace face))
  rw [keepForClicks, keepForClicks]
  rcases cases_of_map_eq shown.screen with ⟨present, absent⟩ |
    ⟨handlers, others, present, found, bare⟩
  · rw [show world.screen = none from present, show (world.withFace face).screen = none from absent]
    exact goAlike_plain (isPlain_writeLine _) opened world _ (.mk face shown)
  · rw [show world.screen = some handlers from present,
      show (world.withFace face).screen = some others from found]
    let handler : Edition → ClickHandler := fun edition => ⟨canvas, ⟨edition, body⟩⟩
    refine goAlike_plain (isPlain_writeLine _) opened
      { world with screen := some (handlers ++ [handler world.edition]) } _
      (.mk { face with screen := some (others ++ [handler face.edition]) }
        { shown with screen := congrArg some ?_ })
    rw [List.map_append, List.map_append, bare]
    rfl

theorem goAlike_hasScreen : GoAlike (look fun world => world.screen.isSome)
    (look fun world => world.screen.isSome) := by
  rintro opened world _ ⟨face, shown⟩
  have same : world.screen.isSome = face.screen.isSome := by
    have both := congrArg Option.isSome shown.screen
    rw [Option.isSome_map, Option.isSome_map] at both
    exact both
  show EndsAlike opened (.ok world.screen.isSome world)
    (.ok face.screen.isSome (world.withFace face))
  rw [same]
  exact .ok _ (.mk face shown)

/-! ### Numbers, notes and definitions -/

theorem goAlike_newEdition : GoAlike newEdition newEdition := by
  rintro opened world _ ⟨face, shown⟩
  exact .ok world.editions (.mk face shown)

theorem goAlike_note (note : Note) : GoAlike (Run.note note) (Run.note note) := by
  rintro opened world _ ⟨face, shown⟩
  exact .ok () (.mk { face with journal := note :: face.journal }
    { shown with })

theorem goAlike_define (parameters : List String) (body : List Stmt) :
    GoAlike (Engine.define name parameters body) (Engine.define name parameters body) := by
  rintro opened world _ ⟨face, shown⟩
  let function : Edition → Table Value → Routine := fun edition captured =>
    ⟨parameters, ⟨edition, body⟩, captured⟩
  have bindings : world.scope.bindings = face.scope.bindings :=
    (List.cons.inj shown.scopes.bindings_eq).1
  have same (none : opened = 0) : function world.edition world.scope.bindings =
      function face.edition face.scope.bindings := by
    rw [bindings, show world.edition = face.edition from shown.edition none]
  exact .ok () (.mk { face with
    scope := face.scope.define name (function face.edition face.scope.bindings) }
    { shown with scopes := shown.scopes.define name rfl same })

end Run

namespace World.Alike

variable {opened : Nat} {world beside : World} (alike : Alike opened world beside)

include alike

theorem write (channel : Channel) (text : String) :
    Alike opened (world.write channel text) (beside.write channel text) := by
  obtain ⟨face, shown⟩ := alike
  exact .mk face shown

theorem holdUp (cause : Fault) :
    Alike opened (world.holdUp cause) (beside.holdUp cause) := by
  obtain ⟨face, shown⟩ := alike
  exact .mk { face with journal := .heldUp cause :: face.journal }
    { shown with }

theorem withEditions {edition copy : Edition}
    (same : opened = 0 → edition = copy) :
    Alike opened { world with edition } { beside with edition := copy } := by
  obtain ⟨face, shown⟩ := alike
  exact .mk { face with edition := copy } { shown with edition := same }

/-- In new scopes that let the same functions be seen, the worlds look alike. -/
theorem enter {scope child : Scope Value Routine}
    (bindings : scope.bindings = child.bindings) (call : scope.call = child.call)
    (functions : visible? (scope :: world.scopes) = visible? (child :: beside.scopes)) :
    Alike (opened + 1) (world.enter scope) (beside.enter child) := by
  obtain ⟨face, shown⟩ := alike
  exact .mk { face with scope := child, callers := face.scope :: face.callers }
    ⟨.cons bindings call functions shown.scopes, nofun, shown.scheduler, shown.screen⟩

omit alike in
/-- Outside of scopes that have been opened the worlds look alike, too. -/
theorem leave (alike : Alike (opened + 1) world beside)
    (same : opened = 0 → world.edition = beside.edition) :
    Alike opened world.leave beside.leave := by
  obtain ⟨face, shown⟩ := alike
  obtain ⟨caller, around, child, others, callers, callersBeside, rest⟩ := shown.scopes.exists_around
  rw [World.leave, World.leave, show world.callers = caller :: around from callers,
    show (world.withFace face).callers = child :: others from callersBeside]
  exact .mk { face with scope := child, callers := others }
    ⟨rest, same, shown.scheduler, shown.screen⟩

end World.Alike

end Parlance
