import Parlance.Proofs.Meaning

/-!
What programs keep. A relation between the world before a run and the world after it is kept by
every program, whatever way it ends, if it is reflexive and transitive, if it does not look at the
inner part, and if it allows what the permissions allow.
-/

namespace Parlance

open Run

variable {α β : Type}

namespace Run

variable {kept : World → World → Prop} {action : Run α} {world : World}

/-- A run that ends in the same world as another one keeps what that one keeps. -/
theorem keeps_of_final {other : Run β} (keeps : action.Keeps kept)
    (same : ∀ world, final (other world) = final (action world)) : other.Keeps kept := by
  intro world
  rw [same]
  exact keeps world

theorem keeps_modify {change : World → World} (changed : ∀ world, kept world (change world)) :
    (modify change : Run Unit).Keeps kept :=
  changed

/-! ### Ends that are held up -/

/-- What is done after a run that has ended early: it ends in that way, or it goes on. Where faults
are held up, they are noted; where a function is called, its name is told if it is unknown. -/
inductive Follows (holds : Prop) (called : Option String) : Exit → Run β → Prop
  | passed {exit : Exit} : Follows holds called exit (throw exit)
  | caught {signal : Signal} {made : β} : Follows holds called (.signal signal) (pure made)
  | renamed {cause : UnboundName} {name : String} : name ∈ called →
    Follows holds called (.fault (.unbound cause)) (report (.undefinedFunction name))
  | stalled {made : β} : holds → Follows holds called .stalled (pure made)
  | heldUp {cause : Fault} {made : β} : holds →
    Follows holds called (.fault cause) fun world => .ok made (world.holdUp cause)
  | told {cause : Fault} {made : β} {text : String} : holds → Follows holds called (.fault cause)
    fun world => .ok made ((world.holdUp cause).write .output text)

/-- Whether something is made of runs by looking at how they end, and only at that. -/
structure Handles (holds : Prop) (called : Option String) (wrap : Run α → Run β) : Prop where
  ok (value : α) : ∃ made, ∀ {action : Run α} {world after : World},
    action world = .ok value after → wrap action world = .ok made after
  error (exit : Exit) : ∃ next, Follows holds called exit next ∧
    ∀ {action : Run α} {world after : World},
      action world = .error exit after → wrap action world = next after

theorem handles_pass : Handles False none Loop.pass where
  ok _ := ⟨.finished, fun ended => by rw [Loop.pass, ended]⟩
  error exit := by
    refine ⟨Loop.pass (throw exit), ?_, fun ended => by rw [Loop.pass, ended]; rfl⟩
    cases exit with
    | signal signal =>
      cases signal with
      | breakLoop | continueLoop => exact .caught
      | _ => exact .passed
    | _ => exact .passed

theorem handles_givenBack : Handles False none givenBack where
  ok _ := ⟨.nothing, fun ended => by rw [givenBack, ended]⟩
  error exit := by
    refine ⟨givenBack (throw exit), ?_, fun ended => by rw [givenBack, ended]; rfl⟩
    cases exit with
    | signal signal =>
      cases signal with
      | giveBack _ => exact .caught
      | _ => exact .passed
    | _ => exact .passed

theorem handles_namingFunction (name : String) :
    Handles False (some name) (@namingFunction α name) where
  ok value := ⟨value, fun ended => by rw [namingFunction, ended]⟩
  error exit := by
    refine ⟨namingFunction name (throw exit), ?_, fun ended => by rw [namingFunction, ended]; rfl⟩
    cases exit with
    | fault cause =>
      cases cause with
      | unbound _ => exact .renamed rfl
      | _ => exact .passed
    | _ => exact .passed

theorem handles_answered : Handles True none Engine.answered where
  ok _ := ⟨.status 200, fun ended => by rw [Engine.answered, ended]⟩
  error exit := by
    refine ⟨Engine.answered (throw exit), ?_, fun ended => by rw [Engine.answered, ended]; rfl⟩
    cases exit with
    | fault _ => exact .heldUp trivial
    | signal _ => exact .caught
    | stalled => exact .stalled trivial
    | exhausted | outside => exact .passed

theorem handles_reporting (settings : Settings) (value : α) :
    Handles True none (reporting settings value) where
  ok value := ⟨value, fun ended => by rw [reporting, ended]⟩
  error exit := by
    cases exit with
    | fault cause =>
      cases cause with
      | report cause =>
        cases debug : settings.debug with
        | true => exact ⟨_, .passed, fun ended => by rw [reporting, ended, debug]; rfl⟩
        | false => exact ⟨_, .told trivial, fun ended => by rw [reporting, ended, debug]; rfl⟩
      | _ => exact ⟨_, .passed, fun ended => by rw [reporting, ended]; rfl⟩
    | _ => exact ⟨_, .passed, fun ended => by rw [reporting, ended]; rfl⟩

variable {wrap : Run α → Run β} {called : Option String}

/-- Where no faults are held up, the world stays as the run has left it. -/
theorem final_handled (handles : Handles False called wrap) (world : World) :
    final (wrap action world) = final (action world) := by
  cases ended : action world with
  | ok value after =>
    obtain ⟨_, same⟩ := handles.ok value
    rw [same ended]
    rfl
  | error exit after =>
    obtain ⟨_, follows, same⟩ := handles.error exit
    rw [same ended]
    cases follows with
    | passed | caught | renamed => rfl
    | stalled holds | heldUp holds | told holds => cases holds

variable {holds : Prop}

/-- What is done after a run leaves the world as it is, apart from notes and texts that it adds. -/
theorem exists_final_handled (handles : Handles holds called wrap) (action : Run α)
    (world : World) : ∃ notes texts, final (wrap action world) = { final (action world) with
      journal := notes ++ (final (action world)).journal
      written := texts ++ (final (action world)).written } := by
  cases ended : action world with
  | ok value after =>
    obtain ⟨_, same⟩ := handles.ok value
    exact ⟨[], [], by rw [same ended]; rfl⟩
  | error exit after =>
    obtain ⟨_, follows, same⟩ := handles.error exit
    rw [same ended]
    cases follows with
    | passed | caught | renamed | stalled => exact ⟨[], [], rfl⟩
    | heldUp => exact ⟨[.heldUp _], [], rfl⟩
    | told => exact ⟨[.heldUp _], [(.output, _)], rfl⟩

theorem error_of_handled (handles : Handles holds called wrap) {exit : Exit}
    {after : World} (ended : wrap action world = .error exit after) :
    action world = .error exit after ∨
      ∃ name ∈ called, exit = .fault (.report (.undefinedFunction name)) := by
  cases begun : action world with
  | ok value between =>
    obtain ⟨_, same⟩ := handles.ok value
    rw [same begun] at ended
    cases ended
  | error exit between =>
    obtain ⟨_, follows, same⟩ := handles.error exit
    rw [same begun] at ended
    cases follows with
    | passed =>
      cases ended
      exact .inl rfl
    | renamed named =>
      cases ended
      exact .inr ⟨_, named, rfl⟩
    | _ => cases ended

variable (span : Float)

theorem final_inScope (scope : Scope Value Routine) (action : Run α) (world : World) :
    final (inScope scope action world) =
      (final (action (world.enter scope))).leave := by
  rw [inScope]
  cases action (world.enter scope) <;> rfl

theorem passTime_none (absent : world.scheduler = none) :
    passTime span world = .ok () (world.sleep span) := by
  rw [passTime]
  show EStateM.Result.ok () _ = _
  dsimp only
  rw [absent]

theorem passTime_some {scheduler : Scheduler} (present : world.scheduler = some scheduler) :
    passTime span world = .ok () (if scheduler.isVirtual = true then
      { world with scheduler := some { scheduler with time := scheduler.time + span } }
      else world.sleep span) := by
  rw [passTime]
  show EStateM.Result.ok () _ = _
  dsimp only
  rw [present]

end Run

/-- What a call leaves behind that reaches into the run. -/
structure Reach where
  callers : List (Scope Value Routine)
  input : List Char
  texts : List (Channel × String) := []
  notes : List Note := []

/-- The world after a call that has reached into the run. -/
def World.reached (world : World) (reach : Reach) : World :=
  { world with
    callers := reach.callers
    input := reach.input
    written := reach.texts ++ world.written
    journal := reach.notes ++ .inward :: world.journal }

/-- A name is forgotten in the scope around the innermost one, if there is one. -/
theorem Inward.forget_eq (settings : Settings) (name : String) (world : World) :
    world.callers = [] ∧ (Inward.forget name).act settings world = .error .outside world ∨
      ∃ caller others, world.callers = caller :: others ∧
        (Inward.forget name).act settings world =
          .ok .nothing { world with callers := caller.set name .nothing :: others } := by
  rw [act]
  dsimp only
  cases world.callers with
  | nil => exact .inl ⟨rfl, rfl⟩
  | cons caller others => exact .inr ⟨caller, others, rfl, rfl⟩

theorem Inward.exists_final_result (settings : Settings) (inward : Inward) (world : World) :
    ∃ reach, final (inward.result settings world) = world.reached reach := by
  let noted : World := { world with journal := .inward :: world.journal }
  show ∃ reach, final (inward.act settings noted) = world.reached reach
  cases inward with
  | debugging | granted | line => exact ⟨{ callers := world.callers, input := _ }, rfl⟩
  | ownTime =>
    refine ⟨{ callers := world.callers, input := world.input }, ?_⟩
    rw [act, look_bind]
    cases noted.scheduler <;> rfl
  | forget name =>
    obtain ⟨_, same⟩ | ⟨_, _, _, same⟩ := forget_eq settings name noted <;> rw [same] <;>
      exact ⟨{ callers := _, input := world.input }, rfl⟩
  | misfit =>
    have told := exists_final_handled (handles_reporting settings ())
      (report (.unknownStatement "NoneType")) noted
    obtain ⟨notes, texts, same⟩ := told
    refine ⟨⟨world.callers, world.input, texts, notes⟩, Eq.trans ?_ same⟩
    show final (EStateM.bind _ _ noted) = _
    rw [EStateM.bind]
    split <;> rename_i ended <;> rw [ended] <;> rfl
  | breakLoop =>
    refine ⟨{ callers := world.callers, input := world.input }, ?_⟩
    rw [act]
    split <;> rfl

def Note.isInward : Note → Bool
  | .inward => true
  | _ => false

/-- How often calls outside the language have reached into the run that made them. -/
def World.reaches (world : World) : Nat := world.journal.countP Note.isInward

theorem World.reaches_note (world : World) (note : Note) :
    world.reaches ≤ { world with journal := note :: world.journal }.reaches :=
  (List.sublist_cons_self note _).countP_le

theorem World.reaches_reached (world : World) (reach : Reach) :
    world.reaches < (world.reached reach).reaches := by
  simp only [reaches, reached, List.countP_append, List.countP_cons, Note.isInward, if_true]
  omega

theorem World.reaches_leave (world : World) : world.leave.reaches = world.reaches := by
  rw [leave]
  split <;> rfl

/-- What makes a relation between the worlds before and after a run one that all programs keep. -/
structure Preserved (kept : World → World → Prop) (settings : Settings) : Prop where
  refl (world : World) : kept world world
  trans {before between after : World} : kept before between → kept between after →
    kept before after
  inner (world : World) (inner : Inner) : kept world (world.withInner inner)
  note (world : World) (note : Note) : kept world { world with journal := note :: world.journal }
  inward (world : World) (reach : Reach) : settings.Allow .foreign →
    kept world (world.reached reach)
  inScope {α : Type} (scope : Scope Value Routine) {action : Run α} : action.Keeps kept →
    (inScope scope action).Keeps kept
  network (world : World) (replies : Option (List Reply)) (outgoing : List Outgoing) :
    settings.Allow .network → kept world { world with replies, outgoing }
  files (world : World) (files : FileTree) : settings.Allow .files ∨ settings.Allow .packages →
    kept world { world with files }
  packages (world : World) (packages : Option (Table LoadedPackage)) : settings.Allow .packages →
    kept world { world with packages }
  sleep (world : World) (span : Float) : settings.Allow .timers → kept world (world.sleep span)
  time (world : World) (scheduler : Scheduler) (time : Float) : settings.Allow .timers →
    world.scheduler = some scheduler → scheduler.isVirtual = true →
      kept world { world with scheduler := some { scheduler with time } }
  timer (world : World) (scheduler : Scheduler) (change : Float → Scheduler → Scheduler) :
    settings.Allow .timers → Scheduler.IsTimerChange change → world.scheduler = some scheduler →
      kept world { world with scheduler := some (change world.reading scheduler) }
  stopping (world : World) (scheduler : Scheduler) (name : String) :
    world.scheduler = some scheduler →
      kept world { world with scheduler := some (scheduler.stopJob name) }
  calendar (world : World) (scheduler : Scheduler) (task : Scheduled) : settings.Allow .cron →
    world.scheduler = some scheduler →
      kept world { world with
        scheduler := some { scheduler with scheduled := scheduler.scheduled ++ [task] } }
  screen (world : World) (screen : Option (List ClickHandler)) : settings.Allow .graphics →
    kept world { world with screen }
  server (world : World) (port : Int) : settings.Allow .server →
    kept world { world with servers := port :: world.servers }
  answer (world : World) (reply : Answer) : settings.Allow .server →
    kept world { world with answers := reply :: world.answers }

namespace Preserved

variable {kept : World → World → Prop} {settings : Settings}

section

variable (preserved : Preserved kept settings)

include preserved

/-! ### The ways in which runs are put together -/

variable {action : Run α}

theorem keeps_inner (isInner : action.IsInner) : action.Keeps kept := by
  intro world
  obtain ⟨step, steps⟩ := isInner
  rw [steps, final_mapState]
  exact preserved.inner world _

theorem keeps_plain (isPlain : action.IsPlain) : action.Keeps kept :=
  preserved.keeps_inner isPlain.isInner

theorem keeps_bind {next : α → Run β} (head : action.Keeps kept)
    (tail : ∀ value, (next value).Keeps kept) : (action >>= next).Keeps kept :=
  Run.keeps_bind head tail fun _ _ _ => preserved.trans

theorem keeps_handled {holds : Prop} {called : Option String} {wrap : Run α → Run β}
    (handles : Handles holds called wrap) (keeps : action.Keeps kept) :
    (wrap action).Keeps kept := by
  intro world
  have begun := keeps world
  cases ended : action world with
  | ok value after =>
    obtain ⟨_, same⟩ := handles.ok value
    rw [ended] at begun
    rw [same ended]
    exact begun
  | error exit after =>
    obtain ⟨_, follows, same⟩ := handles.error exit
    rw [ended] at begun
    rw [same ended]
    cases follows with
    | passed | caught | renamed | stalled => exact begun
    | heldUp => exact preserved.trans begun (preserved.note after _)
    | @told cause _ text =>
      have noted := preserved.trans begun (preserved.note after (.heldUp cause))
      exact preserved.trans noted (preserved.inner _
        { after.inner with written := (.output, text) :: after.written })

theorem keeps_inEdition (edition : Edition) (keeps : action.Keeps kept) :
    (inEdition edition action).Keeps kept := by
  intro world
  have entered : kept world { world with edition } :=
    preserved.inner world { world.inner with edition }
  have begun := preserved.trans entered (keeps { world with edition })
  rw [inEdition]
  split
  · rename_i value after ended
    rw [ended] at begun
    exact preserved.trans begun
      (preserved.inner after { after.inner with edition := world.edition })
  · rename_i exit after ended
    rw [ended] at begun
    exact preserved.trans begun
      (preserved.inner after { after.inner with edition := world.edition })

/-- Looking at something leaves the world as it is. -/
theorem keeps_look (view : World → α) : (look view).Keeps kept :=
  fun world => preserved.refl world

/-! ### What is done outside -/

theorem keeps_inward (inward : Inward) (allowed : settings.Allow .foreign) :
    (inward.result settings).Keeps kept := by
  intro world
  obtain ⟨reach, same⟩ := inward.exists_final_result settings world
  rw [same]
  exact preserved.inward world reach allowed

theorem keeps_exchange (request : Outgoing) (allowed : settings.Allow .network) :
    (exchange request).Keeps kept := by
  intro world
  rw [exchange]
  split
  · exact preserved.network world _ _ allowed
  · exact preserved.network world world.replies _ allowed

theorem keeps_changingFiles (change : FileChange α) (allowed : settings.Allow .packages) :
    (changingFiles change).Keeps kept := by
  intro world
  rw [changingFiles]
  split <;> exact preserved.files world _ (.inr allowed)

theorem keeps_passTime (span : Float) (allowed : settings.Allow .timers) :
    (passTime span).Keeps kept := by
  refine keeps_modify fun world => ?_
  split
  · rename_i scheduler present
    split
    · rename_i virtual
      exact preserved.time world scheduler _ allowed present virtual
    · exact preserved.sleep world span allowed
  · exact preserved.sleep world span allowed

theorem keeps_schedule (change : Float → Scheduler → Scheduler) (told : String)
    (changed : ∀ world scheduler, world.scheduler = some scheduler →
      kept world { world with scheduler := some (change world.reading scheduler) }) :
    (schedule change told).Keeps kept := by
  intro world
  rw [schedule]
  split
  · rename_i scheduler present
    exact changed world scheduler present
  · exact preserved.keeps_plain (isPlain_writeLine told) world

theorem keeps_scheduleByCalendar (schedule : String) (block : Block)
    (allowed : settings.Allow .cron) : (scheduleByCalendar schedule block).Keeps kept := by
  intro world
  rw [scheduleByCalendar]
  split
  · exact preserved.keeps_plain (isPlain_writeLine _) world
  · rename_i scheduler present
    rw [Scheduler.addScheduled]
    cases CronFields.parse schedule with
    | ok fields =>
      exact preserved.calendar world scheduler ⟨schedule, fields, block⟩ allowed present
    | error cause => exact preserved.refl world

theorem keeps_keepForClicks (canvas : Value) (block : Block) (allowed : settings.Allow .graphics) :
    (keepForClicks canvas block).Keeps kept := by
  intro world
  rw [keepForClicks]
  split
  · rename_i handlers _
    exact preserved.trans (preserved.screen world (some (handlers ++ [⟨canvas, block⟩])) allowed)
      (preserved.keeps_plain (isPlain_writeLine _) _)
  · exact preserved.keeps_plain (isPlain_writeLine _) world

/-- The meanings of all programs respect what is kept. -/
theorem congruence : Congruence (fun _ action _ => action.Keeps kept) settings settings where
  handing := rfl
  inner := preserved.keeps_inner
  note note world := preserved.note world note
  bind head tail := preserved.keeps_bind head tail
  reporting value _ _ := preserved.keeps_handled (handles_reporting settings value)
  pass := preserved.keeps_handled handles_pass
  inEdition edition _ _ keeps := preserved.keeps_inEdition edition keeps
  inScope scope _ _ keeps := preserved.inScope scope keeps
  givenBack := preserved.keeps_handled handles_givenBack
  namingFunction name _ _ := preserved.keeps_handled (handles_namingFunction name)
  answered := preserved.keeps_handled handles_answered
  checked activity one other keeps := related_checked (fun _ action _ => action.Keeps kept) rfl
    activity one other keeps (preserved.keeps_plain (isPlain_report rfl))
  failOutside _ := preserved.keeps_inner (isInner_failOutside settings _ _)
  foreignResult name values _ :=
    preserved.keeps_plain (isPlain_foreignResult settings name values)
  inward := preserved.keeps_inward
  replies _ := preserved.keeps_look _
  exchange := preserved.keeps_exchange
  files _ _ := preserved.keeps_look _
  setFiles files allowed world := preserved.files world files (.inl allowed)
  changingFiles := preserved.keeps_changingFiles _
  find _ _ := preserved.keeps_bind (preserved.keeps_look _) fun _ =>
    preserved.keeps_inner (isInner_ofExcept _)
  packages := preserved.keeps_look _
  registry _ := preserved.keeps_look _
  noteLoaded _ _ allowed world := preserved.packages world _ allowed
  passTime := preserved.keeps_passTime
  schedule change told allowed isTimer := preserved.keeps_schedule change told
    fun world scheduler present => preserved.timer world scheduler change allowed isTimer present
  stopJob name := preserved.keeps_schedule _ _ fun world scheduler present =>
    preserved.stopping world scheduler name present
  scheduleByCalendar := preserved.keeps_scheduleByCalendar
  screen _ := preserved.keeps_look _
  keepForClicks := preserved.keeps_keepForClicks
  incoming _ := preserved.keeps_look _
  noteServer port allowed world := preserved.server world port allowed
  noteAnswer reply allowed world := preserved.answer world reply allowed

theorem keeps_serve {engine : Engine}
    (keeps : ∀ statement, (engine.execute statement).Keeps kept) (port : Int) (routes : List Route)
    (allowed : settings.Allow .server) : (engine.serve port routes).Keeps kept := by
  have law := preserved.congruence.toLocalCongruence
  have answering (route : Route) : (Engine.answered (engine.executeAll route.body)).Keeps kept :=
    preserved.keeps_handled handles_answered
      (@LocalCongruence.executeAll _ _ _ engine engine law _ fun statement _ => keeps statement)
  exact @LocalCongruence.serve _ _ _ engine engine law _ (fun route _ => answering route) allowed
    port

variable (depth : Nat)

theorem evaluate (expression : Expr) : (Parlance.evaluate settings depth expression).Keeps kept :=
  (preserved.congruence.ofDepth depth).evaluate expression

theorem execute (statement : Stmt) : (Parlance.execute settings depth statement).Keeps kept :=
  (preserved.congruence.ofDepth depth).execute statement

end

end Preserved

/-! ### What programs keep of the scheduler -/

/-- What makes a relation between the schedulers before and after a run one that all programs keep. -/
structure SchedulerRules (kept : Scheduler → Scheduler → Prop) : Prop where
  refl (scheduler : Scheduler) : kept scheduler scheduler
  trans {before between after : Scheduler} : kept before between → kept between after →
    kept before after
  time (scheduler : Scheduler) (time : Float) : scheduler.isVirtual = true →
    kept scheduler { scheduler with time }
  add (scheduler : Scheduler) (registration : Registration) (block : Block) (clock : Float) :
    kept scheduler (registration.add block clock scheduler)
  stopJob (scheduler : Scheduler) (name : String) : kept scheduler (scheduler.stopJob name)
  calendar (scheduler : Scheduler) (task : Scheduled) :
    kept scheduler { scheduler with scheduled := scheduler.scheduled ++ [task] }

/-- Whether the schedulers of two worlds stand in a relation, if there are any. -/
def World.SchedulerKept (kept : Scheduler → Scheduler → Prop) (before after : World) : Prop :=
  Option.Rel kept before.scheduler after.scheduler

theorem World.scheduler_leave (world : World) : world.leave.scheduler = world.scheduler := by
  rw [leave]
  split <;> rfl

theorem World.SchedulerKept.exists_some {kept : Scheduler → Scheduler → Prop} {before after : World}
    {scheduler : Scheduler} (related : before.SchedulerKept kept after)
    (present : before.scheduler = some scheduler) :
    ∃ changed, after.scheduler = some changed ∧ kept scheduler changed := by
  rw [SchedulerKept, present] at related
  generalize after.scheduler = found at related
  cases related with
  | some changed => exact ⟨_, rfl, changed⟩

namespace SchedulerRules

variable {kept : Scheduler → Scheduler → Prop} (rules : SchedulerRules kept)

include rules

/-- What leaves the scheduler alone keeps the relation. -/
theorem of_eq {before after : World} (same : after.scheduler = before.scheduler) :
    before.SchedulerKept kept after := by
  rw [World.SchedulerKept, same]
  cases before.scheduler with
  | none => exact .none
  | some scheduler => exact .some (rules.refl scheduler)

omit rules in
theorem of_some {world : World} {scheduler changed : Scheduler}
    (present : world.scheduler = some scheduler) (change : kept scheduler changed) :
    world.SchedulerKept kept { world with scheduler := some changed } := by
  rw [World.SchedulerKept, present]
  exact .some change

theorem relTrans {first second third : Option Scheduler} (head : Option.Rel kept first second)
    (tail : Option.Rel kept second third) : Option.Rel kept first third := by
  cases head with
  | none => exact tail
  | some changed =>
    cases tail with
    | some changedLater => exact .some (rules.trans changed changedLater)

/-- Programs do nothing to the scheduler but move its time, register and drop blocks. -/
theorem preserved (settings : Settings) : Preserved (World.SchedulerKept kept) settings where
  refl _ := rules.of_eq rfl
  trans := rules.relTrans
  inner _ _ := rules.of_eq rfl
  note _ _ := rules.of_eq rfl
  inward _ _ _ := rules.of_eq rfl
  inScope scope action keeps := by
    intro world
    rw [final_inScope]
    have begun : (world.enter scope).SchedulerKept kept
      (final (action (world.enter scope))) := keeps _
    rw [World.SchedulerKept, World.scheduler_leave]
    exact begun
  network _ _ _ _ := rules.of_eq rfl
  files _ _ _ := rules.of_eq rfl
  packages _ _ _ := rules.of_eq rfl
  sleep _ _ _ := rules.of_eq rfl
  time _ scheduler time _ present virtual := of_some present (rules.time scheduler time virtual)
  timer world scheduler _ _ isTimer present := by
    obtain ⟨registration, block, rfl⟩ := isTimer
    exact of_some present (rules.add scheduler registration block world.reading)
  stopping _ scheduler name present := of_some present (rules.stopJob scheduler name)
  calendar _ scheduler task _ present := of_some present (rules.calendar scheduler task)
  screen _ _ _ := rules.of_eq rfl
  server _ _ _ := rules.of_eq rfl
  answer _ _ _ := rules.of_eq rfl

end SchedulerRules

end Parlance
