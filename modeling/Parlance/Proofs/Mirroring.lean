import Parlance.Proofs.EventMeaning

/-!
Runs that mirror one another. In worlds that differ by a change one run goes the way of the other,
and the worlds that they leave differ by the same change.
-/

namespace Parlance

open EStateM.Result

variable {α β : Type}

/-- Whether a second run goes the way of the first one where a world has been changed, and leaves a
world that has been changed in the same way. -/
def Run.Mirrors (change : World → World) (one other : Run α) (world : World) : Prop :=
  other (change world) = Run.mapState change (one world)

/-- Whether a run overlooks a change of the world: it goes the same way, and the worlds it leaves
differ by the same change. -/
def Run.Overlooks (change : World → World) (action : Run α) : Prop :=
  ∀ world, action (change world) = Run.mapState change (action world)

/-- Whether a change stands aside where scopes are opened and left, where editions change, and where
something is noted or written. -/
structure IsAside (change : World → World) : Prop where
  edition (world : World) : (change world).edition = world.edition
  withEdition (world : World) (edition : Edition) :
    change { world with edition } = { change world with edition }
  enter (world : World) (scope : Scope Value Routine) :
    change (world.enter scope) = (change world).enter scope
  leave (world : World) : change world.leave = (change world).leave
  note (world : World) (note : Note) : change { world with journal := note :: world.journal } =
      { change world with journal := note :: (change world).journal }
  write (world : World) (channel : Channel) (text : String) :
    change (world.write channel text) = (change world).write channel text

theorem IsAside.holdUp {change : World → World} (aside : IsAside change) (world : World)
    (cause : Fault) : change (world.holdUp cause) = (change world).holdUp cause :=
  aside.note world (.heldUp cause)

/-- Whether a change leaves alone the scheduler and the clock. -/
structure IsTimeless (change : World → World) : Prop where
  scheduler (world : World) : (change world).scheduler = world.scheduler
  reading (world : World) : (change world).reading = world.reading
  planned (world : World) (others : Option Scheduler) :
    { change world with scheduler := others } = change { world with scheduler := others }
  sleep (world : World) (span : Float) : (change world).sleep span = change (world.sleep span)

/-- Whether a change leaves alone what a program reads and changes without asking leave, and what is
noted of the run. -/
structure IsOuter (change : World → World) : Prop where
  inner (world : World) : (change world).inner = world.inner
  surroundings (world : World) : (change world).surroundings = world.surroundings
  withInner (world : World) (inner : Inner) :
    change (world.withInner inner) = (change world).withInner inner
  enter (world : World) (scope : Scope Value Routine) :
    change (world.enter scope) = (change world).enter scope
  leave (world : World) : change world.leave = (change world).leave
  note (world : World) (note : Note) : change { world with journal := note :: world.journal } =
      { change world with journal := note :: (change world).journal }

theorem isOuter_id : IsOuter id where
  inner _ := rfl
  surroundings _ := rfl
  withInner _ _ := rfl
  enter _ _ := rfl
  leave _ := rfl
  note _ _ := rfl

namespace IsOuter

variable {change : World → World} (outer : IsOuter change)

include outer

/-- It makes no difference whether the inner part is edited before the change or after it. -/
theorem edited (world : World) (edit : Inner → Inner) :
    change (world.withInner (edit world.inner)) =
      (change world).withInner (edit (change world).inner) := by
  rw [outer.withInner, outer.inner]

theorem isAside : IsAside change where
  edition world := congrArg Inner.edition (outer.inner world)
  withEdition world edition := outer.edited world fun inner => { inner with edition }
  enter := outer.enter
  leave := outer.leave
  note := outer.note
  write world channel text := outer.edited world fun inner =>
    { inner with written := (channel, text) :: inner.written }

end IsOuter

namespace Run

variable {change : World → World}

/-! ### The ways in which runs are put together -/

theorem overlooks_bind {action : Run α} {next : α → Run β} (head : action.Overlooks change)
    (tail : ∀ value, (next value).Overlooks change) : (action >>= next).Overlooks change := by
  intro world
  show EStateM.bind action next (change world) = mapState change (EStateM.bind action next world)
  rw [EStateM.bind, EStateM.bind, head]
  cases action world with
  | ok value after => exact tail value after
  | error exit after => rfl

theorem overlooks_modify {step : World → World}
    (same : ∀ world, step (change world) = change (step world)) :
    (modify step : Run Unit).Overlooks change :=
  fun world => congrArg (ok ()) (same world)

/-- Looking at something that is the same on both sides. -/
theorem overlooks_look (view : World → α) (same : ∀ world, view (change world) = view world) :
    (look view).Overlooks change := by
  intro world
  rw [look, same]
  rfl

theorem overlooks_inner (outer : IsOuter change) {action : Run α} (isInner : action.IsInner) :
    action.Overlooks change := by
  intro world
  obtain ⟨step, steps⟩ := isInner
  rw [steps, steps, outer.surroundings, outer.inner]
  cases step world.surroundings world.inner with
  | ok value after => exact congrArg (ok value) (outer.withInner world after).symm
  | error exit after => exact congrArg (error exit) (outer.withInner world after).symm

section

variable (aside : IsAside change) {world : World} {one other : Run α}

include aside

theorem overlooks_note (note : Note) : (Run.note note).Overlooks change :=
  overlooks_modify fun world => (aside.note world note).symm

theorem overlooks_writeLine (text : String) : (writeLine text).Overlooks change :=
  overlooks_modify fun world => (aside.write world .output _).symm

variable {called : Option String}

/-- What is done after an early end overlooks it. -/
theorem Follows.overlooks {holds : Prop} {exit : Exit} {next : Run β}
    (follows : Follows holds called exit next) : next.Overlooks change := by
  intro world
  cases follows with
  | passed | caught | renamed | stalled => rfl
  | heldUp => exact congrArg (ok _) (aside.holdUp world _).symm
  | told =>
    refine congrArg (ok _) ?_
    rw [aside.write, aside.holdUp]

theorem mirrors_handled {holds : Prop} {wrap : Run α → Run β}
    (handles : Handles holds called wrap) (same : Mirrors change one other world) :
    Mirrors change (wrap one) (wrap other) world := by
  rw [Mirrors] at same ⊢
  cases ended : one world with
  | ok value after =>
    rw [ended] at same
    obtain ⟨_, made⟩ := handles.ok value
    rw [made ended, made same]
    rfl
  | error exit after =>
    rw [ended] at same
    obtain ⟨_, follows, goesOn⟩ := handles.error exit
    rw [goesOn ended, goesOn same]
    exact follows.overlooks aside after

theorem mirrors_inEdition (edition : Edition)
    (same : Mirrors change one other { world with edition }) :
    Mirrors change (inEdition edition one) (inEdition edition other) world := by
  rw [Mirrors, aside.withEdition] at same
  have left (after : World) : { change after with edition := (change world).edition } =
      change { after with edition := world.edition } := by
    rw [aside.edition]
    exact (aside.withEdition after world.edition).symm
  rw [Mirrors, inEdition, inEdition, same]
  cases one { world with edition } with
  | ok value after => exact congrArg (ok value) (left after)
  | error exit after => exact congrArg (error exit) (left after)

theorem mirrors_inScope (scope : Scope Value Routine)
    (same : Mirrors change one other (world.enter scope)) :
    Mirrors change (inScope scope one) (inScope scope other) world := by
  rw [Mirrors, aside.enter] at same
  rw [Mirrors, inScope, inScope, same]
  cases one (world.enter scope) with
  | ok value after => exact congrArg (ok value) (aside.leave after).symm
  | error exit after => exact congrArg (error exit) (aside.leave after).symm

end

/-! ### What is done outside -/

/-- Requests overlook what leaves alone the replies and what has been asked. -/
theorem overlooks_exchange (request : Outgoing)
    (replies : ∀ world, (change world).replies = world.replies)
    (taken : ∀ world others, { change world with replies := others } =
      change { world with replies := others })
    (asked : ∀ world, (change world).ask request = change (world.ask request)) :
    (exchange request).Overlooks change := by
  intro world
  rw [exchange, exchange, replies, asked]
  split
  · exact congrArg (ok _) (taken (world.ask request) _)
  · rfl

/-- What is read from the files overlooks what leaves the files alone. -/
theorem overlooks_fromFiles (view : FileTree → Except Refusal α)
    (files : ∀ world, (change world).files = world.files) : (fromFiles view).Overlooks change := by
  refine overlooks_bind (overlooks_look _ files) fun found => ?_
  cases view found <;> exact fun _ => rfl

theorem overlooks_changingFiles (edit : FileChange α)
    (files : ∀ world, (change world).files = world.files)
    (stored : ∀ world others, { change world with files := others } =
      change { world with files := others }) :
    (changingFiles edit).Overlooks change := by
  intro world
  rw [changingFiles, changingFiles, files]
  cases edit world.files with
  | ok value changed => exact congrArg (ok value) (stored world changed)
  | error cause changed => exact congrArg (error _) (stored world changed)

theorem overlooks_keepForClicks (aside : IsAside change) (canvas : Value) (block : Block)
    (screen : ∀ world, (change world).screen = world.screen)
    (shown : ∀ world handlers, { change world with screen := handlers } =
      change { world with screen := handlers }) :
    (keepForClicks canvas block).Overlooks change := by
  intro world
  rw [keepForClicks, keepForClicks, screen]
  cases world.screen with
  | none => exact overlooks_writeLine aside _ world
  | some handlers =>
    dsimp only
    rw [shown]
    exact overlooks_writeLine aside _ _

section

variable (timeless : IsTimeless change)

include timeless

/-- Waiting overlooks what leaves the scheduler and the clock alone. -/
theorem overlooks_passTime (span : Float) : (passTime span).Overlooks change := by
  intro world
  cases present : world.scheduler with
  | none =>
    have absent := (timeless.scheduler world).trans present
    rw [passTime_none span present, passTime_none span absent, timeless.sleep]
    rfl
  | some known =>
    have found := (timeless.scheduler world).trans present
    rw [passTime_some span present, passTime_some span found]
    split
    · exact congrArg (ok ()) (timeless.planned world _)
    · exact congrArg (ok ()) (timeless.sleep world span)

variable (aside : IsAside change)

include aside

/-- Timers overlook it, too. -/
theorem overlooks_schedule (edit : Float → Scheduler → Scheduler) (told : String) :
    (schedule edit told).Overlooks change := by
  intro world
  rw [schedule, schedule, timeless.scheduler]
  cases world.scheduler with
  | none => exact overlooks_writeLine aside told world
  | some known =>
    dsimp only
    rw [timeless.reading]
    exact congrArg (ok ()) (timeless.planned world _)

theorem overlooks_scheduleByCalendar (schedule : String) (block : Block) :
    (scheduleByCalendar schedule block).Overlooks change := by
  intro world
  rw [scheduleByCalendar, scheduleByCalendar, timeless.scheduler]
  cases world.scheduler with
  | none => exact overlooks_writeLine aside _ world
  | some known =>
    dsimp only
    cases known.addScheduled schedule block with
    | ok changed => exact congrArg (ok ()) (timeless.planned world _)
    | error cause => rfl

end

end Run

end Parlance
