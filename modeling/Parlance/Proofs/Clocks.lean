import Parlance.Proofs.Agreement

/-!
Time by the clock and time by hand. A round by the clock reads the time at its beginning, the date
before the last pass, and the time again wherever a block registers another one; a step by hand
reads the time of the scheduler everywhere.
-/

namespace Parlance

open Proviso World Engine Run

variable {α : Type}

/-! ### The same world by hand -/

def Scheduler.byHand (time : Float) (scheduler : Scheduler) : Scheduler :=
  { scheduler with isVirtual := true, time }

/-- The world in which the scheduler has a time of its own. The clock may stand anywhere then, and
the program may have slept ever so often. -/
def World.byHand (time clock : Float) (sleeps : Nat) (world : World) : World :=
  { world with clock, sleeps, scheduler := world.scheduler.map (Scheduler.byHand time) }

/-- Whether the scheduler follows the clock, and the clock stands still at a time while blocks
run. -/
def World.FollowsClock (time : Float) (world : World) : Prop :=
  world.clock = time ∧ world.lag = none ∧
    ∃ scheduler, world.scheduler = some scheduler ∧ scheduler.isVirtual = false

theorem World.FollowsClock.reading_eq {time : Float} {world : World}
    (follows : world.FollowsClock time) : world.reading = time := by
  rw [reading, follows.2.1]
  exact follows.1

namespace Scheduler

theorem now_byHand (time clock : Float) (scheduler : Scheduler) :
    (scheduler.byHand time).now clock = time := rfl

theorem now_of_clock {scheduler : Scheduler} (byClock : scheduler.isVirtual = false)
    (clock : Float) : scheduler.now clock = clock := by
  rw [now, byClock]
  rfl

end Scheduler

variable (registration : Registration) (engine : Engine)

theorem Registration.isVirtual_add (block : Block) (clock : Float) (scheduler : Scheduler) :
    (registration.add block clock scheduler).isVirtual = scheduler.isVirtual := by
  cases registration <;> rfl

variable {scheduler : Scheduler} {world : World}

theorem Registration.add_byHand (block : Block) (time clock : Float)
    (byClock : scheduler.isVirtual = false) :
    registration.add block clock (scheduler.byHand time) =
      (registration.add block time scheduler).byHand time := by
  have same : (scheduler.byHand time).now clock = scheduler.now time := by
    rw [Scheduler.now_byHand, Scheduler.now_of_clock byClock]
  cases registration with
  | once place span =>
    rw [add, add, Scheduler.addDelayed, Scheduler.addDelayed, same]
    rfl
  | again span =>
    rw [add, add, Scheduler.addRecurring, Scheduler.addRecurring, same]
    rfl
  | job name span =>
    rw [add, add, Scheduler.addJob, Scheduler.addJob, same]
    rfl

theorem World.isOuter_byHand (time clock : Float) (sleeps : Nat) :
    IsOuter (byHand time clock sleeps) where
  inner _ := rfl
  surroundings _ := rfl
  withInner _ _ := rfl
  enter _ _ := rfl
  leave world := by
    have same : (world.byHand time clock sleeps).callers = world.callers := rfl
    rw [leave, leave, same]
    cases world.callers <;> rfl
  note _ _ := rfl

/-! ### Without sleep -/

/-- The condition that the scheduler follows the clock, that nobody sleeps, and that no call outside
the language reaches into the run. -/
def Proviso.sleepless (time clock : Float) (sleeps : Nat) : Proviso where
  tally world := world.sleeps + world.reaches
  holds := World.FollowsClock time
  passes _ := True
  change := byHand time clock sleeps

namespace Proviso

variable {time clock : Float} {sleeps : Nat}

/-- What touches neither the clock nor the scheduler keeps the condition. -/
theorem sleepless_kept {before after : World} (noted : before.reaches ≤ after.reaches)
    (same : (after.sleeps, after.clock, after.lag, after.scheduler) =
      (before.sleeps, before.clock, before.lag, before.scheduler)) :
    (sleepless time clock sleeps).Kept before after := by
  simp only [Prod.mk.injEq] at same
  obtain ⟨slept, ticked, lagging, scheduled⟩ := same
  refine ⟨Nat.add_le_add (Nat.le_of_eq slept.symm) noted, fun _ held => ?_⟩
  obtain ⟨timely, still, present⟩ := held
  exact ⟨ticked.trans timely, lagging.trans still, scheduled ▸ present⟩

/-- What changes the scheduler keeps the condition, if the scheduler still follows the clock. -/
theorem sleepless_scheduled (world : World) {scheduler changed : Scheduler}
    (present : world.scheduler = some scheduler)
    (same : changed.isVirtual = scheduler.isVirtual) :
    (sleepless time clock sleeps).Kept world { world with scheduler := some changed } := by
  refine .of_tally_eq rfl fun held => ?_
  obtain ⟨timely, still, found, there, byClock⟩ := held
  obtain rfl : scheduler = found := Option.some.inj (present.symm.trans there)
  exact ⟨timely, still, changed, rfl, same.trans byClock⟩

theorem leave_sameTime (world : World) :
    (world.leave.sleeps, world.leave.clock, world.leave.lag, world.leave.scheduler) =
      (world.sleeps, world.clock, world.lag, world.scheduler) := by
  rw [leave]
  split <;> rfl

variable (settings : Settings)

theorem preserved_sleepless :
    Preserved (sleepless time clock sleeps).Kept settings where
  refl _ := sleepless_kept Nat.le.refl rfl
  trans := Kept.trans
  inner _ _ := sleepless_kept Nat.le.refl rfl
  note world note := sleepless_kept (world.reaches_note note) rfl
  inward world reach _ := .of_lt (Nat.add_lt_add_left (world.reaches_reached reach) _)
  inScope scope _ keeps :=
    keeps_inScope (fun _ _ => sleepless_kept Nat.le.refl rfl)
      (fun world => sleepless_kept (Nat.le_of_eq world.reaches_leave.symm) (leave_sameTime world))
      scope keeps
  network _ _ _ _ := sleepless_kept Nat.le.refl rfl
  files _ _ _ := sleepless_kept Nat.le.refl rfl
  packages _ _ _ := sleepless_kept Nat.le.refl rfl
  sleep world _ _ := .of_lt (Nat.add_lt_add_right (Nat.lt_succ_self world.sleeps) _)
  time world _ _ _ present _ := sleepless_scheduled world present rfl
  timer world scheduler _ _ isTimer present := by
    obtain ⟨registration, block, rfl⟩ := isTimer
    exact sleepless_scheduled world present
      (registration.isVirtual_add block world.reading scheduler)
  stopping world _ _ present := sleepless_scheduled world present rfl
  calendar world _ _ _ present := sleepless_scheduled world present rfl
  screen _ _ _ := sleepless_kept Nat.le.refl rfl
  server _ _ _ := sleepless_kept Nat.le.refl rfl
  answer _ _ _ := sleepless_kept Nat.le.refl rfl

theorem sleepless_fits : (sleepless time clock sleeps).Fits settings where
  preserved := preserved_sleepless settings
  outer := isOuter_byHand time clock sleeps
  signals _ := trivial
  renamed _ _ _ := trivial
  inner _ _ := ⟨rfl, id⟩
  enter _ _ := ⟨rfl, id⟩
  leave world := congrArg₂ (· + ·) (congrArg Prod.fst (leave_sameTime world)) world.reaches_leave
  reached world reach := Nat.add_lt_add_left (world.reaches_reached reach) _

/-! ### What depends on the time -/

theorem agree_passTime (span : Float) (allowed : settings.Allow .timers) :
    (sleepless time clock sleeps).Agree Unit (passTime span) (passTime span) where
  keeps := (preserved_sleepless settings).keeps_passTime span allowed
  same world held admitted := by
    obtain ⟨-, -, scheduler, present, byClock⟩ := held
    rw [passTime_some span present, byClock] at admitted
    exact absurd (Nat.add_right_cancel admitted) (Nat.succ_ne_self world.sleeps)

theorem agree_schedule (change : Float → Scheduler → Scheduler) (told : String)
    (allowed : settings.Allow .timers) (isTimer : Scheduler.IsTimerChange change) :
    (sleepless time clock sleeps).Agree Unit (schedule change told)
      (schedule change told) where
  keeps := (preserved_sleepless settings).congruence.schedule change told allowed isTimer
  same world held _ := by
    have timely := held.reading_eq
    obtain ⟨-, -, scheduler, present, byClock⟩ := held
    obtain ⟨registration, block, rfl⟩ := isTimer
    have presentByHand : (world.byHand time clock sleeps).scheduler =
        some (scheduler.byHand time) := congrArg (Option.map (Scheduler.byHand time)) present
    show schedule _ told (world.byHand time clock sleeps) = mapState _ _
    rw [schedule, schedule, presentByHand, present, timely]
    refine congrArg (EStateM.Result.ok ()) ?_
    have same := registration.add_byHand block time (world.byHand time clock sleeps).reading byClock
    exact congrArg (fun changed => { world with clock, sleeps, scheduler := some changed }) same

theorem overlooks_stopJob (name : String) :
    (stopJob name).Overlooks (byHand time clock sleeps) := by
  intro world
  have same : (world.byHand time clock sleeps).scheduler =
      world.scheduler.map (Scheduler.byHand time) := rfl
  rw [stopJob, schedule, schedule, same]
  cases world.scheduler <;> rfl

theorem overlooks_scheduleByCalendar (schedule : String) (block : Block) :
    (scheduleByCalendar schedule block).Overlooks (byHand time clock sleeps) := by
  intro world
  have same : (world.byHand time clock sleeps).scheduler =
      world.scheduler.map (Scheduler.byHand time) := rfl
  rw [scheduleByCalendar, scheduleByCalendar, same]
  cases world.scheduler with
  | none => rfl
  | some scheduler =>
    dsimp only [Option.map]
    rw [Scheduler.addScheduled, Scheduler.addScheduled]
    cases CronFields.parse schedule <;> rfl

theorem agree_changeScheduler (change : Scheduler → Scheduler)
    (same : ∀ scheduler, change (scheduler.byHand time) = (change scheduler).byHand time)
    (kept : ∀ scheduler, (change scheduler).isVirtual = scheduler.isVirtual) :
    (sleepless time clock sleeps).Agree Unit (changeScheduler change)
      (changeScheduler change) := by
  refine agree_of_overlooks (fun world => ?_) (overlooks_modify fun world => ?_)
  · cases present : world.scheduler with
    | none =>
      have unchanged : world.scheduler.map change = world.scheduler := by rw [present]; rfl
      exact sleepless_kept Nat.le.refl (congrArg (fun scheduler => (_, _, _, scheduler)) unchanged)
    | some scheduler =>
      have changed : world.scheduler.map change = some (change scheduler) := by rw [present]; rfl
      show Kept _ world { world with scheduler := world.scheduler.map change }
      rw [changed]
      exact sleepless_scheduled world present (kept scheduler)
  · have commuted : (world.scheduler.map (Scheduler.byHand time)).map change =
        (world.scheduler.map change).map (Scheduler.byHand time) := by
      rw [Option.map_map, Option.map_map]
      exact congrArg (fun edit => world.scheduler.map edit) (funext same)
    exact congrArg (fun scheduler => { world with clock, sleeps, scheduler }) commuted

/-! ### Programs and passes -/

variable (time clock sleeps) in
/-- Programs that do not sleep go the same way by hand and by the clock. -/
theorem congruence_sleepless : Congruence (sleepless time clock sleeps).Agree settings settings :=
  have fits : (sleepless time clock sleeps).Fits settings := sleepless_fits settings
  have law := fits.preserved.congruence
  have handled {α β : Type} {holds : Prop} {called : Option String} {wrap : Run α → Run β}
      (handles : Handles holds called wrap) {one other : Run α}
      (head : (sleepless time clock sleeps).Agree α one other) :
      (sleepless time clock sleeps).Agree β (wrap one) (wrap other) :=
    fits.agree_handled handles (fun _ => trivial) (fun _ _ _ _ => trivial) head
  have plain {α : Type} {action : Run α} (isPlain : action.IsPlain) :
      (sleepless time clock sleeps).Agree α action action := fits.agree_inner isPlain.isInner
  have looked {α : Type} (view : World → α)
      (same : ∀ world, view (byHand time clock sleeps world) = view world) :
      (sleepless time clock sleeps).Agree α (look view) (look view) :=
    agree_of_overlooks (fits.preserved.keeps_look view) (overlooks_look view same)
  { handing := rfl
    inner := fits.agree_inner
    note := fits.agree_note
    bind := Agree.bind
    reporting := fun value _ _ => handled (handles_reporting settings value)
    pass := handled handles_pass
    inEdition := fun edition _ _ head => fits.agree_inEdition edition head
    inScope := fun scope _ _ head => fits.agree_inScope scope head
    givenBack := handled handles_givenBack
    namingFunction := fun name _ _ => handled (handles_namingFunction name)
    answered := handled handles_answered
    checked := fun activity one other inside =>
      related_checked _ rfl activity one other inside (plain (isPlain_report rfl))
    failOutside := fun _ => fits.agree_inner (isInner_failOutside settings _ _)
    foreignResult := fun name values _ =>
      plain (isPlain_foreignResult settings name values)
    inward := fun inward _ => fits.agree_inward inward _
    replies := fun _ => looked _ fun _ => rfl
    exchange := fun request allowed =>
      agree_of_overlooks (law.exchange request allowed)
        (overlooks_exchange request (fun _ => rfl) (fun _ _ => rfl) fun _ => rfl)
    files := fun _ _ => looked _ fun _ => rfl
    setFiles := fun files allowed =>
      agree_of_overlooks (law.setFiles files allowed) (overlooks_modify fun _ => rfl)
    changingFiles := fun allowed =>
      agree_of_overlooks (law.changingFiles allowed)
        (overlooks_changingFiles _ (fun _ => rfl) fun _ _ => rfl)
    find := fun _ _ =>
      .bind (looked files fun _ => rfl) fun _ =>
        fits.agree_inner (isInner_ofExcept _)
    packages := looked _ fun _ => rfl
    registry := fun _ => looked _ fun _ => rfl
    noteLoaded := fun name package allowed =>
      agree_of_overlooks (law.noteLoaded name package allowed) (overlooks_modify fun _ => rfl)
    passTime := agree_passTime settings
    schedule := agree_schedule settings
    stopJob := fun name =>
      agree_of_overlooks (law.stopJob name) (overlooks_stopJob name)
    scheduleByCalendar := fun schedule block allowed =>
      agree_of_overlooks (law.scheduleByCalendar schedule block allowed)
        (overlooks_scheduleByCalendar schedule block)
    screen := fun _ => looked _ fun _ => rfl
    keepForClicks := fun canvas block allowed =>
      agree_of_overlooks (law.keepForClicks canvas block allowed)
        (overlooks_keepForClicks fits.outer.isAside canvas block (fun _ => rfl) fun _ _ => rfl)
    incoming := fun _ => looked _ fun _ => rfl
    noteServer := fun port allowed =>
      agree_of_overlooks (law.noteServer port allowed) (overlooks_modify fun _ => rfl)
    noteAnswer := fun reply allowed =>
      agree_of_overlooks (law.noteAnswer reply allowed) (overlooks_modify fun _ => rfl) }

end Proviso

namespace Scheduler

theorem markJob_byHand (scheduler : Scheduler) (name : String) (serial : Nat) (ran time : Float) :
    (scheduler.byHand time).markJob name serial ran =
      (scheduler.markJob name serial ran).byHand time := by
  have same : (scheduler.byHand time).jobs = scheduler.jobs := rfl
  rw [markJob, markJob, same]
  cases scheduler.jobs.get? name with
  | none => rfl
  | some job =>
    dsimp only
    split <;> rfl

theorem isVirtual_markJob (scheduler : Scheduler) (name : String) (serial : Nat) (ran : Float) :
    (scheduler.markJob name serial ran).isVirtual = scheduler.isVirtual := by
  rw [markJob]
  split
  · split <;> rfl
  · rfl

end Scheduler

section

variable (settings : Settings) (depth : Nat) (time clock : Float) (sleeps : Nat)

/-- A block that is due is run alike, and so it is noted. -/
theorem agree_start (due : Due) :
    (sleepless time clock sleeps).Agree Unit ((ofDepth settings depth).start due)
      ((ofDepth settings depth).start due) := by
  have law := congruence_sleepless time clock sleeps settings
  refine .bind (agree_changeScheduler _ (fun _ => rfl) fun _ => rfl) fun _ => ?_
  exact (sleepless_fits settings).agree_handled handles_undisturbed (fun _ => trivial)
    (fun _ _ _ _ => trivial) (law.runBlock (law.ofDepth depth) due.block)

theorem passRules_sleepless :
    PassRules (sleepless time clock sleeps).Agree (fun _ => True) (ofDepth settings depth)
      (ofDepth settings depth) where
  rounds := .refl _
  pure value := (sleepless_fits settings).agree_inner (isInner_pure value)
  exhausted := (sleepless_fits settings).agree_inner (isInner_throw _)
  bind := .bind
  start due _ _ := agree_start settings depth time clock sleeps due
  waiting _ otherwise view _ _ always _ _ same tail := by
    refine .bind (agree_of_overlooks ((preserved_sleepless settings).keeps_look _)
      (overlooks_look _ fun world => ?_)) fun value => tail value (always (fun _ => trivial) value)
    have unseen : view ∘ Scheduler.byHand time = view :=
      funext fun scheduler => same scheduler true time
    show ((world.scheduler.map (Scheduler.byHand time)).map view).getD otherwise = _
    rw [Option.map_map, unseen]
  markRecurring _ _ := agree_changeScheduler _ (fun _ => rfl) fun _ => rfl
  markJob name serial ran := agree_changeScheduler _
    (fun scheduler => scheduler.markJob_byHand name serial ran time)
    fun scheduler => scheduler.isVirtual_markJob name serial ran

/-- The time that is read at the beginning of a round is the time of the scheduler. -/
theorem agree_time :
    (sleepless time clock sleeps).Agree Float (look fun _ => time)
      (look schedulerTime) where
  keeps _ := sleepless_kept Nat.le.refl rfl
  same world held _ := by
    obtain ⟨-, -, scheduler, present, -⟩ := held
    have same : schedulerTime (world.byHand time clock sleeps) = time := by
      show ((world.scheduler.map (Scheduler.byHand time)).map Scheduler.time).getD 0 = time
      rw [present]
      rfl
    exact congrArg (fun now => EStateM.Result.ok now (world.byHand time clock sleeps)) same

theorem agree_reading :
    (sleepless time clock sleeps).Agree Float (look World.reading)
      (look schedulerTime) where
  keeps _ := sleepless_kept Nat.le.refl rfl
  same world held admitted := by
    have same := (agree_time time clock sleeps).same world held rfl
    rw [Run.Mirrors] at same ⊢
    rw [same]
    exact congrArg (fun now => EStateM.Result.ok now (world.byHand time clock sleeps))
      held.reading_eq.symm

/-- Everything that is due is run alike. -/
theorem agree_runDue :
    (sleepless time clock sleeps).Agree Unit
      ((ofDepth settings depth).runDue (fun _ => time) World.reading)
      ((ofDepth settings depth).runDue schedulerTime schedulerTime) := by
  have law := passRules_sleepless settings depth time clock sleeps
  have timely := agree_time time clock sleeps
  refine law.runDue timely (law.passDelayed timely
    (fun task _ => agree_start settings depth time clock sleeps (.once task))
    fun _ => agree_changeScheduler _ (fun _ => rfl) fun _ => rfl) ?_
  exact .bind (agree_reading time clock sleeps) fun date =>
    (sleepless_fits settings).agree_inner (isInner_ofExcept _)

end

/-! ### A round and a step -/

/-- A round of a scheduler that follows the clock runs what is due, and sleeps. -/
theorem Engine.round_eq (present : world.scheduler = some scheduler)
    (byClock : scheduler.isVirtual = false) :
    engine.round world = (engine.runDue (fun _ => world.clock) reading >>= fun _ =>
      modify fun reached => reached.sleep roundPause) world := by
  have follows : (world.scheduler.map Scheduler.isVirtual).getD true = false := by
    rw [present]
    exact byClock
  rw [round, lookScheduler, look_bind, follows]
  rfl

theorem Engine.step_byHand (present : world.scheduler = some scheduler) {earlier time : Float}
    {seconds : Value} (reached : later earlier seconds = .ok time) (clock : Float)
    (sleeps : Nat) :
    engine.step seconds (world.byHand earlier clock sleeps) =
      engine.runDue schedulerTime schedulerTime (world.byHand time clock sleeps) := by
  have byHand : (world.byHand earlier clock sleeps).scheduler = some (scheduler.byHand earlier) :=
    congrArg (Option.map (Scheduler.byHand earlier)) present
  rw [engine.step_eq byHand rfl reached, World.byHand, World.byHand, present]
  rfl

/-- What is due by the clock has a result, if it comes to an end without sleep, nothing outside
reaches in, and there is a moment at the time of the clock: blocks cannot end it, and the date is
still that of the beginning. -/
theorem exists_ok_runDue (settings : Settings) (depth : Nat)
    (follows : world.FollowsClock world.clock) (dated : (Moment.ofTime world.clock).isOk = true)
    (ended : hasEnded
      ((ofDepth settings depth).runDue (fun _ => world.clock) reading world) = true)
    (unslept : (sleepless world.clock 0 0).tally (final ((ofDepth settings depth).runDue
      (fun _ => world.clock) reading world)) = (sleepless world.clock 0 0).tally world) :
    ∃ after, (ofDepth settings depth).runDue (fun _ => world.clock) reading world =
      .ok () after := by
  have kept := (agree_runDue settings depth world.clock 0 0).keeps world
  cases finished :
      (ofDepth settings depth).runDue (fun _ => world.clock) reading world with
  | ok _ after => exact ⟨after, rfl⟩
  | error exit after =>
    rw [finished] at kept unslept ended
    have stillFollows : after.FollowsClock world.clock := kept.2 unslept follows
    have endless : exit.isEndless = true ∨
        ∃ cause, exit = .fault cause.fault ∧ Moment.ofTime after.reading = .error cause :=
      runDue_endsOnly _ _ reading world exit after finished
    rcases endless with isEndless | ⟨cause, -, undated⟩
    · rw [hasEnded, isEndless] at ended
      cases ended
    · rw [stillFollows.reading_eq] at undated
      rw [undated] at dated
      cases dated

/-- A step by hand does what a round by the clock does. Take any world whose scheduler follows the
clock, and the same world with a scheduler that has a time of its own, whatever its clock says. If
the clock stands still while blocks run, if there is a moment at the time of the clock, if what is due
comes to an end, if no block sleeps, and if no call outside the language reaches into the run, then
both come to an end. They have started the same blocks in the same order, and the worlds that
they leave are the same, with all that waits, apart from the time by hand and from the clock. -/
theorem step_does_what_a_round_does (settings : Settings) (depth : Nat) (world : World)
    (scheduler : Scheduler) (present : world.scheduler = some scheduler)
    (byClock : scheduler.isVirtual = false) (still : world.lag = none)
    (dated : (Moment.ofTime world.clock).isOk = true) (earlier : Float) (seconds : Value)
    (reached : later earlier seconds = .ok world.clock) (clock : Float) (sleeps : Nat) :
    let engine := ofDepth settings depth
    let due := engine.runDue (fun _ => world.clock) World.reading world
    hasEnded due = true → (final due).sleeps = world.sleeps → (final due).reaches = world.reaches →
      ∃ after, engine.round world = .ok () after ∧
        engine.step seconds (world.byHand earlier clock sleeps) =
          .ok () (after.byHand world.clock clock sleeps) := by
  intro engine due ended unslept unreached
  have follows : world.FollowsClock world.clock := ⟨rfl, still, scheduler, present, byClock⟩
  have same := congrArg₂ (· + ·) unslept unreached
  obtain ⟨after, finished⟩ := exists_ok_runDue settings depth follows dated ended same
  have admitted : (sleepless world.clock clock sleeps).Admits world
      (engine.runDue (fun _ => world.clock) World.reading world) := by
    rw [show due = .ok () after from finished] at same
    rw [finished]
    exact same
  have mirrored :=
    (agree_runDue settings depth world.clock clock sleeps).same world follows admitted
  rw [Run.Mirrors, finished] at mirrored
  refine ⟨after.sleep roundPause, ?_, ?_⟩
  · rw [engine.round_eq present byClock]
    exact bind_ok finished
  · rw [engine.step_byHand present reached]
    exact mirrored

/-- Ten seconds by the clock, and six more than four by hand: a block that runs once registers two
others and then fails, one runs again, and a job runs. The one for the calendar runs at once. -/
theorem step_does_what_a_round_does_at_ten :
    let settings : Settings := { permissions := ⟨fun _ => true⟩ }
    let scheduler : Scheduler :=
      { isVirtual := false
        serials := 3
        delayed :=
          [⟨0, 0, 10, ⟨[0], [.print (.string "once"),
              .cron "* * * * *" [.print (.string "dated")],
              .after 2 (.number (.int 1)) [.print (.string "next")],
              .print (.identifier "unknown")]⟩⟩,
            ⟨1, 1, 11, ⟨[0], [.print (.string "late")]⟩⟩]
        recurring := [⟨2, 8, ⟨[0], [.print (.string "again")]⟩⟩]
        jobs := [("tick", ⟨2, 3, 0, ⟨[0], [.print (.string "job")]⟩⟩)] }
    let world : World := { files := .bare, clock := 10, scheduler := some scheduler }
    let engine := ofDepth settings 5
    let due := engine.runDue (fun _ => world.clock) reading world
    hasEnded due = true ∧ (final due).sleeps = world.sleeps ∧
      (final due).reaches = world.reaches ∧
      (final due).written.map Prod.snd = ["dated\n", "job\n", "again\n", "once\n"] ∧
      ∃ after, engine.round world = .ok () after ∧
        engine.step (.int 6) (world.byHand 4 7 0) = .ok () (after.byHand world.clock 7 0) := by
  intro settings scheduler world engine due
  have ended : hasEnded due = true := by decide +kernel
  have unslept : (final due).sleeps = world.sleeps := by decide +kernel
  have unreached : (final due).reaches = world.reaches := by decide +kernel
  have told : (final due).written.map Prod.snd =
      ["dated\n", "job\n", "again\n", "once\n"] := by decide +kernel
  have dated : (Moment.ofTime world.clock).isOk = true := by decide +kernel
  have reached : later 4 (.int 6) = .ok world.clock := by
    have sum : (later 4 (.int 6)).toOption = some world.clock := by decide +kernel
    cases found : later 4 (.int 6) with
    | ok time =>
      rw [found] at sum
      exact congrArg Except.ok (Option.some.inj sum)
    | error cause =>
      rw [found] at sum
      cases sum
  exact ⟨ended, unslept, unreached, told, step_does_what_a_round_does settings 5 world scheduler rfl
    rfl rfl dated 4 (.int 6) reached 7 0 ended unslept unreached⟩

/-- A block that asks from outside the language whether time is moved by hand gets another answer in a
step than in a round. -/
theorem clock_is_seen_from_outside :
    let settings : Settings := { permissions := ⟨fun _ => true⟩ }
    let call : Expr := .foreignCall "re.enum.bltns.eval" [.string "self.scheduler.virtual_time"]
    let scheduler : Scheduler :=
      { isVirtual := false, serials := 1, delayed := [⟨0, 0, 10, ⟨[], [.say [call]]⟩⟩] }
    let world : World := { files := .bare, clock := 10, scheduler := some scheduler }
    let engine := ofDepth settings 5
    (final (engine.round world)).written = [(.output, "False\n")] ∧
      (final (engine.step (.int 6) (world.byHand 4 7 0))).written = [(.output, "True\n")] := by
  decide +kernel

end Parlance
