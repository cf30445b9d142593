import Mathlib.Data.List.Nodup
import Parlance.Proofs.EventMeaning

/-!
Blocks that run by the calendar. The scheduler does not note when such a block ran: every pass over
the calendar starts each block whose schedule matches the minute of the pass, and starts it once.
-/

namespace Parlance

open Engine Run Scheduler List

/-! ### Minutes -/

/-- The minute in which a block is started, if it is the one at a place of the calendar. -/
def Due.minute? (place : Nat) : Due → Option Moment
  | .byCalendar moment other _ => if other = place then some moment else none
  | _ => none

namespace Scheduler

/-- The minutes in which the block at a place of the calendar was started, latest first. -/
def minutes (scheduler : Scheduler) (place : Nat) : List Moment :=
  scheduler.started.filterMap (Due.minute? place)

/-- Whether there is a block at a place of the calendar whose schedule a minute matches. -/
def isDueAt (scheduler : Scheduler) (place : Nat) (moment : Moment) : Bool :=
  scheduler.scheduled[place]?.any fun task => task.fields.holds moment

/-- Whether no block of the calendar has been started or dropped. -/
structure KeepsCalendar (before after : Scheduler) : Prop where
  minutes (place : Nat) : after.minutes place = before.minutes place
  scheduled : before.scheduled <+: after.scheduled

variable {before after : Scheduler} {place : Nat} {moment : Moment} (scheduler : Scheduler)

theorem minutes_start (due : Due) (place : Nat) :
    (scheduler.start due).minutes place = (due.minute? place).toList ++ scheduler.minutes place := by
  cases found : due.minute? place with
  | none => exact filterMap_cons_none found
  | some moment => exact filterMap_cons_some found

/-- A block of the calendar stays at its place. -/
theorem getElem?_of_prefix (grown : before.scheduled <+: after.scheduled)
    (inside : place < before.scheduled.length) :
    after.scheduled[place]? = before.scheduled[place]? := by
  obtain ⟨more, whole⟩ := grown
  rw [← whole, List.getElem?_append_left inside]

theorem lt_of_isDueAt (due : before.isDueAt place moment = true) :
    place < before.scheduled.length := by
  by_contra outside
  rw [isDueAt, List.getElem?_eq_none (Nat.le_of_not_lt outside)] at due
  cases due

theorem keepsCalendar_of_eq (started : after.started = before.started)
    (scheduled : after.scheduled = before.scheduled) : before.KeepsCalendar after where
  minutes place := by rw [minutes, minutes, started]
  scheduled := scheduled ▸ prefix_refl _

theorem keepsCalendar_start {due : Due} (other : ∀ place, due.minute? place = none) :
    scheduler.KeepsCalendar (scheduler.start due) where
  minutes place := by
    rw [minutes_start, other]
    rfl
  scheduled := prefix_refl _

theorem keepsCalendar_markJob (name : String) (serial : Nat) (time : Float) :
    scheduler.KeepsCalendar (scheduler.markJob name serial time) := by
  rw [markJob]
  split
  · split <;> exact keepsCalendar_of_eq rfl rfl
  · exact keepsCalendar_of_eq rfl rfl

/-- Programs add blocks to the calendar, and that is all that they do to it. -/
theorem keepsCalendar_rules : SchedulerRules KeepsCalendar where
  refl _ := keepsCalendar_of_eq rfl rfl
  trans first second :=
    ⟨fun place => (second.minutes place).trans (first.minutes place),
      first.scheduled.trans second.scheduled⟩
  time _ _ _ := keepsCalendar_of_eq rfl rfl
  add _ registration _ _ := by cases registration <;> exact keepsCalendar_of_eq rfl rfl
  stopJob _ _ := keepsCalendar_of_eq rfl rfl
  calendar _ _ := ⟨fun _ => rfl, prefix_append _ _⟩

end Scheduler

/-! ### What a pass over the calendar starts -/

namespace Engine

/-- Runs the block at a place of the calendar if its schedule matches a minute. -/
def startIfDue (engine : Engine) (moment : Moment) (place : Nat) (task : Scheduled) : Run Unit :=
  if task.fields.holds moment then engine.start (.byCalendar moment place task) else pure ()

variable {engine : Engine} {moment : Moment} {world : World} {before : Scheduler}
  {rounds place : Nat} {task : Scheduled} (present : world.scheduler = some before)

include present

theorem runScheduled_none (found : before.scheduled[place]? = none) :
    engine.runScheduled moment (rounds + 1) place world = .ok () world := by
  rw [runScheduled, lookScheduler_bind present, found]
  rfl

theorem runScheduled_some (found : before.scheduled[place]? = some task) :
    engine.runScheduled moment (rounds + 1) place world =
      (engine.startIfDue moment place task >>= fun _ =>
        engine.runScheduled moment rounds (place + 1)) world := by
  rw [startIfDue, runScheduled, lookScheduler_bind present, found]
  dsimp only
  split <;> rfl

variable (keeps : ∀ block,
  (engine.runKept block).Keeps (World.SchedulerKept KeepsCalendar))

include keeps

/-- A pass starts a block that it comes to if the minute matches, and it starts no other block. -/
theorem exists_ok_startIfDue
    (ended : hasEnded (engine.startIfDue moment place task world) = true) :
    ∃ reached after, engine.startIfDue moment place task world = .ok () reached ∧
      reached.scheduler = some after ∧ before.scheduled <+: after.scheduled ∧
      ∀ other, after.minutes other =
        (if place = other ∧ task.fields.holds moment then [moment] else []) ++
          before.minutes other := by
  rw [startIfDue] at ended ⊢
  by_cases holds : task.fields.holds moment = true
  · rw [if_pos holds] at ended ⊢
    obtain ⟨reached, after, started, there, kept⟩ := exists_ok_start keeps present ended
    refine ⟨reached, after, started, there, kept.scheduled, fun other => ?_⟩
    rw [kept.minutes, minutes_start, Due.minute?]
    by_cases here : place = other <;> simp [here, holds]
  · rw [if_neg holds]
    refine ⟨world, before, rfl, present, prefix_refl _, fun other => ?_⟩
    rw [if_neg fun both => holds both.2]
    rfl

/-- From a place on, a pass over the calendar starts the blocks that its minute matches, among them
those that are added meanwhile, and each of them once. -/
theorem exists_ok_runScheduled (rounds first : Nat)
    (ended : hasEnded (engine.runScheduled moment rounds first world) = true) :
    ∃ reached after, engine.runScheduled moment rounds first world = .ok () reached ∧
      reached.scheduler = some after ∧ before.scheduled <+: after.scheduled ∧
      ∀ place, after.minutes place =
        (if first ≤ place ∧ after.isDueAt place moment then [moment] else []) ++
          before.minutes place := by
  induction rounds generalizing first world before with
  | zero => cases ended
  | succ rounds ih =>
    cases found : before.scheduled[first]? with
    | none =>
      refine ⟨world, before, runScheduled_none present found, present, prefix_refl _,
        fun place => ?_⟩
      rw [if_neg]
      · rfl
      · rintro ⟨reached, due⟩
        have inside := lt_of_isDueAt due
        have outside := List.getElem?_eq_none_iff.mp found
        omega
    | some task =>
      rw [runScheduled_some present found] at ended ⊢
      obtain ⟨between, midway, started, there, grown, starts⟩ :=
        exists_ok_startIfDue present keeps (hasEnded_of_bind ended)
      rw [bind_ok started] at ended ⊢
      obtain ⟨reached, after, passed, thereAfter, grownLater, startsLater⟩ :=
        ih there (first + 1) ended
      have inside : first < before.scheduled.length := (List.getElem?_eq_some_iff.mp found).1
      have stays : after.isDueAt first moment = task.fields.holds moment := by
        rw [isDueAt, getElem?_of_prefix (grown.trans grownLater) inside, found]
        rfl
      refine ⟨reached, after, passed, thereAfter, grown.trans grownLater, fun place => ?_⟩
      rw [startsLater, starts, ← append_assoc]
      congr 1
      -- The block at this place is started now or not at all, and every other one later.
      by_cases here : first = place
      · subst here
        rw [if_neg fun both => Nat.not_succ_le_self _ both.1, stays]
        simp
      · rw [if_neg fun both : first = place ∧ _ => here both.1, append_nil]
        refine if_congr (and_congr_left' ?_) rfl rfl
        omega

end Engine

/-! ### What a step starts -/

/-- A pass over the calendar, in the minute that it is made for. -/
structure CalendarPass where
  moment : Moment
  /-- How many blocks the pass goes over. -/
  reach : Nat

namespace Engine

/-- A step up to its pass over the calendar, and the minute of that pass. Without a time of its own,
the scheduler is left alone and there is no pass. -/
def untilCalendar (engine : Engine) (seconds : Value) : Run (Option Moment) := do
  if ← lookScheduler false isVirtual then
    let time ← ofExcept (later (← look schedulerTime) seconds)
    changeScheduler fun scheduler => { scheduler with time }
    engine.passDelayed schedulerTime
    engine.runRecurring schedulerTime engine.rounds 0
    engine.runJobs schedulerTime (← lookScheduler [] jobs)
    return some (← ofExcept (Moment.ofTime (← look schedulerTime)))
  else return none

/-- The pass over the calendar that a step makes, if it comes to it. -/
def calendarPass? (engine : Engine) (seconds : Value) (world : World) : Option CalendarPass :=
  match engine.untilCalendar seconds world with
  | .ok (some moment) _ =>
    let after := (final (engine.step seconds world)).scheduler
    some ⟨moment, (after.map fun scheduler => scheduler.scheduled.length).getD 0⟩
  | _ => none

theorem step_eq_untilCalendar (engine : Engine) (seconds : Value) :
    engine.step seconds = engine.untilCalendar seconds >>= fun found =>
      found.elim (pure ()) fun moment => engine.runScheduled moment engine.rounds 0 := by
  rw [step, untilCalendar, bind_assoc]
  refine bind_congr fun isVirtual => ?_
  cases isVirtual with
  | false => rfl
  | true => simp [runDue, runLasting, bind_assoc]

variable {engine : Engine} {seconds : Value} {world between : World} {moment : Moment}

/-- A step with a pass over the calendar goes on with that pass. -/
theorem step_of_untilCalendar
    (begun : engine.untilCalendar seconds world = .ok (some moment) between) :
    engine.step seconds world = engine.runScheduled moment engine.rounds 0 between := by
  rw [step_eq_untilCalendar]
  exact bind_ok begun

theorem calendarPass?_eq {after : Scheduler}
    (begun : engine.untilCalendar seconds world = .ok (some moment) between)
    (there : (final (engine.step seconds world)).scheduler = some after) :
    engine.calendarPass? seconds world = some ⟨moment, after.scheduled.length⟩ := by
  rw [calendarPass?, begun]
  dsimp only
  rw [there]
  rfl

end Engine

def CalendarPass.starts (pass : CalendarPass) (scheduler : Scheduler) (place : Nat) : Bool :=
  place < pass.reach && scheduler.isDueAt place pass.moment

variable {before : Scheduler}

theorem CalendarPass.starts_of_prefix {pass : CalendarPass} {after : Scheduler}
    (grown : before.scheduled <+: after.scheduled) (reach : pass.reach ≤ before.scheduled.length)
    (place : Nat) : pass.starts after place = pass.starts before place := by
  by_cases inside : place < pass.reach
  · rw [starts, starts, isDueAt, isDueAt,
      getElem?_of_prefix grown (Nat.lt_of_lt_of_le inside reach)]
  · rw [starts, starts, decide_eq_false inside]
    rfl

section

variable (settings : Settings) (depth : Nat)

/-- A block that waits for a span of time does not touch what the calendar has started. -/
theorem keepsCalendar_startEngine {due : Due} (other : ∀ place, due.minute? place = none) :
    ((ofDepth settings depth).start due).Keeps (World.SchedulerKept KeepsCalendar) :=
  have preserved := keepsCalendar_rules.preserved settings
  preserved.keeps_bind (keeps_changeScheduler fun scheduler => scheduler.keepsCalendar_start other)
    fun _ => preserved.keeps_runKept depth due.block

theorem spanRules_keepsCalendar :
    SpanRules (fun _ action _ => action.Keeps (World.SchedulerKept KeepsCalendar))
      (fun _ => True) (ofDepth settings depth) (ofDepth settings depth) where
  rounds := .refl _
  pure value := (keepsCalendar_rules.preserved settings).keeps_look fun _ => value
  exhausted _ := keepsCalendar_rules.of_eq rfl
  bind := (keepsCalendar_rules.preserved settings).keeps_bind
  startAgain _ _ _ := keepsCalendar_startEngine settings depth fun _ => rfl
  startJob _ _ _ := keepsCalendar_startEngine settings depth fun _ => rfl
  waiting _ _ _ _ _ always _ _ _ tail :=
    (keepsCalendar_rules.preserved settings).keeps_bind
      ((keepsCalendar_rules.preserved settings).keeps_look _) fun value =>
        tail value (always (fun _ => trivial) value)
  markRecurring _ _ := keeps_changeScheduler fun _ => keepsCalendar_of_eq rfl rfl
  markJob name serial time := keeps_changeScheduler fun scheduler =>
    scheduler.keepsCalendar_markJob name serial time

/-- Up to its pass over the calendar, a step starts no block of the calendar. -/
theorem keepsCalendar_untilCalendar (seconds : Value) :
    ((ofDepth settings depth).untilCalendar seconds).Keeps
      (World.SchedulerKept KeepsCalendar) := by
  have preserved := keepsCalendar_rules.preserved settings
  have law := spanRules_keepsCalendar settings depth
  have looks := preserved.keeps_look schedulerTime
  refine preserved.keeps_bind (preserved.keeps_look _) fun isVirtual => ?_
  cases isVirtual with
  | false => exact law.pure none
  | true =>
    refine preserved.keeps_bind looks fun now => ?_
    refine preserved.keeps_bind (preserved.keeps_inner (isInner_ofExcept _)) fun time => ?_
    refine preserved.keeps_bind
      (keeps_changeScheduler fun _ => keepsCalendar_of_eq rfl rfl) fun _ => ?_
    refine preserved.keeps_bind (@SpanRules.passDelayed _ _ _ _ law _ schedulerTime looks
      (fun _ _ => keepsCalendar_startEngine settings depth fun _ => rfl)
      fun _ => keeps_changeScheduler fun _ => keepsCalendar_of_eq rfl rfl) fun _ => ?_
    refine preserved.keeps_bind (@SpanRules.runRecurring _ _ _ _ law _ schedulerTime looks _ _
      law.rounds 0) fun _ => ?_
    refine preserved.keeps_bind (preserved.keeps_look _) fun jobs => ?_
    refine preserved.keeps_bind (@SpanRules.runJobs _ _ _ _ law _ schedulerTime looks jobs
      fun _ _ => trivial) fun _ => ?_
    refine preserved.keeps_bind looks fun date => ?_
    exact preserved.keeps_bind (preserved.keeps_inner (isInner_ofExcept _)) fun moment =>
      law.pure (some moment)

/-- What some passes over the calendar do to it: each of them starts the blocks that it comes to in a
minute that they match, each block once. -/
structure Scheduler.CalendarRun (before after : Scheduler) (passes : List CalendarPass) : Prop where
  scheduled : before.scheduled <+: after.scheduled
  reach : ∀ pass ∈ passes, pass.reach ≤ after.scheduled.length
  minutes (place : Nat) : after.minutes place =
    ((passes.filter (·.starts after place)).map CalendarPass.moment).reverse ++
      before.minutes place

namespace Scheduler

variable {before between after : Scheduler} {passes passesLater : List CalendarPass}

theorem KeepsCalendar.calendarRun (kept : before.KeepsCalendar after) :
    before.CalendarRun after [] where
  scheduled := kept.scheduled
  reach := forall_mem_nil _
  minutes := kept.minutes

theorem CalendarRun.append (first : before.CalendarRun between passes)
    (second : between.CalendarRun after passesLater) :
    before.CalendarRun after (passes ++ passesLater) where
  scheduled := first.scheduled.trans second.scheduled
  reach := forall_mem_append.mpr
    ⟨fun pass member => Nat.le_trans (first.reach pass member) second.scheduled.length_le,
      second.reach⟩
  minutes place := by
    -- A pass saw the same block at a place that it came to as is there later.
    have same : passes.filter (·.starts after place) = passes.filter (·.starts between place) :=
      filter_congr fun pass member =>
        CalendarPass.starts_of_prefix second.scheduled (first.reach pass member) place
    rw [second.minutes, first.minutes, filter_append, map_append, reverse_append,
      same, append_assoc]

end Scheduler

/-- A step that comes to an end starts the blocks of the calendar that its pass does. -/
theorem calendarRun_of_step {settings : Settings} {depth : Nat} {world : World}
    {before : Scheduler} {seconds : Value} (present : world.scheduler = some before)
    (ended : hasEnded ((ofDepth settings depth).step seconds world) = true) :
    ∃ after, (final ((ofDepth settings depth).step seconds world)).scheduler =
        some after ∧
      before.CalendarRun after ((ofDepth settings depth).calendarPass? seconds world).toList := by
  have kept := keepsCalendar_untilCalendar settings depth seconds world
  cases begun : (ofDepth settings depth).untilCalendar seconds world with
  | error exit between =>
    rw [begun] at kept
    obtain ⟨after, there, same⟩ := kept.exists_some present
    rw [calendarPass?, begun, step_eq_untilCalendar, bind_error begun]
    exact ⟨after, there, same.calendarRun⟩
  | ok found between =>
    rw [begun] at kept
    obtain ⟨midway, there, same⟩ := kept.exists_some present
    cases found with
    | none =>
      rw [calendarPass?, begun, step_eq_untilCalendar, bind_ok begun]
      exact ⟨midway, there, same.calendarRun⟩
    | some moment =>
      have there : between.scheduler = some midway := there
      have goesOn := step_of_untilCalendar begun
      rw [goesOn] at ended
      obtain ⟨reached, after, passed, thereAfter, grown, starts⟩ :=
        exists_ok_runScheduled there ((keepsCalendar_rules.preserved settings).keeps_runKept depth)
          _ 0 ended
      have final : (final ((ofDepth settings depth).step seconds world)).scheduler =
          some after := by
        rw [goesOn, passed]
        exact thereAfter
      refine ⟨after, final, ?_⟩
      rw [calendarPass?_eq begun final]
      refine ⟨same.scheduled.trans grown, fun pass isPass => ?_, fun place => ?_⟩
      · exact Nat.le_of_eq (congrArg CalendarPass.reach (mem_singleton.mp isPass))
      · rw [starts, same.minutes]
        congr 1
        by_cases due : after.isDueAt place moment = true
        · have inside := lt_of_isDueAt due
          simp [CalendarPass.starts, due, inside]
        · simp [CalendarPass.starts, due]

end

/-! ### What steps start one after another -/

/-- What steps make of a world, one after another, and the passes over the calendar that they make.
Every step comes to an end, with a result or with a fault, and the next one follows. -/
inductive Engine.Steps (engine : Engine) : World → List Value → List CalendarPass → World → Prop
  | nil (world : World) : Steps engine world [] [] world
  | cons {world after : World} {spans : List Value} {passes : List CalendarPass} (seconds : Value) :
    hasEnded (engine.step seconds world) = true →
      Steps engine (final (engine.step seconds world)) spans passes after →
      Steps engine world (seconds :: spans)
        ((engine.calendarPass? seconds world).toList ++ passes) after

theorem calendarRun_of_steps {settings : Settings} {depth : Nat} {world after : World}
    {spans : List Value} {passes : List CalendarPass}
    (stepped : (ofDepth settings depth).Steps world spans passes after)
    (present : world.scheduler = some before) :
    ∃ scheduler, after.scheduler = some scheduler ∧ before.CalendarRun scheduler passes := by
  induction stepped generalizing before with
  | nil world =>
    exact ⟨before, present, (keepsCalendar_rules.refl before).calendarRun⟩
  | cons seconds ended _ ih =>
    obtain ⟨between, there, first⟩ := calendarRun_of_step present ended
    obtain ⟨scheduler, thereAfter, later⟩ := ih there
    exact ⟨scheduler, thereAfter, first.append later⟩

/-- A block of the calendar is started once by each pass that comes to it in a minute that its
schedule matches, and never in another minute. So throughout any number of steps it is started at
most once in every minute exactly if no two of those passes fall in the same one. The steps are those
that end: none makes a call that is not described. -/
theorem started_once_a_minute_iff_passes_are_minutes_apart (settings : Settings) (depth : Nat)
    {world after : World} {before : Scheduler} {spans : List Value} {passes : List CalendarPass}
    (present : world.scheduler = some before)
    (stepped : (ofDepth settings depth).Steps world spans passes after) :
    ∃ scheduler, after.scheduler = some scheduler ∧ before.scheduled <+: scheduler.scheduled ∧
      ∀ place task, scheduler.scheduled[place]? = some task →
        ∃ minutes, scheduler.minutes place = minutes.reverse ++ before.minutes place ∧
          minutes = (passes.filter fun pass =>
            place < pass.reach && task.fields.holds pass.moment).map CalendarPass.moment ∧
          ((∀ minute, minutes.count minute ≤ 1) ↔
            (passes.filter fun pass => place < pass.reach && task.fields.holds pass.moment).Pairwise
              fun first second => first.moment ≠ second.moment) := by
  obtain ⟨scheduler, there, run⟩ := calendarRun_of_steps stepped present
  refine ⟨scheduler, there, run.scheduled, fun place task found => ?_⟩
  have starts (pass : CalendarPass) :
      pass.starts scheduler place = (place < pass.reach && task.fields.holds pass.moment) := by
    rw [CalendarPass.starts, isDueAt, found]
    rfl
  refine ⟨_, ?_, rfl, ?_⟩
  · rw [run.minutes, filter_congr fun pass _ => starts pass]
  · rw [← nodup_iff_count_le_one, List.Nodup, pairwise_map]

/-- In two steps of a minute each, a block that runs every minute is started in both minutes. -/
theorem started_once_a_minute_iff_passes_are_minutes_apart_in_two_steps :
    let settings : Settings := { permissions := ⟨fun permission => permission = .cron⟩ }
    let start : Beginning := { files := .bare, scheduler := some true }
    let world := (Operation.performAll settings start.world
      [.execute [.cron "every minute" [.print (.string "minute")]]]).2
    let engine := ofDepth settings ample
    let minute : Value := .number (.int 60)
    let once := final (engine.step minute world)
    let twice := final (engine.step minute once)
    ∃ before scheduler task passes, world.scheduler = some before ∧
      engine.Steps world [minute, minute] passes twice ∧ twice.scheduler = some scheduler ∧
      scheduler.scheduled[0]? = some task ∧
      scheduler.minutes 0 = [⟨1970, 1, 1, 0, 2, 3⟩, ⟨1970, 1, 1, 0, 1, 3⟩] ∧
      (passes.filter fun pass => 0 < pass.reach && task.fields.holds pass.moment).Pairwise
        fun first second => first.moment ≠ second.moment := by
  intro settings start world engine minute once twice
  have had : world.scheduler.map (fun scheduler => scheduler.minutes 0) = some [] := by
    decide +kernel
  obtain ⟨before, present, unstarted⟩ := Option.map_eq_some_iff.1 had
  have stepped : engine.Steps world [minute, minute] _ twice :=
    .cons minute (by decide +kernel) (.cons minute (by decide +kernel) (.nil _))
  obtain ⟨scheduler, there, -, each⟩ :=
    started_once_a_minute_iff_passes_are_minutes_apart settings ample present stepped
  have seen : twice.scheduler.map (fun scheduler =>
      (scheduler.scheduled.length, scheduler.minutes 0)) =
      some (1, [⟨1970, 1, 1, 0, 2, 3⟩, ⟨1970, 1, 1, 0, 1, 3⟩]) := by decide +kernel
  rw [there] at seen
  obtain ⟨length, started⟩ := Prod.mk.inj (Option.some.inj seen)
  have inside : 0 < scheduler.scheduled.length := by omega
  have found := List.getElem?_eq_getElem inside
  obtain ⟨minutes, all, -, apart⟩ := each 0 _ found
  refine ⟨before, scheduler, _, _, present, stepped, there, found, started, apart.mp ?_⟩
  rw [started, unstarted, append_nil] at all
  rw [← nodup_iff_count_le_one, ← nodup_reverse, ← all]
  decide

/-- Two steps of a tenth of a second fall in the same minute, and both of them start a block that
runs every minute. -/
theorem calendar_block_is_started_twice_in_a_minute :
    let settings : Settings := { permissions := ⟨fun permission => permission = .cron⟩ }
    let start : Beginning := { files := .bare, scheduler := some true }
    let session := Operation.performAll settings start.world
      [.execute [.cron "every minute" [.print (.string "minute")]], .step (.number (.float 0.1)) 2]
    (session.1.all fun outcome => outcome.exit.isNone) = true ∧
      (session.2.scheduler.map fun scheduler => scheduler.minutes 0) =
        some [⟨1970, 1, 1, 0, 0, 3⟩, ⟨1970, 1, 1, 0, 0, 3⟩] := by
  decide +kernel

end Parlance
