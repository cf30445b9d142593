import Parlance.Proofs.EventMeaning

/-!
What a program leaves alone for want of permission: the network, the files, what waits for its time
or for the calendar, what waits for a click, and servers.
-/

namespace Parlance

open Settings

def Settings.Lack (settings : Settings) (permission : Permission) : Prop :=
  settings.permissions.granted permission = false

namespace Settings

variable {settings : Settings}

theorem not_allow {activity : Permission} (alone : Permissions.enough activity = [activity])
    (lacking : settings.Lack activity) : ¬ settings.Allow activity := by
  rw [Allow, Permissions.allows, alone, List.any_cons, List.any_nil, lacking]
  exact Bool.false_ne_true

theorem not_allow_timers (timers : settings.Lack .timers) (graphics : settings.Lack .graphics) :
    ¬ settings.Allow .timers := by
  rw [Allow, Permissions.allows, Permissions.enough, List.any_cons, List.any_cons, List.any_nil,
    timers, graphics]
  exact Bool.false_ne_true

theorem not_allow_cron (cron : settings.Lack .cron) (timers : settings.Lack .timers) :
    ¬ settings.Allow .cron := by
  rw [Allow, Permissions.allows, Permissions.enough, List.any_cons, List.any_cons, List.any_nil,
    cron, timers]
  exact Bool.false_ne_true

theorem not_allow_files (files : settings.Lack .files) (packages : settings.Lack .packages) :
    ¬ (settings.Allow .files ∨ settings.Allow .packages) := by
  rintro (allowed | allowed)
  · exact not_allow rfl files allowed
  · exact not_allow rfl packages allowed

end Settings

/-! ### What is left alone -/

/-- Whether no block waits to run once, again and again, or as a job. -/
def World.HasNoTimers (world : World) : Prop :=
  ∀ scheduler ∈ world.scheduler,
    scheduler.delayed = [] ∧ scheduler.recurring = [] ∧ scheduler.jobs = []

/-- Whether no block waits for the calendar. -/
def World.HasNoSchedules (world : World) : Prop :=
  ∀ scheduler ∈ world.scheduler, scheduler.scheduled = []

/-- What stays as it is for want of permission. -/
structure Confined (settings : Settings) (before after : World) : Prop where
  requests : settings.Lack .network → after.outgoing = before.outgoing
  files : settings.Lack .files → settings.Lack .packages → after.files = before.files
  timers : settings.Lack .timers → settings.Lack .graphics → before.HasNoTimers →
    after.HasNoTimers
  schedules : settings.Lack .cron → settings.Lack .timers → before.HasNoSchedules →
    after.HasNoSchedules
  clicks : settings.Lack .graphics → after.screen = before.screen
  servers : settings.Lack .server → after.servers = before.servers

namespace Confined

variable {settings : Settings} (world : World)

theorem refl : Confined settings world world :=
  ⟨fun _ => rfl, fun _ _ => rfl, fun _ _ => id, fun _ _ => id, fun _ => rfl, fun _ => rfl⟩

theorem trans {before between after : World} (earlier : Confined settings before between)
    (later : Confined settings between after) : Confined settings before after where
  requests network := (later.requests network).trans (earlier.requests network)
  files files packages := (later.files files packages).trans (earlier.files files packages)
  timers timers graphics none := later.timers timers graphics (earlier.timers timers graphics none)
  schedules cron timers none := later.schedules cron timers (earlier.schedules cron timers none)
  clicks graphics := (later.clicks graphics).trans (earlier.clicks graphics)
  servers server := (later.servers server).trans (earlier.servers server)

/-- A change of the scheduler matters only for what waits. -/
theorem of_scheduler (scheduler : Option Scheduler)
    (timers : settings.Lack .timers → settings.Lack .graphics → world.HasNoTimers →
      World.HasNoTimers { world with scheduler })
    (schedules : settings.Lack .cron → settings.Lack .timers → world.HasNoSchedules →
      World.HasNoSchedules { world with scheduler }) :
    Confined settings world { world with scheduler } :=
  ⟨fun _ => rfl, fun _ _ => rfl, timers, schedules, fun _ => rfl, fun _ => rfl⟩

end Confined

/-- A change of the scheduler that leaves the calendar alone leaves it without schedules. -/
theorem World.HasNoSchedules.of_change {world : World} {scheduler changed : Scheduler}
    (present : world.scheduler = some scheduler) (same : changed.scheduled = scheduler.scheduled)
    (none : world.HasNoSchedules) :
    World.HasNoSchedules { world with scheduler := some changed } := by
  rintro _ ⟨⟩
  rw [same]
  exact none scheduler present

variable (settings : Settings)

/-- Programs leave alone what they have no permission for. -/
theorem preserved_confined : Preserved (Confined settings) settings where
  refl := Confined.refl
  trans := Confined.trans
  inner world inner := { Confined.refl world with }
  note world note := { Confined.refl world with }
  inward world _ _ := { Confined.refl world with }
  inScope scope action keeps world := by
    have inside := keeps (world.enter scope)
    rw [Run.final_inScope, World.leave]
    split <;> exact { inside with }
  network world replies outgoing allowed :=
    { Confined.refl world with
      requests := fun network => absurd allowed (not_allow rfl network) }
  files world files allowed :=
    { Confined.refl world with
      files := fun files packages => absurd allowed (not_allow_files files packages) }
  packages world packages allowed := { Confined.refl world with }
  sleep world span allowed := { Confined.refl world with }
  time world scheduler time allowed present _ := by
    refine Confined.of_scheduler world _ (fun timers graphics => ?_) fun _ _ =>
      World.HasNoSchedules.of_change present rfl
    exact absurd allowed (not_allow_timers timers graphics)
  timer world scheduler change allowed isTimer present := by
    refine Confined.of_scheduler world _ (fun timers graphics => ?_) fun _ _ =>
      World.HasNoSchedules.of_change present (isTimer.scheduled_eq world.reading scheduler)
    exact absurd allowed (not_allow_timers timers graphics)
  stopping world scheduler name present := by
    refine Confined.of_scheduler world _ (fun _ _ none => ?_) fun _ _ =>
      World.HasNoSchedules.of_change present rfl
    rintro _ ⟨⟩
    obtain ⟨delayed, recurring, jobs⟩ := none scheduler present
    refine ⟨delayed, recurring, ?_⟩
    show scheduler.jobs.erase name = []
    rw [jobs]
    rfl
  calendar world scheduler task allowed present := by
    refine Confined.of_scheduler world _ (fun _ _ none => ?_) fun cron timers => ?_
    · rintro _ ⟨⟩
      exact none scheduler present
    · exact absurd allowed (not_allow_cron cron timers)
  screen world screen allowed :=
    { Confined.refl world with
      clicks := fun graphics => absurd allowed (not_allow rfl graphics) }
  server world port allowed :=
    { Confined.refl world with
      servers := fun server => absurd allowed (not_allow rfl server) }
  answer world reply allowed := { Confined.refl world with }

/-- What happens between the runs of a program leaves the same things alone. -/
theorem eventCongruence_confined :
    EventCongruence (fun _ action _ => action.Keeps (Confined settings)) settings settings where
  toCongruence := (preserved_confined settings).congruence
  undisturbed := (preserved_confined settings).keeps_handled handles_undisturbed
  lookTime view := (preserved_confined settings).keeps_look _
  changeScheduler change tidying world := by
    refine Confined.of_scheduler world _ (fun _ _ none => ?_) fun _ _ none => ?_
    · rintro _ present
      obtain ⟨scheduler, before, rfl⟩ := Option.map_eq_some_iff.mp present
      obtain ⟨delayed, recurring, jobs⟩ := none scheduler before
      obtain ⟨tidyDelayed, tidyRecurring, tidyJobs, -⟩ := tidying scheduler
      exact ⟨tidyDelayed delayed, tidyRecurring recurring, tidyJobs jobs⟩
    · rintro _ present
      obtain ⟨scheduler, before, rfl⟩ := Option.map_eq_some_iff.mp present
      rw [(tidying scheduler).2.2.2]
      exact none scheduler before
  sleep span world := { Confined.refl world with }

/-! ### Time stands still -/

/-- Whether no time has passed: neither on the clock nor for a scheduler with a time of its own. -/
structure SameTime (before after : World) : Prop where
  clock : after.clock = before.clock
  sleeps : after.sleeps = before.sleeps
  time : after.scheduler.map Scheduler.time = before.scheduler.map Scheduler.time

theorem SameTime.refl (world : World) : SameTime world world := ⟨rfl, rfl, rfl⟩

/-- Without timers and graphics no program lets time pass. -/
theorem preserved_sameTime {settings : Settings} (timers : settings.Lack .timers)
    (graphics : settings.Lack .graphics) : Preserved SameTime settings where
  refl := SameTime.refl
  trans earlier later := ⟨later.clock.trans earlier.clock, later.sleeps.trans earlier.sleeps,
    later.time.trans earlier.time⟩
  inner _ _ := ⟨rfl, rfl, rfl⟩
  note _ _ := ⟨rfl, rfl, rfl⟩
  inward _ _ _ := ⟨rfl, rfl, rfl⟩
  inScope scope action keeps world := by
    have inside := keeps (world.enter scope)
    rw [Run.final_inScope, World.leave]
    split <;> exact { inside with }
  network _ _ _ _ := ⟨rfl, rfl, rfl⟩
  files _ _ _ := ⟨rfl, rfl, rfl⟩
  packages _ _ _ := ⟨rfl, rfl, rfl⟩
  sleep _ _ allowed := absurd allowed (not_allow_timers timers graphics)
  time _ _ _ allowed _ _ := absurd allowed (not_allow_timers timers graphics)
  timer _ _ _ allowed _ _ := absurd allowed (not_allow_timers timers graphics)
  stopping world scheduler name present := ⟨rfl, rfl, by rw [present]; rfl⟩
  calendar world scheduler task _ present := ⟨rfl, rfl, by rw [present]; rfl⟩
  screen _ _ _ := ⟨rfl, rfl, rfl⟩
  server _ _ _ := ⟨rfl, rfl, rfl⟩
  answer _ _ _ := ⟨rfl, rfl, rfl⟩

end Parlance
