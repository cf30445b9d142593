import Mathlib.Logic.Relation
import Parlance.Proofs.CalendarStarts
import Parlance.Proofs.Depths
import Parlance.Proofs.Renewals

/-!
Whether events come to an end. The passes over what runs once and over the jobs go over a list that
is fixed when they begin; the other three go by places, and what the blocks register meanwhile is
looked at, too. An event is followed look by look here.
-/

namespace Parlance

open Engine Run

/-! ### Looks -/

/-- What an event looks at next: one of the blocks that are left of a fixed list, or the block at a
place. -/
inductive Stage where
  | once (tasks : List Delayed)
  | again (place : Nat)
  | jobs (jobs : List (String × Job))
  | calendar (moment : Moment) (place : Nat)
  | clicks (x y : Value) (place : Nat)

namespace Stage

/-- The place that is looked at, if the pass goes by places. -/
def place : Stage → Nat
  | .again place | .calendar _ place | .clicks _ _ place => place
  | .once _ | .jobs _ => 0

/-- How many blocks there are in the list that the pass goes over by places. -/
def extent (world : World) : Stage → Nat
  | .again _ => (world.scheduler.map fun scheduler => scheduler.recurring.length).getD 0
  | .calendar _ _ => (world.scheduler.map fun scheduler => scheduler.scheduled.length).getD 0
  | .clicks _ _ _ => (world.screen.getD []).length
  | .once _ | .jobs _ => 0

/-- Whether a pass with so many rounds has one left. A pass over a fixed list needs none. -/
def HasRounds (rounds : Nat) : Stage → Prop
  | .again place | .calendar _ place | .clicks _ _ place => place < rounds
  | .once _ | .jobs _ => True

end Stage

namespace Engine

def runAgain (engine : Engine) (place : Nat) (task : Recurring) : Run Unit := do
  if task.lastRun + task.interval ≤ (← look schedulerTime) then
    engine.start (.again place task)
    let now ← look schedulerTime
    changeScheduler fun scheduler => scheduler.markRecurring place now

def runJob (engine : Engine) (name : String) (job : Job) : Run Unit := do
  if job.lastRun + job.interval ≤ (← look schedulerTime) then
    engine.start (.job name job)
    let now ← look schedulerTime
    changeScheduler fun scheduler => scheduler.markJob name job.serial now

def runClick (engine : Engine) (x y : Value) (handler : ClickHandler) : Run Unit := do
  setVariable "mouse" (← newDictionary [(.string "x", x), (.string "y", y)])
  engine.runKept handler.block

/-- One look: runs a block if it is due. What is looked at next, if the event is not over. -/
def proceed (engine : Engine) : Stage → Run (Option Stage)
  | .once [] => return some (.again 0)
  | .once (task :: rest) => do
    engine.examine schedulerTime task
    return some (.once rest)
  | .again place => do
    match ← lookScheduler none fun scheduler => scheduler.recurring[place]? with
    | none => return some (.jobs (← lookScheduler [] Scheduler.jobs))
    | some task =>
      engine.runAgain place task
      return some (.again (place + 1))
  | .jobs [] => do
    return some (.calendar (← ofExcept (Moment.ofTime (← look schedulerTime))) 0)
  | .jobs ((name, job) :: rest) => do
    engine.runJob name job
    return some (.jobs rest)
  | .calendar moment place => do
    match ← lookScheduler none fun scheduler => scheduler.scheduled[place]? with
    | none => return none
    | some task =>
      engine.startIfDue moment place task
      return some (.calendar moment (place + 1))
  | .clicks x y place => do
    match ← look fun world => (world.screen.getD [])[place]? with
    | none => return none
    | some handler =>
      engine.runClick x y handler
      return some (.clicks x y (place + 1))

/-- What is left of an event, with the rounds that are left. -/
def resume (engine : Engine) : Stage → Run Unit
  | .once tasks => do
    engine.runDelayed schedulerTime tasks
    engine.runLasting schedulerTime schedulerTime
  | .again place => do
    engine.runRecurring schedulerTime (engine.rounds - place) place
    engine.runJobs schedulerTime (← lookScheduler [] Scheduler.jobs)
    let moment ← ofExcept (Moment.ofTime (← look schedulerTime))
    engine.runScheduled moment engine.rounds 0
  | .jobs jobs => do
    engine.runJobs schedulerTime jobs
    let moment ← ofExcept (Moment.ofTime (← look schedulerTime))
    engine.runScheduled moment engine.rounds 0
  | .calendar moment place => engine.runScheduled moment (engine.rounds - place) place
  | .clicks x y place => engine.runClicks x y (engine.rounds - place) place

variable {engine : Engine} {stage : Stage}

/-- As long as there are rounds, what is left of an event is a look and what is left then. -/
theorem resume_eq (inside : stage.HasRounds engine.rounds) : engine.resume stage =
      engine.proceed stage >>= fun next => next.elim (pure ()) engine.resume := by
  have rounds (place : Nat) (within : place < engine.rounds) :
      engine.rounds - place = engine.rounds - (place + 1) + 1 := by omega
  cases stage with
  | once tasks =>
    cases tasks with
    | nil => simp [resume, proceed, runDelayed, runLasting]
    | cons task rest => simp [resume, proceed, runDelayed, bind_assoc]
  | again place =>
    simp only [resume, proceed, rounds place inside, runRecurring, bind_assoc]
    refine bind_congr fun found => ?_
    cases found with
    | none => simp [resume]
    | some task =>
      simp only [runAgain, bind_assoc]
      refine bind_congr fun now => ?_
      split <;> simp [resume, bind_assoc]
  | jobs jobs =>
    cases jobs with
    | nil => simp [resume, proceed, runJobs]
    | cons entry rest =>
      simp only [resume, proceed, runJobs, runJob, bind_assoc]
      refine bind_congr fun now => ?_
      split <;> simp [resume, bind_assoc]
  | calendar moment place =>
    simp only [resume, proceed, rounds place inside, runScheduled, bind_assoc]
    refine bind_congr fun found => ?_
    cases found with
    | none => simp
    | some task =>
      simp only [startIfDue]
      split <;> simp [resume]
  | clicks x y place =>
    simp only [resume, proceed, rounds place inside, runClicks, bind_assoc]
    refine bind_congr fun found => ?_
    cases found with
    | none => simp
    | some handler => simp [resume, runClick, bind_assoc]

/-- If what is left of an event comes to an end, then there are rounds for it. -/
theorem hasRounds_of_resume {world : World}
    (ended : hasEnded (engine.resume stage world) = true) : stage.HasRounds engine.rounds := by
  cases stage with
  | once tasks | jobs rest => trivial
  | again place | calendar moment place | clicks x y place =>
    by_contra beyond
    have usedUp : engine.rounds - place = 0 := Nat.sub_eq_zero_of_le (Nat.le_of_not_lt beyond)
    rw [resume, usedUp] at ended
    exact absurd ended Bool.false_ne_true

end Engine

/-! ### What follows a look -/

/-- What an event can look at after a look in a world. -/
inductive Stage.Next (world : World) : Stage → Stage → Prop
  | fromOnce : Next world (.once []) (.again 0)
  | once (task : Delayed) (rest : List Delayed) : Next world (.once (task :: rest)) (.once rest)
  | again (place : Nat) : place < (Stage.again place).extent world →
    Next world (.again place) (.again (place + 1))
  | fromAgain (place : Nat) (jobs : List (String × Job)) : Next world (.again place) (.jobs jobs)
  | job (job : String × Job) (rest : List (String × Job)) :
    Next world (.jobs (job :: rest)) (.jobs rest)
  | fromJobs (moment : Moment) : Next world (.jobs []) (.calendar moment 0)
  | calendar (moment : Moment) (place : Nat) : place < (Stage.calendar moment place).extent world →
    Next world (.calendar moment place) (.calendar moment (place + 1))
  | clicks (x y : Value) (place : Nat) : place < (Stage.clicks x y place).extent world →
    Next world (.clicks x y place) (.clicks x y (place + 1))

variable {world : World}

theorem Run.eq_of_bind_pure {α β : Type} {action : Run α} {result value : β} {after : World}
    (ended : (action >>= fun _ => Pure.pure result) world = .ok value after) : result = value := by
  cases begun : action world with
  | ok first between =>
    rw [bind_ok begun] at ended
    cases ended
    rfl
  | error exit between =>
    rw [bind_error begun] at ended
    cases ended

namespace Engine

variable {world : World}

theorem lt_of_lookScheduler {α : Type} {list : Scheduler → List α} {place : Nat} {found : α}
    (there : ((world.scheduler.map fun scheduler => (list scheduler)[place]?).getD none) =
      some found) :
    place < (world.scheduler.map fun scheduler => (list scheduler).length).getD 0 := by
  generalize world.scheduler = result at there ⊢
  cases result with
  | none => cases there
  | some scheduler => exact (List.getElem?_eq_some_iff.mp there).1

theorem next_of_proceed {engine : Engine} {stage next : Stage} {after : World}
    (looked : engine.proceed stage world = .ok (some next) after) : stage.Next world next := by
  cases stage with
  | once tasks =>
    cases tasks with
    | nil =>
      cases looked
      exact .fromOnce
    | cons task rest =>
      cases eq_of_bind_pure looked
      exact .once task rest
  | again place =>
    rw [proceed, lookScheduler, look_bind] at looked
    generalize found : Option.getD _ none = task at looked
    cases task with
    | none =>
      cases looked
      exact .fromAgain place _
    | some task =>
      cases eq_of_bind_pure looked
      exact .again place (lt_of_lookScheduler found)
  | jobs jobs =>
    cases jobs with
    | nil =>
      rw [proceed, look_bind] at looked
      generalize Moment.ofTime (schedulerTime world) = result at looked ⊢
      cases result with
      | ok moment =>
        cases looked
        exact .fromJobs moment
      | error cause => cases looked
    | cons entry rest =>
      cases eq_of_bind_pure looked
      exact .job entry rest
  | calendar moment place =>
    rw [proceed, lookScheduler, look_bind] at looked
    generalize found : Option.getD _ none = task at looked
    cases task with
    | none => cases looked
    | some task =>
      cases eq_of_bind_pure looked
      exact .calendar moment place (lt_of_lookScheduler found)
  | clicks x y place =>
    rw [proceed, look_bind] at looked
    generalize found : (world.screen.getD [])[place]? = handler at looked
    cases handler with
    | none => cases looked
    | some handler =>
      cases eq_of_bind_pure looked
      exact .clicks x y place (List.getElem?_eq_some_iff.mp found).1

end Engine

/-! ### Depths -/

section

variable (settings : Settings) {few many : Nat} (fewer : few ≤ many)

include fewer

variable (stage : Stage)

/-- What a look comes to down to some depth, it comes to down to every greater one. -/
theorem settles_proceed : ((ofDepth settings few).proceed stage).Settles
      ((ofDepth settings many).proceed stage) := by
  have parts := settles_ofDepth settings fewer
  have law := (settles_congruence settings).rules parts
  have start := (settles_congruence settings).start parts
  cases stage with
  | once tasks =>
    cases tasks with
    | nil => exact .refl _
    | cons task rest =>
      exact .bind (law.examine (.refl _) (fun task _ => start (.once task)) (fun _ => .refl _) task
        trivial) fun _ => .refl _
  | again place =>
    refine .bind (.refl _) fun found => ?_
    cases found with
    | none => exact .refl _
    | some task =>
      refine .bind (.bind (.refl _) fun now => ?_) fun _ => .refl _
      split
      · exact .bind (start (.again place task)) fun _ => .refl _
      · exact .refl _
  | jobs jobs =>
    cases jobs with
    | nil => exact .refl _
    | cons entry rest =>
      refine .bind (.bind (.refl _) fun now => ?_) fun _ => .refl _
      split
      · exact .bind (start (.job entry.1 entry.2)) fun _ => .refl _
      · exact .refl _
  | calendar moment place =>
    refine .bind (.refl _) fun found => ?_
    cases found with
    | none => exact .refl _
    | some task =>
      refine .bind ?_ fun _ => .refl _
      rw [startIfDue, startIfDue]
      split
      · exact start (.byCalendar moment place task)
      · exact .refl _
  | clicks x y place =>
    refine .bind (.refl _) fun found => ?_
    cases found with
    | none => exact .refl _
    | some handler =>
      exact .bind (.bind (.refl _) fun _ => .bind (.refl _) fun _ => law.runKept handler.block
        trivial)
        fun _ => .refl _

theorem settles_resume : ((ofDepth settings few).resume stage).Settles
      ((ofDepth settings many).resume stage) := by
  have parts := settles_ofDepth settings fewer
  have law := (settles_congruence settings).rules parts
  have start := (settles_congruence settings).start parts
  have left (place : Nat) : RoundsRelated (fun _ one other => one.Settles other)
      ((ofDepth settings few).rounds - place)
      ((ofDepth settings many).rounds - place) :=
    .of_le .usedUp (Nat.sub_le_sub_right fewer place)
  cases stage with
  | once tasks =>
    exact .bind (law.runDelayed (.refl _) (fun task _ => start (.once task)) (fun _ => .refl _) tasks
      fun _ _ => trivial) fun _ => law.runLasting (.refl _) (.refl _)
  | again place =>
    exact .bind (law.runRecurring (.refl _) (left place) place) fun _ => .bind (.refl _) fun jobs =>
      .bind (law.runJobs (.refl _) jobs fun _ _ => trivial) fun _ =>
        .bind (.refl _) fun _ => .bind (.refl _)
        fun moment => law.runScheduled moment law.rounds 0
  | jobs jobs =>
    exact .bind (law.runJobs (.refl _) jobs fun _ _ => trivial) fun _ =>
      .bind (.refl _) fun _ => .bind (.refl _)
      fun moment => law.runScheduled moment law.rounds 0
  | calendar moment place => exact law.runScheduled moment (left place) place
  | clicks x y place => exact law.runClicks x y (left place) place

end

/-! ### Events that come to an end -/

/-- Whether what is left of an event comes to an end: each look does, and there is a last one. -/
inductive Stage.Ends (settings : Settings) : Stage → World → Prop
  | look {stage : Stage} {world : World} (depth : Nat) :
    hasEnded ((ofDepth settings depth).proceed stage world) = true →
    (∀ next after, (ofDepth settings depth).proceed stage world = .ok (some next) after →
      Ends settings next after) →
    Ends settings stage world

namespace Stage

/-- How much is left of an event, if places go up to a bound: the passes that follow count more than
what is left of the pass. -/
def weight (bound : Nat) : Stage → Nat × Nat
  | .once tasks => (3, tasks.length)
  | .again place => (2, bound - place)
  | .jobs rest => (1, rest.length)
  | .calendar _ place | .clicks _ _ place => (0, bound - place)

variable {world : World} {stage next : Stage}

theorem Next.lighter {bound : Nat} (follows : stage.Next world next) (within : next.place ≤ bound) :
    Prod.Lex (· < ·) (· < ·) (next.weight bound) (stage.weight bound) := by
  cases follows with
  | fromOnce | fromAgain | fromJobs => exact .left _ _ (by decide)
  | once task rest | job entry rest => exact .right _ (Nat.lt_succ_self _)
  | again place | calendar moment place | clicks x y place =>
    exact .right _ (Nat.sub_succ_lt_self _ _ within)

/-- A place that follows a look is within the list that the pass goes over. -/
theorem Next.place_le (follows : stage.Next world next) : next.place ≤ stage.extent world := by
  cases follows with
  | again place inside | calendar moment place inside | clicks x y place inside => exact inside
  | _ => exact Nat.zero_le _

variable {settings : Settings} {stage : Stage} {world : World} {depth rounds : Nat}

theorem HasRounds.place_le (left : stage.HasRounds rounds) : stage.place ≤ rounds := by
  cases stage with
  | once tasks | jobs rest => exact Nat.zero_le _
  | again place | calendar moment place | clicks x y place => exact Nat.le_of_lt left

theorem HasRounds.of_place_lt (left : stage.place < rounds) : stage.HasRounds rounds := by
  cases stage with
  | once tasks | jobs rest => trivial
  | again place | calendar moment place | clicks x y place => exact left

/-- What comes to an end down to some depth comes to an end look by look. -/
theorem ends_of_resume (ended : hasEnded ((ofDepth settings depth).resume stage world) = true) :
    stage.Ends settings world := by
  induction weight : stage.weight depth using (Prod.lex Nat.lt_wfRel Nat.lt_wfRel).wf.induction
    generalizing stage world with
  | h _ ih =>
    subst weight
    rw [resume_eq (hasRounds_of_resume ended)] at ended
    refine .look depth (hasEnded_of_bind ended) fun next after looked => ?_
    rw [bind_ok looked] at ended
    have left : next.HasRounds depth := hasRounds_of_resume ended
    exact ih _ ((next_of_proceed looked).lighter left.place_le) ended rfl

/-- A look goes on to one look at most, so a number that serves it serves all that may follow. -/
theorem exists_for_next {outcome : EStateM.Result Exit World (Option Stage)}
    {serves : Nat → Stage → World → Prop}
    (each : ∀ next after, outcome = .ok (some next) after → ∃ number, serves number next after) :
    ∃ number, ∀ next after, outcome = .ok (some next) after → serves number next after := by
  by_cases goesOn : ∃ next after, outcome = .ok (some next) after
  · obtain ⟨next, after, found⟩ := goesOn
    obtain ⟨number, serving⟩ := each next after found
    refine ⟨number, fun other reached same => ?_⟩
    cases found.symm.trans same
    exact serving
  · exact ⟨0, fun next after found => absurd ⟨next, after, found⟩ goesOn⟩

/-- What comes to an end look by look comes to an end down to some depth. -/
theorem Ends.exists_resume (ends : stage.Ends settings world) :
    ∃ depth, hasEnded ((ofDepth settings depth).resume stage world) = true := by
  induction ends with
  | @look stage world depth ended rest ih =>
    obtain ⟨later, goesOn⟩ := exists_for_next ih
    -- A depth that is enough for the look and for what follows, and that leaves a round.
    obtain ⟨deep, enough, enoughLater, inside⟩ : ∃ deep, depth ≤ deep ∧ later ≤ deep ∧
        stage.place < deep := ⟨depth + later + stage.place + 1, by omega, by omega, by omega⟩
    have looked := settles_proceed settings enough stage world (isExhausted_of_hasEnded ended)
    refine ⟨deep, ?_⟩
    rw [resume_eq (.of_place_lt inside)]
    refine hasEnded_bind (by rw [looked]; exact ended) fun found after same => ?_
    cases found with
    | none => rfl
    | some next =>
      have endedLater := goesOn next after (looked.symm.trans same)
      have settled := settles_resume settings enoughLater next after
        (isExhausted_of_hasEnded endedLater)
      rw [Option.elim, settled]
      exact endedLater

/-! ### Looks that are reached -/

/-- Whether an event goes from one look to another. -/
def Leads (settings : Settings) (first second : Stage × World) : Prop :=
  ∃ depth, (ofDepth settings depth).proceed first.1 first.2 = .ok (some second.1) second.2

/-- Whether an event comes to a look, sooner or later. -/
abbrev Reaches (settings : Settings) : Stage × World → Stage × World → Prop :=
  Relation.ReflTransGen (Leads settings)

/-- Whether every look that an event comes to ends. A look runs one block at most, so this says that
every single run of a block comes to an end. -/
def EachLookEnds (settings : Settings) (stage : Stage) (world : World) : Prop :=
  ∀ reached, Reaches settings (stage, world) reached →
    ∃ depth, hasEnded ((ofDepth settings depth).proceed reached.1 reached.2) = true

/-- Whether the lists that an event goes over by places stay within a bound while it does so. -/
def StaysBounded (settings : Settings) (stage : Stage) (world : World) : Prop :=
  ∃ bound, ∀ reached, Reaches settings (stage, world) reached →
    reached.1.extent reached.2 ≤ bound

/-- What a look that has ended leads to is what it leads to down to every depth. -/
theorem proceed_of_leads {reached : Stage × World}
    (ended : hasEnded ((ofDepth settings depth).proceed stage world) = true)
    (leads : Leads settings (stage, world) reached) :
    (ofDepth settings depth).proceed stage world = .ok (some reached.1) reached.2 := by
  obtain ⟨other, looked⟩ := leads
  have here := settles_proceed settings (Nat.le_max_left depth other) stage world
    (isExhausted_of_hasEnded ended)
  have there := settles_proceed settings (Nat.le_max_right depth other) stage world
    (by rw [looked]; rfl)
  exact (here.symm.trans there).trans looked

theorem Ends.eachLookEnds (ends : stage.Ends settings world) :
    stage.EachLookEnds settings world := by
  induction ends with
  | @look stage world depth ended rest ih =>
    intro reached reaches
    rcases Relation.ReflTransGen.cases_head reaches with rfl | ⟨between, leads, later⟩
    · exact ⟨depth, ended⟩
    · exact ih _ _ (proceed_of_leads ended leads) reached later

theorem Ends.staysBounded (ends : stage.Ends settings world) :
    stage.StaysBounded settings world := by
  induction ends with
  | @look stage world depth ended rest ih =>
    obtain ⟨bound, within⟩ := exists_for_next ih
    refine ⟨max (stage.extent world) bound, fun reached reaches => ?_⟩
    rcases Relation.ReflTransGen.cases_head reaches with rfl | ⟨between, leads, later⟩
    · exact Nat.le_max_left _ _
    · exact Nat.le_trans (within _ _ (proceed_of_leads ended leads) reached later)
        (Nat.le_max_right _ _)

/-- If each look ends and the lists stay within a bound, then there is a last look: each look leaves
less to be done. -/
theorem ends_of_staysBounded
    (each : stage.EachLookEnds settings world) (bounded : stage.StaysBounded settings world) :
    stage.Ends settings world := by
  obtain ⟨bound, within⟩ := bounded
  induction weight : stage.weight bound using (Prod.lex Nat.lt_wfRel Nat.lt_wfRel).wf.induction
    generalizing stage world with
  | h _ ih =>
    subst weight
    obtain ⟨depth, ended⟩ := each _ .refl
    refine .look depth ended fun next after looked => ?_
    have follows := next_of_proceed looked
    have reached : Leads settings (stage, world) (next, after) := ⟨depth, looked⟩
    exact ih _ (follows.lighter (Nat.le_trans follows.place_le (within _ .refl)))
      (fun other later => each other (.head reached later))
      (fun other later => within other (.head reached later)) rfl

/-- An event never ends if it has come to one of some looks, and each of them ends and leads to
another one of them. -/
theorem endless_of_goesOn (holds : Stage → World → Prop)
    (goesOn : ∀ stage world, holds stage world → ∃ depth next after,
      (ofDepth settings depth).proceed stage world = .ok (some next) after ∧
        holds next after)
    (there : holds stage world) :
    stage.EachLookEnds settings world ∧ ¬ stage.Ends settings world := by
  refine ⟨fun reached reaches => ?_, fun ends => ?_⟩
  · have still : holds reached.1 reached.2 := by
      induction reaches with
      | refl => exact there
      | @tail between last _ leads ih =>
        obtain ⟨depth, next, after, looked, follows⟩ := goesOn _ _ ih
        have ended : hasEnded ((ofDepth settings depth).proceed between.1 between.2) = true := by
          rw [looked]
          rfl
        cases looked.symm.trans (proceed_of_leads ended leads)
        exact follows
    obtain ⟨depth, next, after, looked, _⟩ := goesOn _ _ still
    refine ⟨depth, ?_⟩
    rw [looked]
    rfl
  · induction ends with
    | @look stage world depth ended rest ih =>
      obtain ⟨other, next, after, looked, follows⟩ := goesOn _ _ there
      have leads : Leads settings (stage, world) (next, after) := ⟨other, looked⟩
      exact ih next after (proceed_of_leads ended leads) follows

theorem ends_iff : stage.Ends settings world ↔
    stage.EachLookEnds settings world ∧ stage.StaysBounded settings world :=
  ⟨fun ends => ⟨ends.eachLookEnds, ends.staysBounded⟩,
    fun both => ends_of_staysBounded both.1 both.2⟩

theorem exists_resume_iff (stage : Stage) (world : World) :
    (∃ depth, hasEnded ((ofDepth settings depth).resume stage world) = true) ↔
      stage.EachLookEnds settings world ∧ stage.StaysBounded settings world := by
  rw [← ends_iff]
  exact ⟨fun ⟨_, ended⟩ => ends_of_resume ended, Ends.exists_resume⟩

end Stage

/-! ### Looks at functions that keep calls of themselves -/

section Renewal

variable {settings : Settings} {name : String} {scheduler : Scheduler}

/-- Whether an event by the time of the scheduler has come to a due call of a function that keeps a
call of itself, and that call is the last of the blocks that run again and again. -/
structure RenewsAt (name : String) (time : Float) (place : Nat) (world : World) : Prop where
  renews : world.Renews name
  handsDown : world.capturesLibrary = false
  isLast : ∃ scheduler edition, world.scheduler = some scheduler ∧ scheduler.isVirtual = true ∧
    scheduler.time = time ∧ scheduler.recurring.length = place + 1 ∧
    ∃ task, scheduler.recurring[place]? = some task ∧ task.lastRun + task.interval ≤ time ∧
      task.block = ⟨edition, [.call name []]⟩

variable {world : World} {time : Float} {place : Nat}

/-- The first block of a scheduler with a time of its own can be such a call. -/
theorem renewsAt_first (renews : world.Renews name) (handsDown : world.capturesLibrary = false)
    (byHand : scheduler.isVirtual = true) (idle : scheduler.recurring = [])
    (due : scheduler.time + 0 ≤ time) (clock : Float) (kept : Edition) :
    RenewsAt name time 0 { world with
      scheduler := some { scheduler.addRecurring clock 0 ⟨kept, [.call name []]⟩ with time } } := by
  refine ⟨renews, handsDown, _, kept, rfl, byHand, rfl, ?_, ⟨0, scheduler.now clock, _⟩, ?_, ?_,
    rfl⟩
  · show (scheduler.recurring ++ [_]).length = _
    rw [idle]
    rfl
  · show (scheduler.recurring ++ [_])[0]? = _
    rw [idle]
    rfl
  · rw [Scheduler.now, if_pos byHand]
    exact due

/-- A block that is registered stands behind the others, whatever is noted of one of those. -/
theorem getElem?_recurring_of_length (scheduler : Scheduler)
    (length : scheduler.recurring.length = place + 1) (clock seconds time : Float) (block : Block) :
    let after := (scheduler.addRecurring clock seconds block).markRecurring place time
    after.recurring.length = place + 2 ∧
      after.recurring[place + 1]? = some ⟨seconds, scheduler.now clock, block⟩ := by
  constructor
  · show (List.modify (scheduler.recurring ++ [_]) place _).length = _
    rw [List.length_modify, List.length_append, length, List.length_singleton]
  · show (List.modify (scheduler.recurring ++ [_]) place _)[place + 1]? = _
    rw [List.getElem?_modify_ne _ _ (show place ≠ place + 1 by omega), ← length,
      List.getElem?_concat_length]

variable (allowed : settings.permissions.allows .timers = true)
  (own : Builtin.ofName? name = none)

include allowed own

/-- A look at a due call of a function that keeps a call of itself. -/
theorem exists_runAgain_renewal (renews : world.Renews name)
    (handsDown : world.capturesLibrary = false) (present : world.scheduler = some scheduler)
    (place : Nat) {task : Recurring} (due : task.lastRun + task.interval ≤ scheduler.time)
    {edition : Edition} (block : task.block = ⟨edition, [.call name []]⟩) :
    ∃ kept, (ofDepth settings 3).runAgain place task world = .ok () { world with
      editions := world.editions + 1
      scheduler := some (((scheduler.start (.again place task)).addRecurring world.reading 0
        ⟨kept, [.call name []]⟩).markRecurring place scheduler.time) } := by
  obtain ⟨kept, ran⟩ := exists_runKept_renewal allowed
    { world with scheduler := some (scheduler.start (.again place task)) } rfl own handsDown renews
    edition
  have started := start_eq (ofDepth settings 3) (.again place task) present
  rw [Due.block, block, ran] at started
  refine ⟨kept, ?_⟩
  rw [runAgain, look_bind, schedulerTime_eq present, if_pos due, bind_ok started]
  rfl

/-- A look at such a call keeps another one behind it. -/
theorem RenewsAt.exists_proceed (atOnce : time + 0 ≤ time)
    (there : RenewsAt name time place world) :
    ∃ after, (ofDepth settings 3).proceed (.again place) world =
      .ok (some (.again (place + 1))) after ∧ RenewsAt name time (place + 1) after := by
  obtain ⟨scheduler, edition, present, byHand, rfl, length, task, found, due, block⟩ := there.isLast
  obtain ⟨kept, ran⟩ := exists_runAgain_renewal allowed own there.renews there.handsDown present
    place due block
  obtain ⟨longer, last⟩ := getElem?_recurring_of_length (scheduler.start (.again place task)) length
    world.reading 0 scheduler.time ⟨kept, [.call name []]⟩
  have registered : scheduler.now world.reading = scheduler.time := if_pos byHand
  have dueAgain : scheduler.now world.reading + 0 ≤ scheduler.time := by
    rw [registered]
    exact atOnce
  let marked := ((scheduler.start (.again place task)).addRecurring world.reading 0
    ⟨kept, [.call name []]⟩).markRecurring place scheduler.time
  refine ⟨{ world with editions := world.editions + 1, scheduler := some marked }, ?_,
    there.renews, there.handsDown, marked, kept, rfl, byHand, rfl, longer, _, last, dueAgain, rfl⟩
  rw [proceed, lookScheduler_bind present, found]
  exact bind_ok ran

/-- An event that comes to such a call never ends, though each of its looks does. -/
theorem RenewsAt.endless (atOnce : time + 0 ≤ time)
    (there : RenewsAt name time 0 world) :
    (Stage.once []).EachLookEnds settings world ∧ ¬ (Stage.once []).Ends settings world := by
  refine Stage.endless_of_goesOn (fun stage world =>
    (stage = .once [] ∧ RenewsAt name time 0 world) ∨
      ∃ place, stage = .again place ∧ RenewsAt name time place world) ?_ (.inl ⟨rfl, there⟩)
  rintro stage world (⟨rfl, there⟩ | ⟨place, rfl, there⟩)
  · exact ⟨0, .again 0, world, rfl, .inr ⟨0, rfl, there⟩⟩
  · obtain ⟨after, looked, thereAfter⟩ := there.exists_proceed allowed own atOnce
    exact ⟨3, .again (place + 1), after, looked, .inr ⟨place + 1, rfl, thereAfter⟩⟩

end Renewal

/-! ### Steps -/

/-- Where a step by some seconds begins to look, if it comes to that: the scheduler has a time of
its own, and that time can be moved. -/
def Stage.ofStep? (world : World) (seconds : Value) : Option (Stage × World) := do
  let scheduler ← world.scheduler
  let time ← (later scheduler.time seconds).toOption
  if scheduler.isVirtual then
    some (.once scheduler.delayed, { world with scheduler := some { scheduler with time } })
  else none

section

variable {world : World} {scheduler : Scheduler} {seconds : Value}

theorem Stage.ofStep?_eq (present : world.scheduler = some scheduler)
    (byHand : scheduler.isVirtual = true) {time : Float}
    (moved : (later scheduler.time seconds).toOption = some time) :
    Stage.ofStep? world seconds = some (.once scheduler.delayed,
      { world with scheduler := some { scheduler with time } }) := by
  simp [Stage.ofStep?, present, byHand, moved]

variable (engine : Engine)

/-- A step either begins to look or is over. -/
theorem Engine.step_begins (world : World) (seconds : Value) :
    (∃ start, Stage.ofStep? world seconds = some start ∧
      engine.step seconds world = engine.resume start.1 start.2) ∨
    Stage.ofStep? world seconds = none ∧ hasEnded (engine.step seconds world) = true := by
  cases present : world.scheduler with
  | none =>
    refine .inr ⟨by simp [Stage.ofStep?, present], ?_⟩
    rw [step, lookScheduler, look_bind, present]
    rfl
  | some scheduler =>
    cases byHand : scheduler.isVirtual with
    | false =>
      refine .inr ⟨by simp [Stage.ofStep?, present, byHand], ?_⟩
      rw [step, lookScheduler_bind present, byHand]
      rfl
    | true =>
      cases moved : later scheduler.time seconds with
      | error cause =>
        refine .inr ⟨by simp [Stage.ofStep?, present, moved, Except.toOption], ?_⟩
        rw [step, lookScheduler_bind present, byHand]
        show hasEnded ((look schedulerTime >>= _) world) = true
        rw [look_bind, schedulerTime_eq present, moved]
        rfl
      | ok time =>
        refine .inl ⟨_, Stage.ofStep?_eq present byHand (congrArg Except.toOption moved), ?_⟩
        rw [step_eq engine present byHand moved]
        show EStateM.bind _ _ _ = EStateM.bind _ _ _
        rw [EStateM.bind, EStateM.bind, engine.passDelayed_eq schedulerTime rfl]

theorem Engine.step_eq_resume {start : Stage × World}
    (begins : Stage.ofStep? world seconds = some start) :
    engine.step seconds world = engine.resume start.1 start.2 := by
  rcases engine.step_begins world seconds with ⟨other, found, same⟩ | ⟨absent, _⟩
  · cases begins.symm.trans found
    exact same
  · cases begins.symm.trans absent

theorem Engine.hasEnded_step (idle : Stage.ofStep? world seconds = none) :
    hasEnded (engine.step seconds world) = true := by
  rcases engine.step_begins world seconds with ⟨start, begins, _⟩ | ⟨_, ended⟩
  · cases idle.symm.trans begins
  · exact ended

end

/-- A program that defines a function that keeps a call of itself and calls it makes every step
endless that comes to the call, though each run of a block in the step comes to an end. -/
theorem exists_endless_step (settings : Settings)
    (allowed : settings.permissions.allows .timers = true) {name : String}
    (own : Builtin.ofName? name = none) (fresh : world.scope = Scope.empty) {scheduler : Scheduler}
    (present : world.scheduler = some scheduler) (byHand : scheduler.isVirtual = true)
    (undelayed : scheduler.delayed = []) (idle : scheduler.recurring = []) {seconds : Value}
    {time : Float} (moved : (later scheduler.time seconds).toOption = some time)
    (due : scheduler.time + 0 ≤ time) (dueAgain : time + 0 ≤ time) :
    ∃ after begun, (standard settings).runProgram
        [.define name [] (renewal name), .call name []] world = .ok () after ∧
      Stage.ofStep? after seconds = some begun ∧ begun.1.EachLookEnds settings begun.2 ∧
      ∀ depth, hasEnded ((ofDepth settings depth).step seconds after) = false := by
  obtain ⟨kept, after, ran, renews, handsDown, presentAfter⟩ :=
    exists_runProgram_renewal allowed world present own fresh
  have begins := Stage.ofStep?_eq presentAfter byHand moved
  have there := renewsAt_first renews handsDown byHand idle due world.reading kept
  obtain ⟨each, endless⟩ := there.endless allowed own dueAgain
  have none : (scheduler.addRecurring world.reading 0 ⟨kept, [.call name []]⟩).delayed = [] :=
    undelayed
  rw [congrArg Stage.once none] at begins
  refine ⟨after, _, standard_runProgram settings (by decide +kernel) ran, begins, each,
    fun depth => ?_⟩
  rw [step_eq_resume _ begins, ← Bool.not_eq_true]
  exact fun ended => endless (Stage.ends_of_resume ended)

/-! ### Ends of events -/

/-- An event comes to an end exactly if every single run of a block does and if the lists that it
goes over by places stay within a bound: for a step, those of the blocks that run again and again
and of the calendar, for a click, that of the blocks kept for clicks. -/
theorem dispatch_ends_iff_lists_stay_bounded (settings : Settings) (world : World) : (∀ seconds,
      (∃ depth, hasEnded ((ofDepth settings depth).step seconds world) = true) ↔
        ∀ start ∈ Stage.ofStep? world seconds,
          start.1.EachLookEnds settings start.2 ∧ start.1.StaysBounded settings start.2) ∧
    ∀ x y, (∃ depth, hasEnded ((ofDepth settings depth).click x y world) = true) ↔
        (Stage.clicks x y 0).EachLookEnds settings world ∧
          (Stage.clicks x y 0).StaysBounded settings world := by
  refine ⟨fun seconds => ?_, fun x y => Stage.exists_resume_iff (.clicks x y 0) world⟩
  cases begins : Stage.ofStep? world seconds with
  | none =>
    refine ⟨fun _ _ absent => ?_, fun _ => ⟨0, (ofDepth settings 0).hasEnded_step begins⟩⟩
    cases absent
  | some start =>
    simp only [step_eq_resume _ begins, Stage.exists_resume_iff, Option.mem_def,
      Option.some.injEq, forall_eq']

/-- A function that keeps a call of itself makes a step endless: each run of a block comes to an
end, and each of them keeps another block that the step comes to. -/
theorem step_is_endless_if_block_keeps_itself :
    let settings : Settings := { permissions := ⟨fun permission => permission = .timers⟩ }
    let start : Beginning := { files := .bare, scheduler := some true }
    let second : Value := .number (.int 1)
    ∃ world begun, (standard settings).runProgram
        [.define "again" [] [.every (.number (.int 0)) [.call "again" []]], .call "again" []]
        start.world = .ok () world ∧
      Stage.ofStep? world second = some begun ∧ begun.1.EachLookEnds settings begun.2 ∧
      ∀ depth, hasEnded ((ofDepth settings depth).step second world) = false := by
  intro settings start second
  have moved : (later 0 second).toOption = some 1 := by decide +kernel
  have present : start.world.scheduler = some { isVirtual := true } := rfl
  exact exists_endless_step settings rfl (by decide) rfl present rfl rfl rfl moved
    (by decide +kernel) (by decide +kernel)

end Parlance
