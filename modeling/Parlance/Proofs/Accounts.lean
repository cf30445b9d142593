import Mathlib.Algebra.Order.Group.Multiset
import Mathlib.Tactic.Abel
import Parlance.Proofs.Delays

/-!
Accounts of the blocks that run once. Throughout a session every registration is either still
waiting or has been dropped for a start.
-/

namespace Parlance

open Operation Engine Run

variable {α β : Type}

/-! ### Balance -/

/-- Whether the accounts of a scheduler balance: what was registered is what waits and what was
dropped for the starts. -/
structure Scheduler.IsBalanced (scheduler : Scheduler) : Prop where
  numbered : scheduler.IsNumbered
  dropped : ∃ dropped, scheduler.history.Perm (dropped ++ scheduler.delayed) ∧
    List.Forall₂ Delayed.IsDroppedFor scheduler.begun dropped
  exact : scheduler.isVirtual = false ∨ Delayed.AreUnlike scheduler.history.reverse →
    scheduler.history.Perm (scheduler.begun ++ scheduler.delayed)

namespace Scheduler

variable {before after : Scheduler}

theorem isBalanced_new (isVirtual : Bool) : IsBalanced { isVirtual } where
  numbered := isNumbered_new isVirtual
  dropped := ⟨[], .refl _, .nil⟩
  exact _ := .refl _

variable {dropped kept more : List Delayed}

/-- What was registered, dropped and left before, and what is dropped, left and registered since. -/
theorem perm_of_balance {history waiting droppedLater : List Delayed}
    (balance : history.Perm (dropped ++ waiting))
    (balanceLater : waiting.Perm (droppedLater ++ kept)) :
    (more.reverse ++ history).Perm (droppedLater.reverse ++ dropped ++ (kept ++ more)) := by
  -- The order does not matter for the balance, so the lists are added up without it.
  rw [← Multiset.coe_eq_coe] at balance balanceLater ⊢
  simp only [← Multiset.coe_add, Multiset.coe_reverse] at balance balanceLater ⊢
  rw [balance, balanceLater]
  abel

/-- The accounts still balance after an advance that drops the started blocks themselves, if they
should. -/
theorem IsBalanced.advance {starts : List Delayed} (balanced : before.IsBalanced)
    (swept : before.Sweeps after [] before.delayed [] starts dropped kept more)
    (exact : before.isVirtual = false ∨ Delayed.AreUnlike before.delayed → dropped = starts) :
    after.IsBalanced where
  numbered := swept.numbered
  dropped := by
    obtain ⟨earlier, balance, alike⟩ := balanced.dropped
    refine ⟨dropped.reverse ++ earlier, ?_, ?_⟩
    · rw [swept.history, swept.delayed, List.append_nil]
      exact perm_of_balance balance swept.balance
    · rw [swept.begun]
      exact List.rel_append (List.forall₂_reverse_iff.2 swept.alike) alike
  exact := by
    rw [swept.isVirtual, swept.history, swept.begun, swept.delayed, List.append_nil,
      List.reverse_append, List.reverse_reverse]
    intro certain
    have certainBefore := certain.imp_right fun unlike => (List.pairwise_append.1 unlike).1
    have same := exact (certainBefore.imp_right fun unlike =>
      unlike.sublist balanced.numbered.waiting)
    rw [← same]
    exact perm_of_balance (balanced.exact certainBefore) swept.balance

/-- Registrations keep the balance. -/
theorem IsBalanced.extend (balanced : before.IsBalanced) (extended : before.Extends after) :
    after.IsBalanced := by
  have idle := Sweeps.idle balanced.numbered
    (show before.delayed = [] ++ before.delayed ++ [] from (List.append_nil _).symm)
  obtain ⟨more, swept⟩ := idle.extend extended
  exact balanced.advance swept fun _ => rfl

/-- As many blocks were registered as were started and are waiting. -/
theorem IsBalanced.length_history (balanced : before.IsBalanced) :
    before.history.length = before.begun.length + before.delayed.length := by
  obtain ⟨dropped, balance, alike⟩ := balanced.dropped
  rw [balance.length_eq, List.length_append, alike.length_eq]

/-- A block is started once, and then it waits no longer, if the started blocks were dropped. -/
theorem IsBalanced.nodup_begun (balanced : before.IsBalanced)
    (exact : before.history.Perm (before.begun ++ before.delayed)) :
    (before.begun ++ before.delayed).Nodup :=
  exact.nodup_iff.1 balanced.numbered.nodup_history

end Scheduler

/-- Whether the accounts of the scheduler balance, if there is one. -/
def World.IsBalanced (world : World) : Prop :=
  ∀ scheduler ∈ world.scheduler, scheduler.IsBalanced

theorem Beginning.isBalanced_world (start : Beginning) : start.world.IsBalanced := by
  intro scheduler present
  obtain ⟨isVirtual, -, rfl⟩ := Option.map_eq_some_iff.1 present
  exact Scheduler.isBalanced_new isVirtual

/-! ### What runs maintain -/

def Run.Maintains (good : World → Prop) (action : Run α) : Prop :=
  ∀ world, good world → hasEnded (action world) = true → good (final (action world))

namespace Run

variable {action : Run α}

theorem maintains_bind {good : World → Prop} {next : α → Run β} (head : action.Maintains good)
    (tail : ∀ value, (next value).Maintains good) : (action >>= next).Maintains good := by
  intro world isGood ended
  have begun := head world isGood (hasEnded_of_bind ended)
  cases finished : action world with
  | ok value after =>
    rw [finished] at begun
    rw [bind_ok finished] at ended ⊢
    exact tail value after begun ended
  | error exit after =>
    rw [finished] at begun
    rw [bind_error finished]
    exact begun

theorem maintains_of_keeps (keeps : action.Keeps World.Registers) :
    action.Maintains World.IsBalanced := by
  intro world balanced _ scheduler present
  have registered := keeps world
  cases presentBefore : world.scheduler with
  | none =>
    rw [World.Registers, presentBefore, present] at registered
    cases registered
  | some before =>
    obtain ⟨after, presentAfter, extended⟩ := World.SchedulerKept.exists_some registered presentBefore
    obtain rfl : after = scheduler := Option.some.inj (presentAfter.symm.trans present)
    exact (balanced before presentBefore).extend extended

theorem maintains_moveTime (time : Float) :
    (changeScheduler fun scheduler => { scheduler with time }).Maintains World.IsBalanced := by
  intro world balanced _ scheduler present
  obtain ⟨before, presentBefore, rfl⟩ := Option.map_eq_some_iff.1 present
  have kept := balanced before presentBefore
  exact { kept with numbered := { kept.numbered with } }

end Run

section

variable (settings : Settings) (depth : Nat)

/-- The time of a scheduler that follows the clock is not moved while a pass is under way. -/
theorem standsStill_schedulerTime {world : World} {before : Scheduler}
    (present : world.scheduler = some before) (numbered : before.IsNumbered)
    (byClock : before.isVirtual = false) :
    (ofDepth settings depth).StandsStill schedulerTime world before.delayed
      before.time := by
  intro earlier task later reached split passed
  have waiting : before.delayed = [] ++ earlier ++ (task :: later) := split
  obtain ⟨_, after, _, _, _, _, passedToo, there, swept, -⟩ :=
    sweeps_runDelayed (keeps_runKept settings depth) earlier present numbered waiting
      (by rw [passed]; rfl)
  obtain ⟨-, rfl⟩ := EStateM.Result.ok.inj (passed.symm.trans passedToo)
  rw [schedulerTime, there]
  exact swept.stands byClock

/-- The pass over the blocks that run once keeps the balance, if it goes by one time where the
scheduler follows the clock. -/
theorem maintains_passDelayed (time : World → Float)
    (still : ∀ world before, world.scheduler = some before → before.IsNumbered →
      before.isVirtual = false → ∃ now,
        (ofDepth settings depth).StandsStill time world before.delayed now) :
    ((ofDepth settings depth).passDelayed time).Maintains World.IsBalanced := by
  intro world balanced ended
  cases present : world.scheduler with
  | none =>
    rw [passDelayed, lookScheduler, look_bind, present]
    exact balanced
  | some before =>
    have kept := balanced before present
    obtain ⟨reached, after, starts, dropped, left, more, passed, there, advanced⟩ :=
      advances_passDelayed settings depth present kept.numbered time ended
    have exact : before.isVirtual = false ∨ Delayed.AreUnlike before.delayed →
        dropped = starts := by
      rintro (byClock | unlike)
      · obtain ⟨now, standing⟩ := still world before present kept.numbered byClock
        exact advanced.still now standing
      · exact advanced.unlike unlike
    rw [passed]
    intro scheduler presentAfter
    obtain rfl : after = scheduler := Option.some.inj (there.symm.trans presentAfter)
    exact kept.advance advanced.toSweeps exact

theorem eventRules_balanced :
    EventRules (fun _ action _ => action.Maintains World.IsBalanced) (fun _ => True)
      (ofDepth settings depth) (ofDepth settings depth) :=
  have preserved := World.preserved_registers settings
  have law := preserved.congruence
  have parts := law.ofDepth depth
  have passes := passRules_registers settings depth
  { rounds := .refl _
    bind := maintains_bind
    start := fun due lasting isKnown => maintains_of_keeps (passes.start due lasting isKnown)
    waiting := fun _ _ _ _ _ always _ _ _ tail =>
      maintains_bind (maintains_of_keeps (preserved.keeps_look _)) fun value =>
        tail value (always (fun _ => trivial) value)
    markRecurring := fun place time => maintains_of_keeps (passes.markRecurring place time)
    markJob := fun name serial time => maintains_of_keeps (passes.markJob name serial time)
    plain := fun isPlain => maintains_of_keeps (preserved.keeps_inner isPlain.isInner)
    cleared := maintains_of_keeps fun _ => Scheduler.extends_rules.of_eq rfl
    runSource := fun source => maintains_of_keeps (law.runSource parts source)
    evaluateSource := fun source => maintains_of_keeps
      (preserved.keeps_bind (preserved.keeps_inner (isInner_expression source)) parts.evaluate)
    runKept := fun block _ => maintains_of_keeps (keeps_runKept settings depth block)
    delayedByHand := maintains_passDelayed settings depth schedulerTime
      fun _ before present numbered byClock =>
        ⟨before.time, standsStill_schedulerTime settings depth present numbered byClock⟩
    delayedByClock := fun now => maintains_passDelayed settings depth (fun _ => now)
      fun _ _ _ _ _ => ⟨now, fun _ _ _ _ _ _ => rfl⟩
    lookTime := fun _ => maintains_of_keeps (preserved.keeps_look _)
    moveTime := maintains_moveTime
    sleep := fun _ => maintains_of_keeps fun _ => Scheduler.extends_rules.of_eq rfl
    screen := maintains_of_keeps (preserved.keeps_look _)
    handler := fun _ _ _ tail => maintains_bind (maintains_of_keeps (preserved.keeps_look _))
      fun found => tail found fun _ _ => trivial }

end

/-! ### Sessions -/

namespace Operation

variable {world : World}

variable (settings : Settings)

theorem maintains_result (operation : Operation) (balanced : world.IsBalanced)
    (ended : hasEnded (operation.result (standard settings) world).2 = true) :
    (final (operation.result (standard settings) world).2).IsBalanced := by
  have law := (World.preserved_registers settings).congruence
  have runs : operation.Runs (fun _ action _ => action.Maintains World.IsBalanced)
      (standard settings) (standard settings) := by
    cases operation with
    | execute program =>
      exact maintains_of_keeps (law.calls.runProgram (law.ofDepth ample) program)
    | evaluate expression => exact maintains_of_keeps ((law.ofDepth ample).evaluate expression)
    | _ => trivial
  rw [result_snd] at ended ⊢
  exact (eventRules_balanced settings ample).whole runs world balanced ended

theorem maintains_perform (operation : Operation) (balanced : world.IsBalanced)
    (ended : ∀ exit ∈ (operation.perform settings world).1.exit, exit.isEndless = false) :
    (operation.perform settings world).2.IsBalanced := by
  have kept := maintains_result settings operation balanced
  rcases finished : operation.result (standard settings) world with ⟨steps, value | exit⟩
  · rw [finished] at kept
    rw [perform_ok finished]
    exact kept rfl
  · rw [finished] at kept
    rw [perform_error finished] at ended ⊢
    have notEndless : exit.isEndless = false := ended exit rfl
    exact kept (by rw [hasEnded, notEndless]; rfl)

/-- The accounts balance between all operations of a session, as long as what is run comes to an
end. -/
theorem maintains_performAll (operations : List Operation) (balanced : world.IsBalanced)
    (ended : ∀ outcome ∈ (performAll settings world operations).1,
      ∀ exit ∈ outcome.exit, exit.isEndless = false) :
    (performAll settings world operations).2.IsBalanced := by
  induction operations generalizing world with
  | nil => exact balanced
  | cons operation rest ih =>
    rw [performAll_cons] at ended ⊢
    have begun := maintains_perform settings operation balanced (ended _ List.mem_cons_self)
    exact ih begun fun outcome member => ended outcome (.tail _ member)

end Operation

/-- Every block that is registered to run once is accounted for. Throughout a session, as long as
what is run comes to an end, there are as many registrations as starts and blocks that wait, and for
every start a registration was dropped, that of the started block or one like it; if the scheduler
follows the clock or if no registration is like a later one, then it is that of the started block,
and no block is started twice. An advance examines the blocks that wait at its beginning and no
others, it starts those whose time has come when they are examined, whatever the blocks before them
did, and drops one for each; if it is the same time at every examination or if no waiting block is
like a later one, then the started ones are dropped. What makes a call that is not described has no
end here. -/
theorem delayed_blocks_are_accounted_for (settings : Settings) :
    (∀ (start : Beginning) (operations : List Operation),
      (∀ outcome ∈ (performAll settings start.world operations).1,
        ∀ exit ∈ outcome.exit, exit.isEndless = false) →
      ∀ scheduler ∈ (performAll settings start.world operations).2.scheduler,
        scheduler.IsNumbered ∧
        scheduler.history.length = scheduler.begun.length + scheduler.delayed.length ∧
        (∃ dropped, scheduler.history.Perm (dropped ++ scheduler.delayed) ∧
          List.Forall₂ Delayed.IsDroppedFor scheduler.begun dropped) ∧
        (scheduler.isVirtual = false ∨ Delayed.AreUnlike scheduler.history.reverse →
          (scheduler.begun ++ scheduler.delayed).Nodup ∧
            scheduler.history.Perm (scheduler.begun ++ scheduler.delayed))) ∧
    ∀ (depth : Nat) (time calendar : World → Float) (world : World) (before : Scheduler),
      world.scheduler = some before → before.IsNumbered →
      hasEnded ((ofDepth settings depth).runDue time calendar world) = true →
      ∃ after starts dropped kept more,
        (final ((ofDepth settings depth).runDue time calendar world)).scheduler =
          some after ∧
        (ofDepth settings depth).Advances time world before after starts dropped kept
          more := by
  refine ⟨fun start operations ended scheduler present => ?_,
    fun depth time calendar world before present numbered ended =>
      advances_runDue settings depth present numbered time calendar ended⟩
  have balanced := maintains_performAll settings operations start.isBalanced_world ended
    scheduler present
  exact ⟨balanced.numbered, balanced.length_history, balanced.dropped, fun certain =>
    ⟨balanced.nodup_begun (balanced.exact certain), balanced.exact certain⟩⟩

/-- By the clock, two registrations of one statement are both started in one round, although the
blocks fail, and what they register meanwhile is left for the next round. -/
theorem delayed_blocks_are_accounted_for_in_a_round :
    let settings : Settings := { permissions := ⟨fun permission => permission = .timers⟩ }
    let start : Beginning := { files := .bare, scheduler := some false }
    let program : List Stmt :=
      [.repeatTimes (.number (.int 2))
          [.after 0 (.number (.int 1)) [.print (.string "once"),
            .after 1 (.number (.int 0)) [.print (.string "next")], .print (.identifier "unknown")]],
        .wait (.number (.int 1))]
    let registered := performAll settings start.world [.execute program]
    let session := performAll settings start.world [.execute program, .ticks 1]
    let engine := ofDepth settings ample
    let due := engine.runDue (fun _ => 1) World.clock registered.2
    (∀ outcome ∈ session.1, ∀ exit ∈ outcome.exit, exit.isEndless = false) ∧
      (∃ scheduler, session.2.scheduler = some scheduler ∧ scheduler.isVirtual = false ∧
        scheduler.begun.map Delayed.serial = [1, 0] ∧
        scheduler.delayed.map Delayed.serial = [2, 3] ∧
        scheduler.history.length = scheduler.begun.length + scheduler.delayed.length ∧
        (scheduler.begun ++ scheduler.delayed).Nodup) ∧
      hasEnded due = true ∧
      ∃ before after starts dropped kept more, registered.2.scheduler = some before ∧
        before.IsNumbered ∧ (final due).scheduler = some after ∧
        engine.Advances (fun _ => 1) registered.2 before after starts dropped kept more ∧
        dropped = starts := by
  intro settings start program registered session engine due
  have completed (outcomes : List Outcome)
      (all : outcomes.all (fun outcome => outcome.exit.isNone) = true) :
      ∀ outcome ∈ outcomes, ∀ exit ∈ outcome.exit, exit.isEndless = false := by
    intro outcome member exit exited
    have none := Option.isNone_iff_eq_none.1 (List.all_eq_true.1 all outcome member)
    rw [none] at exited
    cases exited
  have accounts := delayed_blocks_are_accounted_for settings
  -- The sessions are rewritten to their names, which are never opened to be compared.
  have sessionEnds := completed session.1 (by decide +kernel)
  have registeredEnds := completed registered.1 (by decide +kernel)
  have ended : hasEnded due = true := by decide +kernel
  have has : session.2.scheduler.isSome = true := by decide +kernel
  obtain ⟨scheduler, present⟩ := Option.isSome_iff_exists.1 has
  have seen : session.2.scheduler.map (fun scheduler => (scheduler.isVirtual,
      scheduler.begun.map Delayed.serial, scheduler.delayed.map Delayed.serial)) =
      some (false, [1, 0], [2, 3]) := by decide +kernel
  rw [present] at seen
  obtain ⟨byClock, started, waiting⟩ : scheduler.isVirtual = false ∧
      scheduler.begun.map Delayed.serial = [1, 0] ∧
      scheduler.delayed.map Delayed.serial = [2, 3] := by
    simpa using seen
  have inSession := accounts.1 start [.execute program, .ticks 1]
  rw [show performAll settings start.world [.execute program, .ticks 1] = session from rfl]
    at inSession
  obtain ⟨-, count, -, certain⟩ := inSession sessionEnds scheduler present
  have had : registered.2.scheduler.isSome = true := by decide +kernel
  obtain ⟨before, presentBefore⟩ := Option.isSome_iff_exists.1 had
  have whenRegistered := accounts.1 start [.execute program]
  rw [show performAll settings start.world [.execute program] = registered from rfl]
    at whenRegistered
  obtain ⟨numbered, -⟩ := whenRegistered registeredEnds before presentBefore
  obtain ⟨after, starts, dropped, kept, more, there, advanced⟩ :=
    accounts.2 ample (fun _ => 1) World.clock registered.2 before presentBefore numbered ended
  exact ⟨sessionEnds, ⟨scheduler, present, byClock, started, waiting, count,
    (certain (.inl byClock)).1⟩, ended, before, after, starts, dropped, kept, more, presentBefore,
    numbered, there, advanced, advanced.still 1 fun _ _ _ _ _ _ => rfl⟩

/-- A block can be started twice while another one is lost. Two registrations of one statement are
alike; the first is examined after one second, when it is not due, and the second when a block
between them has let five seconds pass. The second is started then, but the first is dropped for it,
and the next advance starts the second again. -/
theorem alike_block_is_started_twice :
    let settings : Settings := { permissions := ⟨fun permission => permission = .timers⟩ }
    let start : Beginning := { files := .bare, scheduler := some true }
    let program : List Stmt :=
      [.repeatTimes (.number (.int 2))
        [.after 0 (.number (.int 3)) [.print (.string "three")],
          .after 1 (.number (.int 1)) [.wait (.number (.int 5))],
          .after 2 (.number (.int 20)) [.print (.string "twenty")]]]
    let once := performAll settings start.world
      [.execute program, .step (.number (.int 1)) 1]
    let twice := performAll settings start.world
      [.execute program, .step (.number (.int 1)) 1, .step (.number (.int 20)) 1]
    let serials (scheduler : Scheduler) : List Nat × List Nat :=
      (scheduler.begun.reverse.map Delayed.serial, scheduler.delayed.map Delayed.serial)
    (twice.1.all fun outcome => outcome.exit.isNone) = true ∧
      once.2.scheduler.map serials = some ([1, 3, 4], [2, 3, 5]) ∧
      twice.2.scheduler.map serials = some ([1, 3, 4, 2, 3, 5], []) := by
  decide +kernel

end Parlance
