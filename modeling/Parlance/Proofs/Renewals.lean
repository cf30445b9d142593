import Parlance.Proofs.EventMeaning

/-!
Functions that keep calls of themselves. The body of such a function does nothing but to register a
call of the function, to be run again at once.
-/

namespace Parlance

open Engine Run

namespace Run

variable {α : Type} {action : Run α} {world after : World} {result : α}

theorem reporting_ok (settings : Settings) (value : α) (ended : action world = .ok result after) :
    reporting settings value action world = .ok result after := by
  rw [reporting, ended]

theorem namingFunction_ok (name : String) (ended : action world = .ok result after) :
    namingFunction name action world = .ok result after := by
  rw [namingFunction, ended]

end Run

namespace Engine

variable {world after : World} (engine : Engine)

theorem runBlock_single {edition : Edition} {statement : Stmt}
    (executed : engine.execute statement { world with edition } = .ok () after) :
    engine.runBlock ⟨edition, [statement]⟩ world =
      .ok () { after with edition := world.edition } := by
  show inEdition edition (engine.execute statement >>= fun _ => pure ()) world = _
  rw [inEdition, bind_ok executed]
  rfl

theorem runProgram_cons (statement : Stmt) (rest : List Stmt) (world : World)
    (ran : engine.runBlock ⟨[world.editions], Stmt.program [statement]⟩
      { world with editions := world.editions + 1 } = .ok () after) :
    engine.runProgram (statement :: rest) world = engine.runProgram rest after := by
  have numbered : newEdition world =
    .ok world.editions { world with editions := world.editions + 1 } := rfl
  rw [runProgram, bind_ok numbered, bind_ok ran]

theorem every_ok {settings : Settings} {engine : Engine}
    (allowed : settings.permissions.allows .timers = true) {seconds : Expr} {span : Float}
    (given : engine.real seconds world = .ok span world) {scheduler : Scheduler}
    (present : world.scheduler = some scheduler) (body : List Stmt) :
    engine.every settings seconds body world = .ok () { world with
      scheduler := some (scheduler.addRecurring world.reading span ⟨world.edition, body⟩) } := by
  have keeping : keep body world = .ok ⟨world.edition, body⟩ world := rfl
  rw [every, check, if_pos allowed, pure_bind, bind_ok given, bind_ok keeping, schedule, present]

end Engine

/-- What keeps a call of a function, to be run again at once. -/
def renewal (name : String) : List Stmt := [.every (.number (.int 0)) [.call name []]]

/-- Whether a name stands for a function that keeps a call of itself. -/
def World.Renews (world : World) (name : String) : Prop :=
  ∃ edition captured, Scope.function? world.scopes name =
    some ⟨[], ⟨edition, renewal name⟩, captured⟩

theorem Heap.holdsLibrary_nil (heap : Heap) (rounds : Nat) (seen : List Nat) :
    heap.holdsLibrary rounds seen [] = false := by
  cases rounds with
  | zero => rfl
  | succ rounds => rfl

theorem openScope_ok {world : World} (handing : Handing) (handsDown : world.capturesLibrary = false) :
    ∃ scope, openScope handing world =
      .ok scope { world with editions := world.editions + 1 } := by
  cases handing with
  | copies =>
    refine ⟨World.callScope { world with editions := world.editions + 1 } world.editions, ?_⟩
    rw [openScope, look_bind, handsDown]
    rfl
  | nothing => exact ⟨_, rfl⟩

/-- The world after a call of a function that keeps a call of itself. -/
abbrev World.renewed (world : World) (scheduler : Scheduler) (kept : Edition) (name : String) :
    World :=
  { world with
    editions := world.editions + 1
    scheduler := some (scheduler.addRecurring world.reading 0 ⟨kept, [.call name []]⟩) }

section Renewal

variable {settings : Settings} (allowed : settings.permissions.allows .timers = true)
  {name : String} {scheduler : Scheduler} (world : World)
  (present : world.scheduler = some scheduler)

include allowed present

theorem execute_renewal :
    execute settings 2 (.every (.number (.int 0)) [.call name []]) world = .ok () { world with
      scheduler := some (scheduler.addRecurring world.reading 0
        ⟨world.edition, [.call name []]⟩) } := by
  rw [execute]
  exact reporting_ok settings () (every_ok allowed rfl present _)

variable (own : Builtin.ofName? name = none)

include own

section

variable (handsDown : world.capturesLibrary = false) (renews : world.Renews name)

include handsDown renews

/-- A call of a function that keeps a call of itself, in whatever edition. -/
theorem exists_execute_renewal : ∃ kept,
    execute settings 3 (.call name []) world = .ok () (world.renewed scheduler kept name) := by
  obtain ⟨kept, captured, found⟩ := renews
  refine ⟨kept, ?_⟩
  let engine : Engine := ⟨2, evaluate settings 2, execute settings 2, settings.handing⟩
  obtain ⟨scope, opened⟩ := openScope_ok settings.handing handsDown
  let entered : World := World.enter { world with editions := world.editions + 1 } scope
  have ran : engine.runBlock ⟨kept, renewal name⟩ entered =
      .ok () { entered with
        scheduler := some (scheduler.addRecurring world.reading 0 ⟨kept, [.call name []]⟩) } :=
    engine.runBlock_single (execute_renewal allowed { entered with edition := kept } present)
  have called : engine.callRoutine name [] world =
      .ok .nothing (world.renewed scheduler kept name) := by
    have named : routine name world = .ok ⟨[], ⟨kept, renewal name⟩, captured⟩ world := by
      rw [routine, look_bind, found]
      rfl
    have given : engine.evaluateAll [] world = .ok [] world := rfl
    refine namingFunction_ok name ?_
    rw [bind_ok named, bind_ok given, bind_ok opened]
    show inScope scope (givenBack _) _ = _
    rw [inScope, givenBack, ran]
    rfl
  rw [execute]
  refine reporting_ok settings () ?_
  rw [carryOut, call, own, bind_ok called]
  rfl

theorem exists_runKept_renewal (edition : Edition) :
    ∃ kept, (ofDepth settings 3).runKept ⟨edition, [.call name []]⟩ world =
      .ok () (world.renewed scheduler kept name) := by
  obtain ⟨kept, executed⟩ := exists_execute_renewal allowed { world with edition } present own
    handsDown renews
  refine ⟨kept, ?_⟩
  rw [runKept, undisturbed, runBlock_single _ executed]
  rfl

end

/-- A program that defines such a function and calls it. -/
theorem exists_runProgram_renewal (fresh : world.scope = Scope.empty) :
    ∃ kept after, (ofDepth settings 3).runProgram
        [.define name [] (renewal name), .call name []] world = .ok () after ∧
      after.Renews name ∧ after.capturesLibrary = false ∧
      after.scheduler =
        some (scheduler.addRecurring world.reading 0 ⟨kept, [.call name []]⟩) := by
  let engine := ofDepth settings 3
  let defined : World := { world with
    editions := world.editions + 1
    scope := world.scope.define name ⟨[], ⟨[world.editions], renewal name⟩, world.scope.bindings⟩ }
  have renews : defined.Renews name := by
    refine ⟨[world.editions], world.scope.bindings, ?_⟩
    show Scope.function? (Scope.define _ _ _ :: _) name = _
    rw [Scope.function?, Scope.define, Table.get?_insert, if_pos rfl]
  have handsDown : defined.capturesLibrary = false := by
    show ((world.scope.define name _).functions.any _) = false
    rw [fresh]
    show (world.heap.holdsLibrary world.heap.next [] [] || false) = false
    rw [Heap.holdsLibrary_nil, Bool.or_false]
  have first := engine.runProgram_cons (.define name [] (renewal name)) [.call name []] world
    (engine.runBlock_single rfl)
  obtain ⟨kept, calls⟩ := exists_execute_renewal allowed
    { defined with editions := world.editions + 2, edition := [world.editions + 1] } present own
    handsDown renews
  have second := engine.runProgram_cons (.call name []) [] defined (engine.runBlock_single calls)
  exact ⟨kept, _, first.trans second, renews, handsDown, rfl⟩

end Renewal

end Parlance
