import Parlance.Proofs.Plain

/-!
The inner part of a world: what a program reads and changes without asking leave. Runs are put
together from inner runs and from the few that touch something else, so that a property of runs has
to be settled for those few only.
-/

namespace Parlance

/-! ### The inner part -/

/-- What a program changes without asking leave. -/
structure Inner where
  bindings : Table Value
  functions : Table Routine
  edition : Edition
  editions : Nat
  heap : Heap
  written : List (Channel × String)
  input : List Char
  seed : Nat

def Inner.plain (inner : Inner) : Plain :=
  { bindings := inner.bindings
    heap := inner.heap
    seed := inner.seed }

/-- The inner part with another plain part, after something has been written. -/
def Inner.withPlain (inner : Inner) (left : PlainEnd) : Inner :=
  { inner with
    bindings := left.bindings
    heap := left.heap
    written := left.written ++ inner.written
    seed := left.seed }

namespace World

def inner (world : World) : Inner :=
  { bindings := world.scope.bindings
    functions := world.scope.functions
    edition := world.edition
    editions := world.editions
    heap := world.heap
    written := world.written
    input := world.input
    seed := world.seed }

def withInner (world : World) (inner : Inner) : World :=
  { world with
    scope := { world.scope with bindings := inner.bindings, functions := inner.functions }
    edition := inner.edition
    editions := inner.editions
    heap := inner.heap
    written := inner.written
    input := inner.input
    seed := inner.seed }

variable (world : World)

@[simp] theorem inner_withInner (inner : Inner) : (world.withInner inner).inner = inner := rfl

end World

/-! ### Inner runs -/

/-- What of a world an inner run can read but not change: the scopes around the innermost one, and
the call that opened it. -/
structure Surroundings where
  callers : List (Scope Value Routine)
  call : Option Nat

def World.surroundings (world : World) : Surroundings := ⟨world.callers, world.scope.call⟩

@[simp] theorem World.surroundings_withInner (world : World) (inner : Inner) :
    (world.withInner inner).surroundings = world.surroundings := rfl

namespace Run

variable {α β : Type}

/-- Whether a run reads nothing but the inner part and its surroundings, and changes nothing but the
inner part. -/
def IsInner (action : Run α) : Prop :=
  ∃ step : Surroundings → Inner → EStateM.Result Exit Inner α,
    ∀ world, action world = mapState world.withInner (step world.surroundings world.inner)

theorem isInner_pure (value : α) : IsInner (pure value : Run α) :=
  ⟨fun _ inner => .ok value inner, fun _ => rfl⟩

theorem isInner_throw (exit : Exit) : IsInner (throw exit : Run α) :=
  ⟨fun _ inner => .error exit inner, fun _ => rfl⟩

variable {action : Run α}

theorem isInner_bind {next : α → Run β} (head : IsInner action)
    (tail : ∀ value, IsInner (next value)) : IsInner (action >>= next) := by
  obtain ⟨step, steps⟩ := head
  choose rest rests using tail
  refine ⟨fun around inner => onward (fun value => rest value around) (step around inner),
    fun world => ?_⟩
  show EStateM.bind action next world = mapState world.withInner
    (onward (fun value => rest value world.surroundings) (step world.surroundings world.inner))
  rw [EStateM.bind, steps world]
  cases step world.surroundings world.inner with
  | ok value after =>
    show next value (world.withInner after) = mapState world.withInner _
    rw [rests value, World.surroundings_withInner, World.inner_withInner]
    rfl
  | error exit after => rfl

theorem IsPlain.isInner (isPlain : IsPlain action) : IsInner action := by
  obtain ⟨step, _, steps⟩ := isPlain
  refine ⟨fun around inner => mapState inner.withPlain
    (step (around.callers.map Scope.bindings) inner.plain), fun world => ?_⟩
  rw [steps]
  show mapState world.withPlain (step world.around world.plain) =
    mapState world.withInner (mapState world.inner.withPlain (step world.around world.plain))
  cases step world.around world.plain <;> rfl

/-! ### The pieces that are inner -/

theorem isInner_ofExcept (result : Except Refusal α) : IsInner (ofExcept result) := by
  cases result with
  | ok value => exact isInner_pure value
  | error cause => exact isInner_throw _

theorem isInner_failOutside (settings : Settings) (wording : String → Report) (cause : Refusal) :
    IsInner (failOutside settings wording cause : Run α) := by
  rw [failOutside]
  split <;> exact isInner_throw _

theorem isInner_readLine : IsInner readLine :=
  ⟨fun _ inner =>
    let line := inner.input.takeWhile (· ≠ '\n')
    .ok (Text.strip (String.ofList line))
      { inner with input := inner.input.drop (line.length + 1) }, fun _ => rfl⟩

/-- Reading does not look at the world. -/
theorem eq_pure_or_throw_ofParse (result : Except ParseFailure α) :
    (∃ value, ofParse result = pure value) ∨ ∃ exit, ofParse result = throw exit := by
  cases result with
  | ok value => exact .inl ⟨value, rfl⟩
  | error failure => cases failure <;> exact .inr ⟨_, rfl⟩

variable (source name : String)

theorem eq_pure_or_throw_tokensOf_bind {read : List Token → Run α}
    (reads : ∀ found, (∃ value, read found = pure value) ∨ ∃ exit, read found = throw exit) :
    (∃ value, tokensOf source >>= read = pure value) ∨
      ∃ exit, tokensOf source >>= read = throw exit := by
  rw [tokensOf]
  cases tokens source with
  | ok found => exact reads found
  | error failure => exact .inr ⟨_, rfl⟩

theorem eq_pure_or_throw_program :
    (∃ statements, program source = pure statements) ∨ ∃ exit, program source = throw exit :=
  eq_pure_or_throw_tokensOf_bind source fun _ => eq_pure_or_throw_ofParse _

theorem isInner_of_eq_pure_or_throw
    (outcome : (∃ value, action = pure value) ∨ ∃ exit, action = throw exit) : IsInner action := by
  rcases outcome with ⟨value, rfl⟩ | ⟨exit, rfl⟩
  · exact isInner_pure value
  · exact isInner_throw exit

theorem isInner_program : IsInner (program source) :=
  isInner_of_eq_pure_or_throw (eq_pure_or_throw_program source)

theorem isInner_expression : IsInner (expression source) :=
  isInner_of_eq_pure_or_throw
    (eq_pure_or_throw_tokensOf_bind source fun _ => eq_pure_or_throw_ofParse _)

theorem isInner_look (view : Surroundings → Inner → α) :
    IsInner (look fun world => view world.surroundings world.inner) :=
  ⟨fun around inner => .ok (view around inner) inner, fun _ => rfl⟩

theorem isInner_newEdition : IsInner newEdition :=
  ⟨fun _ inner => .ok inner.editions { inner with editions := inner.editions + 1 }, fun _ => rfl⟩

theorem isInner_keep (body : List Stmt) : IsInner (keep body) :=
  isInner_bind (isInner_look fun _ inner => inner.edition) fun _ => isInner_pure _

theorem isInner_routine : IsInner (Engine.routine name) := by
  refine isInner_bind (isInner_look fun around inner => Scope.function?
    (⟨inner.bindings, inner.functions, around.call⟩ :: around.callers) name) fun found => ?_
  cases found with
  | some routine => exact isInner_pure routine
  | none => exact isInner_throw _

theorem isInner_define (parameters : List String) (body : List Stmt) :
    IsInner (Engine.define name parameters body) := by
  refine isInner_bind (isInner_keep body) fun block => ?_
  exact ⟨fun _ inner => .ok () { inner with
    functions := inner.functions.insert name ⟨parameters, block, inner.bindings⟩ }, fun _ => rfl⟩

end Run

end Parlance
