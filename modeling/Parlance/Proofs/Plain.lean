import Mathlib.Tactic.Choose
import Parlance.Proofs.Growth
import Parlance.Event

/-!
The plain part of a world: the variables of the innermost scope, the heap, and what chances depend
on. A run is plain if what it gives, leaves and writes is a function of that part and of the
variables of the scopes around, and if it ends in a way that is its own.
-/

namespace Parlance

open Engine

/-! ### How a run ends -/

/-- Whether an exit is none of the signals that a loop or a function waits for. -/
def Exit.isQuiet : Exit → Bool
  | .signal .breakLoop | .signal .continueLoop | .signal (.giveBack _) => false
  | _ => true

/-- Whether a report is about a node that does not belong where it stands. -/
def Report.isMisfit : Report → Bool
  | .unknownExpression _ | .unknownStatement _ | .unknownBinary _ | .unknownUnary _
  | .unreadableTarget _ | .unwritableTarget _ => true
  | _ => false

/-- Whether a report is neither about a node that does not belong where it stands nor about a
function that is unknown. -/
def Report.isPlain : Report → Bool
  | .undefinedFunction _ => false
  | cause => !cause.isMisfit

/-- Whether a fault is neither such a report nor about the text of a program. -/
def Fault.isPlain : Fault → Bool
  | .report cause => cause.isPlain
  | .malformed _ | .unreadable _ => false
  | _ => true

/-- Whether a piece of a meaning can end that way by itself. -/
def Exit.isPlain : Exit → Bool
  | .fault cause => cause.isPlain
  | .signal .stop | .exhausted | .outside => true
  | _ => false

/-- What values, files and packages refuse is never about a node or the text of a program. -/
theorem Refusal.isPlain_fault (cause : Refusal) : cause.fault.isPlain = true := by
  cases cause <;> rfl

theorem Exit.isQuiet_of_isPlain {exit : Exit} (isPlain : exit.isPlain = true) :
    exit.isQuiet = true := by
  cases exit with
  | signal signal => cases signal <;> first | rfl | exact isPlain
  | _ => rfl

namespace Run

variable {α β σ τ : Type}

/-- The state in which a run ends, with a result or without. -/
def final : EStateM.Result Exit σ α → σ
  | .ok _ after => after
  | .error _ after => after

/-- The same end in another state. -/
def mapState (change : σ → τ) : EStateM.Result Exit σ α → EStateM.Result Exit τ α
  | .ok value after => .ok value (change after)
  | .error exit after => .error exit (change after)

@[simp] theorem final_ok (value : α) (after : σ) :
    final (.ok value after : EStateM.Result Exit σ α) = after := rfl

variable (change : σ → τ)

@[simp] theorem mapState_id (result : EStateM.Result Exit σ α) : mapState id result = result := by
  cases result <;> rfl

theorem final_mapState (result : EStateM.Result Exit σ α) :
    final (mapState change result) = change (final result) := by
  cases result <;> rfl

/-- Whether a run ends with a result, or in another way that no loop and no function waits for. -/
def endsQuietly : EStateM.Result Exit σ α → Bool
  | .ok _ _ => true
  | .error exit _ => exit.isQuiet

/-- Goes on from where a run has ended. -/
def onward (next : α → σ → EStateM.Result Exit σ β) :
    EStateM.Result Exit σ α → EStateM.Result Exit σ β
  | .ok value after => next value after
  | .error exit after => .error exit after

/-- Whether a run ends with a result, or in another way that can be its own. -/
def endsPlainly : EStateM.Result Exit σ α → Bool
  | .ok _ _ => true
  | .error exit _ => exit.isPlain

theorem endsPlainly_mapState (result : EStateM.Result Exit σ α) :
    endsPlainly (mapState change result) = endsPlainly result := by
  cases result <;> rfl

variable {result : EStateM.Result Exit σ α}

theorem endsPlainly_onward {next : α → σ → EStateM.Result Exit σ β}
    (head : endsPlainly result = true)
    (tail : ∀ value after, endsPlainly (next value after) = true) :
    endsPlainly (onward next result) = true := by
  cases result with
  | ok value after => exact tail value after
  | error exit after => exact head

end Run

/-! ### The plain part -/

/-- What nearly every piece of a meaning is about. -/
structure Plain where
  bindings : Table Value
  heap : Heap
  seed : Nat

/-- What a run leaves of the plain part, and what it has written, latest first. -/
structure PlainEnd extends Plain where
  written : List (Channel × String)

namespace World

def plain (world : World) : Plain :=
  { bindings := world.scope.bindings
    heap := world.heap
    seed := world.seed }

/-- The world with another plain part, after something has been written. -/
def withPlain (world : World) (left : PlainEnd) : World :=
  { world with
    scope := { world.scope with bindings := left.bindings }
    heap := left.heap
    written := left.written ++ world.written
    seed := left.seed }

/-- The variables of the scopes around the innermost one. -/
def around (world : World) : List (Table Value) := world.callers.map Scope.bindings

variable (world : World)

@[simp] theorem plain_withPlain (left : PlainEnd) :
    (world.withPlain left).plain = left.toPlain := rfl

@[simp] theorem around_withPlain (left : PlainEnd) :
    (world.withPlain left).around = world.around := rfl

end World

/-- An end after something has been written before. -/
def PlainEnd.after (earlier : List (Channel × String)) (left : PlainEnd) : PlainEnd :=
  { left with written := left.written ++ earlier }

theorem World.withPlain_withPlain (world : World) (first second : PlainEnd) :
    (world.withPlain first).withPlain second = world.withPlain (second.after first.written) := by
  have written : second.written ++ (first.written ++ world.written) =
      (second.written ++ first.written) ++ world.written := (List.append_assoc _ _ _).symm
  exact congrArg (fun written => { world.withPlain second with written }) written

/-! ### Plain runs -/

namespace Run

variable {α β : Type}

/-- Whether a run reads nothing but the plain part and the variables around, changes nothing but the
plain part, and ends in a way that is its own. -/
def IsPlain (action : Run α) : Prop :=
  ∃ step : List (Table Value) → Plain → EStateM.Result Exit PlainEnd α,
    (∀ around plain, endsPlainly (step around plain) = true) ∧
      ∀ world, action world = mapState world.withPlain (step world.around world.plain)

theorem isPlain_pure (value : α) : IsPlain (pure value : Run α) :=
  ⟨fun _ plain => .ok value ⟨plain, []⟩, fun _ _ => rfl, fun _ => rfl⟩

variable {exit : Exit} {action : Run α} {next : α → Run β} {cause : Fault} {world after : World}
  {value : α}

theorem isPlain_throw (isPlain : exit.isPlain = true) : IsPlain (throw exit : Run α) :=
  ⟨fun _ plain => .error exit ⟨plain, []⟩, fun _ _ => isPlain, fun _ => rfl⟩

theorem isPlain_bind (head : IsPlain action) (tail : ∀ value, IsPlain (next value)) :
    IsPlain (action >>= next) := by
  obtain ⟨step, plain, steps⟩ := head
  choose rest rests using tail
  -- what is written first stands behind what is written later
  refine ⟨fun around plain => onward (fun value between =>
      mapState (PlainEnd.after between.written) (rest value around between.toPlain))
      (step around plain),
    fun around before => endsPlainly_onward (plain around before) fun value between => ?_,
    fun world => ?_⟩
  · rw [endsPlainly_mapState]
    exact (rests value).1 around between.toPlain
  show EStateM.bind action next world = mapState world.withPlain (onward _ _)
  rw [EStateM.bind, steps world]
  cases step world.around world.plain with
  | ok value between =>
    show next value (world.withPlain between) = mapState world.withPlain (mapState _ _)
    rw [(rests value).2, World.around_withPlain, World.plain_withPlain]
    cases rest value world.around between.toPlain with
    | ok result left =>
      exact congrArg (EStateM.Result.ok result) (world.withPlain_withPlain between left)
    | error exit left =>
      exact congrArg (EStateM.Result.error exit) (world.withPlain_withPlain between left)
  | error exit left => rfl

/-! ### The pieces that are plain -/

theorem isPlain_fail (isPlain : cause.isPlain = true) : IsPlain (fail cause : Run α) :=
  isPlain_throw isPlain

theorem isPlain_report {cause : Report} (isPlain : cause.isPlain = true) :
    IsPlain (report cause : Run α) :=
  isPlain_fail isPlain

theorem isPlain_refuse (cause : Refusal) : IsPlain (refuse cause : Run α) :=
  isPlain_fail cause.isPlain_fault

theorem isPlain_ofExcept (result : Except Refusal α) : IsPlain (ofExcept result) := by
  cases result with
  | ok value => exact isPlain_pure value
  | error cause => exact isPlain_refuse cause

/-- A run that goes on only where it is described what comes next. -/
theorem isPlain_within (isDescribed : Bool) : IsPlain (within isDescribed) := by
  cases isDescribed with
  | true => exact isPlain_pure ()
  | false => exact isPlain_throw rfl

theorem look_bind (view : World → α) (next : α → Run β) (world : World) :
    (look view >>= next) world = next (view world) world := rfl

theorem bind_ok (ended : action world = .ok value after) :
    (action >>= next) world = next value after := by
  show EStateM.bind action next world = _
  rw [EStateM.bind, ended]

theorem bind_error (ended : action world = .error exit after) :
    (action >>= next) world = .error exit after := by
  show EStateM.bind action next world = _
  rw [EStateM.bind, ended]

theorem ok_of_run' (done : action.run' world = some value) :
    ∃ after, action world = .ok value after := by
  delta EStateM.run' EStateM.run at done
  cases ended : action world with
  | ok result after =>
    rw [ended] at done
    cases done
    exact ⟨after, rfl⟩
  | error exit after =>
    rw [ended] at done
    cases done

theorem isPlain_look (view : List (Table Value) → Plain → α) :
    IsPlain (look fun world => view world.around world.plain) :=
  ⟨fun around plain => .ok (view around plain) ⟨plain, []⟩, fun _ _ => rfl, fun _ => rfl⟩

theorem isPlain_lookHeap (view : Heap → α) : IsPlain (look fun world => view world.heap) :=
  isPlain_look fun _ plain => view plain.heap

theorem isPlain_fromHeap (view : Heap → Except Refusal α) : IsPlain (fromHeap view) :=
  isPlain_bind (isPlain_lookHeap id) fun heap => isPlain_ofExcept (view heap)

theorem isPlain_fromDescribed (view : Heap → Option (Except Refusal α)) :
    IsPlain (fromDescribed view) := by
  refine isPlain_bind (isPlain_lookHeap id) fun heap => ?_
  cases view heap with
  | none => exact isPlain_throw rfl
  | some result => exact isPlain_ofExcept result

theorem isPlain_isTrue (value : Value) : IsPlain (isTrue value) :=
  isPlain_lookHeap fun heap => heap.isTrue value

theorem isPlain_text (value : Value) : IsPlain (text value) :=
  isPlain_fromHeap fun heap => heap.text value

theorem isPlain_modify (change : Plain → Plain) :
    IsPlain (modify fun world => world.withPlain ⟨change world.plain, []⟩) :=
  ⟨fun _ plain => .ok () ⟨change plain, []⟩, fun _ _ => rfl, fun _ => rfl⟩

theorem isPlain_withHeap (action : Heap → Except Refusal (α × Heap)) :
    IsPlain (withHeap action) := by
  have apart : withHeap action = fromHeap action >>= fun found =>
      modify (fun world => world.withPlain ⟨{ world.plain with heap := found.2 }, []⟩) >>= fun _ =>
        pure found.1 := by
    funext world
    show _ = EStateM.bind (ofExcept (action world.heap)) _ world
    rw [withHeap]
    cases action world.heap <;> rfl
  rw [apart]
  refine isPlain_bind (isPlain_fromHeap action) fun found => ?_
  exact isPlain_bind (isPlain_modify fun plain => { plain with heap := found.2 }) fun _ =>
    isPlain_pure found.1

theorem isPlain_newDictionary (entries : List (Value × Value)) : IsPlain (newDictionary entries) :=
  isPlain_withHeap _

theorem isPlain_put (address : Nat) (cell : Cell) : IsPlain (put address cell) :=
  isPlain_modify fun plain => { plain with heap := plain.heap.put address cell }

variable (name : String) (settings : Settings)

theorem isPlain_setVariable (value : Value) : IsPlain (setVariable name value) :=
  isPlain_modify fun plain => { plain with bindings := plain.bindings.insert name value }

theorem isPlain_unset : IsPlain (changeScope fun scope => scope.unset name) :=
  isPlain_modify fun plain => { plain with bindings := plain.bindings.erase name }

theorem isPlain_write (channel : Channel) (text : String) :
    IsPlain (modify fun world => world.write channel text) :=
  ⟨fun _ plain => .ok () ⟨plain, [(channel, text)]⟩, fun _ _ => rfl, fun _ => rfl⟩

theorem isPlain_writeLine (text : String) : IsPlain (writeLine text) := isPlain_write _ _

theorem isPlain_draw : IsPlain draw :=
  ⟨fun _ plain => .ok (plain.seed / Nat.pow 2 11)
    ⟨{ plain with seed := World.nextSeed plain.seed }, []⟩, fun _ _ => rfl, fun _ => rfl⟩

/-! ### Meanings that are plain -/

/-- The value of a variable depends on nothing but variables. -/
theorem get?_eq_findSome? (scopes : List (Scope Value Routine)) (name : String) :
    Scope.get? scopes name =
      (scopes.map Scope.bindings).findSome? fun table => table.get? name := by
  induction scopes with
  | nil => rfl
  | cons scope around ih =>
    rw [Scope.get?, List.map_cons, List.findSome?_cons, ih]
    cases scope.bindings.get? name <;> rfl

theorem isPlain_variableValue : IsPlain (variableValue name) := by
  rw [variableValue]
  simp only [get?_eq_findSome?]
  refine isPlain_bind (isPlain_look fun around plain =>
    (plain.bindings :: around).findSome? fun table => table.get? name) fun found => ?_
  cases found with
  | some value => exact isPlain_pure value
  | none => exact isPlain_fail rfl

theorem isPlain_setProperty (owner : Value) (name : String) (value : Value) :
    IsPlain (setProperty owner name value) := by
  refine isPlain_bind (isPlain_within _) fun _ => ?_
  cases owner with
  | dictionary address =>
    exact isPlain_bind (isPlain_lookHeap fun heap => heap.entries address) fun _ => isPlain_put _ _
  | _ =>
    refine isPlain_bind (isPlain_lookHeap fun heap => heap.attribute? _ name) fun found => ?_
    split
    · exact isPlain_report rfl
    · have set : IsPlain (modify fun world : World =>
          { world with heap := world.heap.setMember .math name value }) :=
        isPlain_modify fun plain => { plain with heap := plain.heap.setMember .math name value }
      split <;> first | exact set | exact isPlain_throw rfl

theorem isPlain_setItem (owner position value : Value) :
    IsPlain (setItem owner position value) := by
  cases owner with
  | list address =>
    refine isPlain_bind (isPlain_lookHeap fun heap => heap.items address) fun items => ?_
    split
    · exact isPlain_put _ _
    · exact isPlain_bind (isPlain_text position) fun _ => isPlain_report rfl
  | dictionary address =>
    refine isPlain_bind (isPlain_ofExcept position.asKey) fun key => ?_
    exact isPlain_bind (isPlain_lookHeap fun heap => heap.entries address) fun _ => isPlain_put _ _
  | _ => exact isPlain_report rfl

theorem isPlain_decide (relation : Relation) (left right : Value) :
    IsPlain (relation.decide left right) :=
  isPlain_bind (isPlain_fromHeap _) fun _ => isPlain_pure _

/-- What an operator does that the language knows. -/
theorem isPlain_binary {operator : BinaryOperator} (known : ∀ name, operator ≠ .unknown name)
    (left right : Value) : IsPlain (operator.apply left right) := by
  cases operator with
  | plus => exact isPlain_withHeap fun heap => heap.plus left right
  | minus => exact isPlain_withHeap fun heap => heap.minus left right
  | times => exact isPlain_withHeap fun heap => heap.times left right
  | dividedBy => exact isPlain_withHeap fun heap => heap.dividedBy left right
  | equals => exact isPlain_lookHeap fun heap => Value.boolean (heap.equal left right)
  | doesNotEqual => exact isPlain_lookHeap fun heap => Value.boolean (!heap.equal left right)
  | isGreaterThan | isLessThan | isAtLeast | isAtMost => exact isPlain_decide _ left right
  | and | or => exact isPlain_bind (isPlain_isTrue left) fun _ => isPlain_pure _
  | unknown name => exact absurd rfl (known name)

theorem isPlain_not (operand : Value) : IsPlain (UnaryOperator.not.apply operand) :=
  isPlain_bind (isPlain_isTrue operand) fun _ => isPlain_pure _

theorem isPlain_shuffled (count : Nat) (values : List Value) :
    IsPlain (shuffled count values) := by
  induction count generalizing values with
  | zero => exact isPlain_pure values
  | succ count ih =>
    refine isPlain_bind isPlain_draw fun drawn => ?_
    dsimp only
    split
    · exact isPlain_pure _
    · exact isPlain_bind (ih _) fun _ => isPlain_pure _

theorem isPlain_allowedLibrary : IsPlain (allowedLibrary name) := by
  rw [allowedLibrary]
  cases Library.ofName? name with
  | some library => exact isPlain_pure library
  | none => exact isPlain_report rfl

theorem isPlain_announce (incoming : Incoming) : IsPlain (announce incoming) := by
  refine isPlain_bind (isPlain_newDictionary _) fun query => ?_
  refine isPlain_bind (isPlain_newDictionary _) fun headers => ?_
  refine isPlain_bind (isPlain_newDictionary _) fun body => ?_
  exact isPlain_bind (isPlain_newDictionary _) fun request => isPlain_setVariable _ _

theorem isPlain_showRoutes (routes : List Route) : IsPlain (showRoutes routes) := by
  induction routes with
  | nil => exact isPlain_pure ()
  | cons route rest ih =>
    exact isPlain_bind (isPlain_writeLine _) fun _ => ih

/-! ### Permissions and failures outside -/

/-- What lies behind a check happens where it is allowed. -/
theorem checked_eq (activity : Permission) (action : Run α) :
    (check settings activity >>= fun _ => action) =
      if settings.permissions.allows activity = true then action
      else report (.denied activity) := by
  rw [check]
  split <;> rfl

theorem isPlain_failOutside {wording : String → Report}
    (isPlain : ∀ text, (wording text).isPlain = true) (cause : Refusal) :
    IsPlain (failOutside settings wording cause : Run α) := by
  rw [failOutside]
  split
  · exact isPlain_refuse cause
  · exact isPlain_report (isPlain _)

theorem isPlain_callMember (value : Value) (values : List Value) :
    IsPlain (callMember value values) := by
  rw [callMember]
  split
  · exact isPlain_fail rfl
  split
  · refine isPlain_bind (isPlain_lookHeap fun heap => heap.items _) fun items => ?_
    split
    · exact isPlain_bind (isPlain_put _ _) fun _ => isPlain_pure _
    · exact isPlain_throw rfl
  · exact isPlain_bind (isPlain_within _) fun _ => isPlain_bind isPlain_draw fun _ =>
      isPlain_withHeap _

theorem isPlain_callSet (builtin : Builtin) (values : List Value) :
    IsPlain (callSet builtin values) := by
  refine isPlain_bind (isPlain_lookHeap fun heap =>
    builtin.member?.bind fun place => heap.member? place.1 place.2) fun found => ?_
  cases found with
  | none => exact isPlain_pure none
  | some value =>
    refine isPlain_bind (isPlain_ofExcept _) fun _ => ?_
    exact isPlain_bind (isPlain_callMember value values) fun _ => isPlain_pure _

theorem isPlain_foreignResult (name : String) (values : List Value) :
    IsPlain (foreignResult settings name values) :=
  isPlain_bind (isPlain_within _) fun _ => isPlain_bind isPlain_draw fun _ => isPlain_withHeap _

/-! ### Runs that leave the variables alone -/

/-- Whether a run leads from every world to one that stands in the relation to it, whatever way the
run ends. -/
def Keeps (kept : World → World → Prop) (action : Run α) : Prop :=
  ∀ world, kept world (final (action world))

theorem keeps_bind {kept : World → World → Prop} (head : action.Keeps kept)
    (tail : ∀ value, (next value).Keeps kept)
    (trans : ∀ before between after, kept before between → kept between after →
      kept before after) : (action >>= next).Keeps kept := by
  intro world
  have begun := head world
  show kept world (final (EStateM.bind action next world))
  rw [EStateM.bind]
  generalize action world = result at begun ⊢
  cases result with
  | ok value after => exact trans world after _ begun (tail value after)
  | error exit after => exact begun

/-- Whether a run leaves the innermost scope and every list and dictionary as they are, whatever way
it ends. -/
def IsTame (action : Run α) : Prop :=
  action.Keeps fun before after => after.scope = before.scope ∧ before.heap.GrowsTo after.heap

theorem isTame_bind (head : action.IsTame) (tail : ∀ value, (next value).IsTame) :
    (action >>= next).IsTame :=
  keeps_bind head tail fun _ _ _ first second =>
    ⟨second.1.trans first.1, first.2.trans second.2⟩

theorem isTame_ofExcept (result : Except Refusal α) : (ofExcept result).IsTame := by
  cases result <;> exact fun _ => ⟨rfl, .refl _⟩

theorem isTame_fromHeap (view : Heap → Except Refusal α) : (fromHeap view).IsTame :=
  fun world => isTame_ofExcept (view world.heap) world

theorem isTame_fromDescribed (view : Heap → Option (Except Refusal α)) :
    (fromDescribed view).IsTame := by
  intro world
  rw [fromDescribed, look_bind]
  cases view world.heap with
  | none => exact ⟨rfl, .refl _⟩
  | some result => exact isTame_ofExcept result world

theorem isTame_withHeap {action : Heap → Except Refusal (α × Heap)}
    (grows : ∀ heap : Heap, heap.Grows (action heap)) : (withHeap action).IsTame := by
  intro world
  rw [withHeap]
  split
  · rename_i found ended
    exact ⟨rfl, grows _ _ ended⟩
  · exact ⟨rfl, .refl _⟩

theorem isTame_draw : draw.IsTame := by
  intro world
  rw [draw, final_ok]
  exact ⟨rfl, .refl _⟩

theorem isTame_variableValue : (variableValue name).IsTame := by
  refine isTame_bind (fun _ => ⟨rfl, .refl _⟩) fun found => ?_
  cases found <;> exact fun _ => ⟨rfl, .refl _⟩

theorem isTame_binary (operator : BinaryOperator) (left right : Value) :
    (operator.apply left right).IsTame := by
  cases operator with
  | plus => exact isTame_withHeap fun heap => heap.grows_plus left right
  | minus => exact isTame_withHeap fun heap => heap.grows_minus left right
  | times => exact isTame_withHeap fun heap => heap.grows_times left right
  | dividedBy => exact isTame_withHeap fun heap => heap.grows_dividedBy left right
  | equals | doesNotEqual | and | or | unknown => exact fun _ => ⟨rfl, .refl _⟩
  | isGreaterThan | isLessThan | isAtLeast | isAtMost =>
    exact isTame_bind (isTame_fromHeap _) fun _ _ => ⟨rfl, .refl _⟩

theorem isTame_allowedLibrary : (allowedLibrary name).IsTame := by
  rw [allowedLibrary]
  cases Library.ofName? name <;> exact fun _ => ⟨rfl, .refl _⟩

end Run

/-! ### Parameters -/

namespace Scope

variable (scope : Scope Value Routine)

theorem bind_same (parameters : List String) (values : List Value) :
    (scope.bind parameters values).functions = scope.functions ∧
      (scope.bind parameters values).call = scope.call := by
  induction parameters generalizing scope values with
  | nil => exact ⟨rfl, rfl⟩
  | cons parameter rest ih =>
    cases values <;> exact ih _ _

/-- The variables of a call do not depend on the functions that its scope begins with. -/
theorem bindings_bind {one other : Scope Value Routine} (same : one.bindings = other.bindings)
    (parameters : List String) (values : List Value) :
    (one.bind parameters values).bindings = (other.bind parameters values).bindings := by
  induction parameters generalizing one other values with
  | nil => exact same
  | cons parameter rest ih =>
    cases values with
    | nil => exact ih (congrArg (Table.insert · parameter .nothing) same) []
    | cons value values =>
      exact ih (congrArg (Table.insert · parameter value) same) values

end Scope

end Parlance
