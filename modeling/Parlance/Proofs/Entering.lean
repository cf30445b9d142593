import Parlance.Proofs.UnknownFunctions

/-!
Entering a function. A call whose arguments have values opens a scope, binds the parameters there
and starts the body, unless a function of the scope of the caller has captured a library, at
whatever depth of lists and dictionaries.
-/

namespace Parlance

open List

/-! ### What values hold -/

namespace Heap

variable {heap : Heap} {values : List Value} {seen : List Nat} {value : Value}

/-- What values hold: themselves, and what is in a cell that they hold. -/
inductive Holds (heap : Heap) (values : List Value) : Value → Prop
  | among {value : Value} : value ∈ values → Holds heap values value
  | within {holder value : Value} {address : Nat} : Holds heap values holder →
      address ∈ addresses [holder] → value ∈ heap.content address → Holds heap values value

theorem Holds.trans {inner : List Value} (holds : heap.Holds inner value)
    (each : ∀ held ∈ inner, heap.Holds values held) : heap.Holds values value := by
  induction holds with
  | among member => exact each _ member
  | within _ cell inside ih => exact .within ih cell inside

variable {address rounds : Nat} {unseen : List Nat}

theorem mem_addresses :
    address ∈ addresses values ↔ ∃ value ∈ values, address ∈ addresses [value] := by
  simp only [addresses, mem_filterMap, mem_singleton, exists_eq_left]

theorem content_of_next_le (outside : heap.next ≤ address) : heap.content address = [] := by
  have none : heap.cells[address]? = none := Array.getElem?_eq_none outside
  rw [content, items, entries, none]
  rfl

theorem isLibrary_eq_false (unfound : values.any isLibrary = false) (member : value ∈ values) :
    isLibrary value = false :=
  Bool.eq_false_iff.mpr (any_eq_false.mp unfound value member)

/-- The cells among values that have not been seen. -/
def fresh (seen : List Nat) (values : List Value) : List Nat :=
  (addresses values).eraseDups.filter fun address => !seen.contains address

theorem mem_fresh : address ∈ fresh seen values ↔ address ∈ addresses values ∧ address ∉ seen := by
  simp [fresh]

theorem mem_fresh_append (ahead : address ∈ addresses values) :
    address ∈ fresh seen values ++ seen := by
  by_cases isSeen : address ∈ seen
  · exact mem_append_right _ isSeen
  · exact mem_append_left _ (mem_fresh.mpr ⟨ahead, isSeen⟩)

theorem holdsLibrary_succ (rounds : Nat) : heap.holdsLibrary (rounds + 1) seen values =
    (values.any isLibrary || !(fresh seen values).isEmpty &&
      heap.holdsLibrary rounds (fresh seen values ++ seen)
        ((fresh seen values).flatMap heap.content)) := rfl

theorem exists_of_holdsLibrary (found : heap.holdsLibrary rounds seen values = true) :
    ∃ value, heap.Holds values value ∧ isLibrary value = true := by
  induction rounds generalizing seen values with
  | zero =>
    obtain ⟨value, member, library⟩ := any_eq_true.mp found
    exact ⟨value, .among member, library⟩
  | succ rounds ih =>
    rw [holdsLibrary_succ, Bool.or_eq_true, Bool.and_eq_true] at found
    rcases found with here | ⟨-, deeper⟩
    · obtain ⟨value, member, library⟩ := any_eq_true.mp here
      exact ⟨value, .among member, library⟩
    · obtain ⟨value, holds, library⟩ := ih deeper
      refine ⟨value, holds.trans fun held member => ?_, library⟩
      obtain ⟨address, isFresh, inside⟩ := mem_flatMap.mp member
      obtain ⟨holder, among, cell⟩ := mem_addresses.mp (mem_fresh.mp isFresh).1
      exact .within (.among among) cell inside

/-- Cells without a library, whose cells are among them or empty. -/
def IsClean (heap : Heap) (cells : List Nat) : Prop :=
  ∀ address ∈ cells, ∀ value ∈ heap.content address,
    isLibrary value = false ∧ ∀ inner ∈ addresses [value], inner ∈ cells ∨ heap.content inner = []

/-- How far a search has come: what is in the cells that have been seen comes next or has been
looked at. -/
def IsSearched (heap : Heap) (seen : List Nat) (values : List Value) : Prop :=
  ∀ address ∈ seen, ∀ value ∈ heap.content address,
    value ∈ values ∨ isLibrary value = false ∧ ∀ inner ∈ addresses [value], inner ∈ seen

theorem IsSearched.isClean (searched : IsSearched heap seen values)
    (unfound : values.any isLibrary = false)
    (known : ∀ address ∈ addresses values, address ∈ seen ∨ heap.content address = []) :
    IsClean heap seen := by
  intro address isSeen value inside
  rcases searched address isSeen value inside with next | ⟨unlike, within⟩
  · exact ⟨isLibrary_eq_false unfound next,
      fun inner cell => known inner (mem_addresses.mpr ⟨value, next, cell⟩)⟩
  · exact ⟨unlike, fun inner cell => .inl (within inner cell)⟩

theorem IsSearched.next (searched : IsSearched heap seen values)
    (unfound : values.any isLibrary = false) :
    IsSearched heap (fresh seen values ++ seen) ((fresh seen values).flatMap heap.content) := by
  intro address isSeen value inside
  rcases mem_append.mp isSeen with isFresh | isSeen
  · exact .inl (mem_flatMap.mpr ⟨address, isFresh, inside⟩)
  refine .inr ?_
  rcases searched address isSeen value inside with next | ⟨unlike, within⟩
  · exact ⟨isLibrary_eq_false unfound next,
      fun inner cell => mem_fresh_append (mem_addresses.mpr ⟨value, next, cell⟩)⟩
  · exact ⟨unlike, fun inner cell => mem_append_right _ (within inner cell)⟩

/-- A round meets a cell of the heap that had not been seen, or nothing comes after it. -/
theorem exists_fewer (rest : ∀ address, address < heap.next → address ∈ seen ∨ address ∈ unseen)
    (enough : unseen.length ≤ rounds + 1 ∨ values = []) : ∃ fewer : List Nat,
      (∀ address, address < heap.next → address ∈ fresh seen values ++ seen ∨ address ∈ fewer) ∧
        (fewer.length ≤ rounds ∨ (fresh seen values).flatMap heap.content = []) := by
  by_cases meets : ∃ address ∈ fresh seen values, address < heap.next
  · obtain ⟨met, isFresh, inside⟩ := meets
    obtain ⟨ahead, isNew⟩ := mem_fresh.mp isFresh
    refine ⟨unseen.erase met, fun address within => ?_, .inl ?_⟩
    · rcases rest address within with isSeen | left
      · exact .inl (mem_append_right _ isSeen)
      · by_cases same : address = met
        · exact .inl (mem_append_left _ (same ▸ isFresh))
        · exact .inr ((mem_erase_of_ne same).mpr left)
    · rcases enough with enough | rfl
      · rw [length_erase_of_mem ((rest met inside).resolve_left isNew)]
        exact Nat.sub_le_of_le_add enough
      · cases ahead
  · have empty : (fresh seen values).flatMap heap.content = [] :=
      flatMap_eq_nil_iff.mpr fun address isFresh =>
        content_of_next_le (Nat.le_of_not_lt fun inside => meets ⟨address, isFresh, inside⟩)
    exact ⟨unseen, fun address within => (rest address within).imp_left (mem_append_right _),
      .inr empty⟩

/-- A search that finds no library has looked at everything, if the rounds were enough for the
cells that had not been seen. -/
theorem exists_isClean (unfound : heap.holdsLibrary rounds seen values = false)
    (searched : IsSearched heap seen values)
    (rest : ∀ address, address < heap.next → address ∈ seen ∨ address ∈ unseen)
    (enough : unseen.length ≤ rounds ∨ values = []) :
    values.any isLibrary = false ∧ ∃ cells, seen ⊆ cells ∧ IsClean heap cells ∧
      ∀ address ∈ addresses values, address ∈ cells ∨ heap.content address = [] := by
  induction rounds generalizing seen values unseen with
  | zero =>
    have known : ∀ address ∈ addresses values, address ∈ seen ∨ heap.content address = [] := by
      intro address ahead
      rcases enough with none | rfl
      · rcases Nat.lt_or_ge address heap.next with inside | outside
        · rw [length_eq_zero_iff.mp (Nat.le_zero.mp none)] at rest
          exact .inl ((rest address inside).resolve_right not_mem_nil)
        · exact .inr (content_of_next_le outside)
      · cases ahead
    exact ⟨unfound, seen, List.Subset.refl _, searched.isClean unfound known, known⟩
  | succ rounds ih =>
    rw [holdsLibrary_succ, Bool.or_eq_false_iff, Bool.and_eq_false_iff] at unfound
    obtain ⟨here, deeper⟩ := unfound
    refine ⟨here, ?_⟩
    rcases deeper with empty | deeper
    · have none : fresh seen values = [] := by simpa using empty
      have known (address : Nat) (ahead : address ∈ addresses values) : address ∈ seen := by
        have member : address ∈ fresh seen values ++ seen := mem_fresh_append ahead
        rwa [none] at member
      exact ⟨seen, List.Subset.refl _, searched.isClean here fun _ ahead => .inl (known _ ahead),
        fun _ ahead => .inl (known _ ahead)⟩
    · obtain ⟨fewer, rest, enough⟩ := exists_fewer rest enough
      obtain ⟨-, cells, within, clean, -⟩ :=
        ih deeper (searched.next here) rest enough
      exact ⟨cells, fun _ isSeen => within (mem_append_right _ isSeen), clean,
        fun _ ahead => .inl (within (mem_fresh_append ahead))⟩

/-- Values hold a library if and only if as many rounds as there are cells find one. -/
theorem holdsLibrary_iff : heap.holdsLibrary heap.next [] values = true ↔
    ∃ value, heap.Holds values value ∧ isLibrary value = true := by
  refine ⟨exists_of_holdsLibrary, ?_⟩
  rintro ⟨value, holds, library⟩
  refine by_contra fun unfound => ?_
  obtain ⟨here, cells, -, clean, known⟩ := exists_isClean (Bool.eq_false_iff.mpr unfound)
    (fun _ none => absurd none not_mem_nil)
    (fun address inside => .inr (mem_range.mpr inside)) (.inl (Nat.le_of_eq length_range))
  have met : value ∈ values ∨ ∃ address ∈ cells, value ∈ heap.content address := by
    clear library
    induction holds with
    | among member => exact .inl member
    | @within _ _ inner _ cell inside ih =>
      have next : inner ∈ cells ∨ heap.content inner = [] := by
        rcases ih with member | ⟨address, isCell, held⟩
        · exact known _ (mem_addresses.mpr ⟨_, member, cell⟩)
        · exact (clean address isCell _ held).2 _ cell
      rcases next with isCell | empty
      · exact .inr ⟨_, isCell, inside⟩
      · rw [empty] at inside
        cases inside
  have unlike : isLibrary value = false := by
    rcases met with member | ⟨address, isCell, inside⟩
    · exact isLibrary_eq_false here member
    · exact (clean address isCell value inside).1
  rw [unlike] at library
  cases library

end Heap

/-- A function of the innermost scope cannot be handed down if and only if it has captured a
library. -/
theorem World.capturesLibrary_iff {world : World} : world.capturesLibrary = true ↔
    ∃ captor ∈ world.scope.functions, ∃ value,
      world.heap.Holds (captor.2.captured.map Prod.snd) value ∧ Heap.isLibrary value = true := by
  rw [capturesLibrary, any_eq_true]
  exact exists_congr fun captor => and_congr_right fun _ => Heap.holdsLibrary_iff

/-! ### Parameters -/

namespace Scope

variable (scope : Scope Value Routine) {parameters : List String} {name : String}

theorem bind_cons (parameter : String) (rest : List String) (values : List Value) :
    scope.bind (parameter :: rest) values =
      (scope.set parameter (values.head?.getD .nothing)).bind rest values.tail := by
  cases values <;> rfl

variable (values : List Value)

theorem get?_bind_of_not_mem (other : name ∉ parameters) :
    (scope.bind parameters values).bindings.get? name = scope.bindings.get? name := by
  induction parameters generalizing scope values with
  | nil => rfl
  | cons parameter rest ih =>
    rw [mem_cons, not_or] at other
    rw [bind_cons, ih _ _ other.2, set, Table.get?_insert,
      if_neg (Ne.symm other.1)]

/-- A parameter stands for its argument, and for nothing without one. Of equal parameters the last
counts. -/
theorem get?_bind {position : Nat} (here : parameters[position]? = some name)
    (last : name ∉ parameters.drop (position + 1)) :
    (scope.bind parameters values).bindings.get? name = some (values[position]?.getD .nothing) := by
  induction parameters generalizing scope values position with
  | nil => cases here
  | cons parameter rest ih =>
    rw [bind_cons]
    cases position with
    | zero =>
      cases here
      have different : name ∉ rest := last
      rw [get?_bind_of_not_mem _ _ different, set, Table.get?_insert, if_pos rfl,
        List.head?_eq_getElem?]
    | succ position => rw [ih _ _ here last, List.getElem?_tail]

end Scope

/-! ### Calls -/

/-- A call of a known function whose arguments have values opens a scope with copies of the
functions of the caller, in which each parameter stands for its argument, and for nothing without
one, and no other name stands for a value; and what the call does then is what the body does there.
But if a function of the scope of the caller has captured a library, however deep, the call ends
with a fault and the body is not started. -/
theorem function_is_entered_unless_library_is_captured (settings : Settings) (depth : Nat)
    {name : String} {arguments : List Expr} {function : Routine} {world between : World}
    {values : List Value} (copies : settings.handing = .copies)
    (own : Builtin.ofName? name = none)
    (known : Scope.function? world.scopes name = some function)
    (given : (Engine.ofDepth settings depth).evaluateAll arguments world = .ok values between) :
    let engine := Engine.ofDepth settings depth
    let captured := ∃ captor ∈ between.scope.functions, ∃ value,
      between.heap.Holds (captor.2.captured.map Prod.snd) value ∧ Heap.isLibrary value = true
    let scope := (between.callScope between.editions).bind function.parameters values
    (¬ captured → engine.call name arguments world =
      Run.namingFunction name (Run.inScope scope (Run.givenBack (engine.runBlock function.block)))
        { between with editions := between.editions + 1 }) ∧
    (captured → engine.call name arguments world =
      .error (.fault (.wrongType .uncopyable))
        { between with journal := .refusal :: between.journal }) ∧
    (∀ position parameter, function.parameters[position]? = some parameter →
      parameter ∉ function.parameters.drop (position + 1) →
        scope.bindings.get? parameter = some (values[position]?.getD .nothing)) ∧
    (∀ other, other ∉ function.parameters → scope.bindings.get? other = none) ∧
    scope.functions = between.scope.functions.map fun function =>
      (function.1, function.2.copy between.editions) := by
  intro engine captured scope
  have called := engine.call_known function arguments own known
  have applied : engine.application function arguments world =
      (Engine.openScope .copies >>= fun scope => Run.inScope (scope.bind function.parameters values)
        (Run.givenBack (engine.runBlock function.block))) between := by
    rw [Engine.application, Run.bind_ok given]
    show (Engine.openScope settings.handing >>= _) between = _
    rw [copies]
  refine ⟨fun free => ?_, fun library => ?_, fun position parameter => Scope.get?_bind _ values,
    fun other => Scope.get?_bind_of_not_mem _ values, (Scope.bind_same _ _ _).1⟩
  · have unbarred : between.capturesLibrary = false :=
      Bool.eq_false_iff.mpr fun captures => free (World.capturesLibrary_iff.mp captures)
    rw [called, Run.namingFunction, applied, Run.bind_ok (Run.openScope_copies unbarred)]
    rfl
  · have refused := Run.openScope_refused (World.capturesLibrary_iff.mpr library)
    rw [called, Run.namingFunction, applied, Run.bind_error refused]

theorem function_is_entered_without_second_argument :
    let settings : Settings := { permissions := ⟨fun _ => false⟩ }
    let engine := Engine.ofDepth settings 1
    let function : Routine := ⟨["first", "second"], ⟨[], [.say [.identifier "second"]]⟩, []⟩
    let world : World := { scope := ⟨[], [("f", function)], none⟩, files := .bare }
    ∃ scope, engine.call "f" [.boolean true] world =
        Run.namingFunction "f" (Run.inScope scope (Run.givenBack (engine.runBlock function.block)))
          { world with editions := world.editions + 1 } ∧
      scope.bindings.get? "first" = some (.boolean true) ∧
      scope.bindings.get? "second" = some .nothing := by
  intro settings engine function world
  have known : Scope.function? world.scopes "f" = some function := rfl
  have given : engine.evaluateAll [.boolean true] world = .ok [.boolean true] world := rfl
  obtain ⟨enters, -, binds, -⟩ :=
    function_is_entered_unless_library_is_captured settings 1 rfl (by decide) known given
  have free : world.capturesLibrary = false := by decide +kernel
  have entered := enters fun captured =>
    Bool.eq_false_iff.mp free (World.capturesLibrary_iff.mpr captured)
  exact ⟨_, entered, binds 0 "first" rfl (by decide), binds 1 "second" rfl (by decide)⟩

/-- A name stands for a library when a function is defined, and the function cannot be called. -/
theorem function_is_not_entered_after_library :
    let settings : Settings := { permissions := ⟨fun _ => true⟩ }
    let world : World := Beginning.world { files := .bare }
    let used := Run.final (execute settings 9 (.useForeign "math" "math") world)
    let defined := Run.final (execute settings 9 (.define "f" [] []) used)
    Builtin.ofName? "f" = none ∧ (Scope.function? defined.scopes "f").isSome = true ∧
      execute settings 9 (.call "f" []) defined =
        .error (.fault (.wrongType .uncopyable))
          { defined with journal := .refusal :: defined.journal } := by
  intro settings world used defined
  exact ⟨by decide, by decide +kernel, rfl⟩

end Parlance
