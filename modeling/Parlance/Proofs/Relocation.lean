import Parlance.Evaluate.Access

/-!
Heaps that differ in where their newer cells lie. A relocation moves the addresses from some address
on, and the marks from some mark on. If a heap is another one with its newer cells moved, then
whatever is read of it or made from it is the same, moved in the same way.
-/

namespace Parlance

open Entries Heap List

/-- From which address and from which mark on something is moved, and by how much. -/
structure Relocation where
  firstCell : Nat
  cellsBy : Nat
  firstMark : Nat
  marksBy : Nat

namespace Relocation

/-! ### Moving values -/

/-- A number that is moved if it is not below the first one. -/
def shifted (first amount number : Nat) : Nat := if number < first then number else number + amount

variable (moving : Relocation)

def address (place : Nat) : Nat := shifted moving.firstCell moving.cellsBy place

def mark : Mark → Mark
  | .made number => .made (shifted moving.firstMark moving.marksBy number)
  | other => other

def value : Value → Value
  | .list place => .list (moving.address place)
  | .dictionary place => .dictionary (moving.address place)
  | .undefined mark => .undefined (moving.mark mark)
  | other => other

def entry (pair : Value × Value) : Value × Value := (moving.value pair.1, moving.value pair.2)

def cell : Cell → Cell
  | .list items => .list (items.map moving.value)
  | .dictionary entries => .dictionary (entries.map moving.entry)

theorem shifted_inj {first amount one other : Nat} :
    shifted first amount one = shifted first amount other ↔ one = other := by
  unfold shifted
  constructor
  · intro same
    split at same <;> split at same <;> omega
  · rintro rfl
    rfl

theorem mark_inj {one other : Mark} : moving.mark one = moving.mark other ↔ one = other := by
  cases one <;> cases other <;> simp [mark, shifted_inj]

@[simp] theorem typeName_value (value : Value) : (moving.value value).typeName = value.typeName := by
  cases value <;> rfl

@[simp] theorem number?_value (value : Value) : (moving.value value).number? = value.number? := by
  cases value <;> rfl

@[simp] theorem int?_value (value : Value) : (moving.value value).int? = value.int? := by
  rw [Value.int?, Value.int?, number?_value]

@[simp] theorem isKey_value (value : Value) : (moving.value value).isKey = value.isKey := by
  cases value <;> rfl

theorem identical_value (left right : Value) :
    (moving.value left).identical (moving.value right) = left.identical right := by
  cases left with
  | list a =>
    cases right with
    | list b => exact decide_eq_decide.mpr shifted_inj
    | _ => rfl
  | dictionary a =>
    cases right with
    | dictionary b => exact decide_eq_decide.mpr shifted_inj
    | _ => rfl
  | undefined m =>
    cases right with
    | undefined n => exact decide_eq_decide.mpr moving.mark_inj
    | _ => rfl
  | _ => cases right <;> rfl

theorem sameKey_value (left right : Value) :
    (moving.value left).sameKey (moving.value right) = left.sameKey right := by
  cases left with
  | undefined m =>
    cases right with
    | undefined n => exact decide_eq_decide.mpr moving.mark_inj
    | _ => rfl
  | _ => cases right <;> rfl

theorem asKey_value (value : Value) :
    (moving.value value).asKey = value.asKey.map moving.value := by
  rw [Value.asKey, Value.asKey, isKey_value, typeName_value]
  split <;> rfl

/-! ### Moving attributes -/

theorem map_method? (names : List String) (owner name : String) :
    (Value.method? names owner name).map moving.value = Value.method? names owner name := by
  rw [Value.method?]
  split <;> rfl

theorem map_numberPart? (number : Number) (name : String) :
    (Value.numberPart? number name).map moving.value = Value.numberPart? number name := by
  unfold Value.numberPart?
  split
  all_goals first | rfl | exact moving.map_method? _ _ _

variable (library : Library)

theorem map_constant? (name : String) :
    (library.constant? name).map moving.value = library.constant? name := by
  unfold Library.constant?
  split <;> rfl

theorem map_member? (name : String) :
    (library.member? name).map moving.value = library.member? name := by
  have constants := moving.map_constant? library name
  unfold Library.member?
  split
  · rename_i found
    rw [found] at constants
    exact constants
  · split
    · rfl
    · split
      · rfl
      · split <;> rfl

theorem map_outerMember? (owner name : String) :
    (Value.outerMember? owner name).map moving.value = Value.outerMember? owner name := by
  unfold Value.outerMember?
  split <;> rfl

theorem attribute?_value (value : Value) (name : String) :
    (moving.value value).attribute? name = (value.attribute? name).map moving.value := by
  cases value with
  | string text => exact (moving.map_method? _ _ _).symm
  | list place => exact (moving.map_method? _ _ _).symm
  | library owner => exact (moving.map_member? owner name).symm
  | undefined mark =>
    rw [Relocation.value, Value.attribute?, Value.attribute?]
    split
    · rfl
    · exact (moving.map_numberPart? _ name).symm
  | foreign type full =>
    by_cases isDictionary : type = "dict"
    · subst isDictionary
      exact (moving.map_method? _ _ _).symm
    · show (Value.foreign type full).attribute? name = _
      rw [Value.attribute?]
      · split
        · rfl
        · exact (moving.map_outerMember? full name).symm
      · exact isDictionary
  | number number => exact (moving.map_numberPart? number name).symm
  | boolean truth => exact (moving.map_numberPart? _ name).symm
  | nothing => rfl
  | dictionary place => rfl

theorem describes_value (value : Value) (name : String) :
    (moving.value value).describes name = value.describes name := by
  have same := congrArg Option.isSome (moving.attribute?_value value name)
  rw [Option.isSome_map] at same
  cases value with
  | dictionary place => rfl
  | list place => rfl
  | undefined mark => exact congrArg (· || (name.toList.head? != some '_' && true)) same
  | _ => rfl

/-! ### Moving entries -/

theorem get?_map (entries : List (Value × Value)) (key : Value) :
    get? (entries.map moving.entry) (moving.value key) =
      (get? entries key).map moving.value := by
  induction entries with
  | nil => rfl
  | cons pair rest ih =>
    obtain ⟨found, content⟩ := pair
    show get? ((moving.value found, moving.value content) :: rest.map moving.entry) _ = _
    rw [get?, get?, sameKey_value, ih]
    split <;> rfl

theorem insert_map (entries : List (Value × Value)) (key content : Value) :
    insert (entries.map moving.entry) (moving.value key) (moving.value content) =
      (insert entries key content).map moving.entry := by
  induction entries with
  | nil => rfl
  | cons pair rest ih =>
    obtain ⟨found, old⟩ := pair
    show insert ((moving.value found, moving.value old) :: rest.map moving.entry) _ _ = _
    rw [Entries.insert, Entries.insert, sameKey_value, ih]
    split <;> rfl

theorem ofList_map (pairs : List (Value × Value)) :
    ofList (pairs.map moving.entry) = (ofList pairs).map moving.entry := by
  have all (entries : List (Value × Value)) :
      (pairs.map moving.entry).foldl (fun entries pair => insert entries pair.1 pair.2)
        (entries.map moving.entry) =
      (pairs.foldl (fun entries pair => insert entries pair.1 pair.2) entries).map
        moving.entry := by
    induction pairs generalizing entries with
    | nil => rfl
    | cons pair rest ih =>
      rw [map_cons, foldl_cons, foldl_cons, ← ih, ← moving.insert_map]
      rfl
  exact all []

/-! ### Moving heaps -/

/-- Whether a heap is another one with its newer cells and marks moved. -/
structure Relates (heap moved : Heap) : Prop where
  older : moving.firstCell ≤ heap.next
  next : moved.next = heap.next + moving.cellsBy
  cells (place : Nat) : moved.cells[moving.address place]? = (heap.cells[place]?).map moving.cell
  olderMark : moving.firstMark ≤ heap.marks
  marks : moved.marks = heap.marks + moving.marksBy
  members (library : Library) (name : String) :
    moved.member? library name = (heap.member? library name).map moving.value

variable {moving} {heap moved : Heap}

namespace Relates

variable (relates : moving.Relates heap moved)

include relates

theorem address_next : moving.address heap.next = moved.next := by
  rw [address, shifted, if_neg (Nat.not_lt.mpr relates.older), relates.next]

variable (place : Nat) (relation : Relation)

theorem items : moved.items (moving.address place) = (heap.items place).map moving.value := by
  rw [Heap.items, Heap.items, relates.cells]
  cases heap.cells[place]? with
  | none => rfl
  | some cell => cases cell <;> rfl

theorem entries : moved.entries (moving.address place) = (heap.entries place).map moving.entry := by
  rw [Heap.entries, Heap.entries, relates.cells]
  cases heap.cells[place]? with
  | none => rfl
  | some cell => cases cell <;> rfl

/-! ### What is read -/

omit relates in
theorem equalItems {equal equalMoved : Value → Value → Bool}
    (same : ∀ left right, equalMoved (moving.value left) (moving.value right) = equal left right)
    (left right : List Value) :
    equalItems equalMoved (left.map moving.value) (right.map moving.value) =
      equalItems equal left right := by
  induction left generalizing right with
  | nil => cases right <;> rfl
  | cons x xs ih =>
    cases right with
    | nil => rfl
    | cons y ys =>
      rw [map_cons, map_cons, Heap.equalItems, Heap.equalItems, moving.identical_value, same, ih]

omit relates in
theorem equalEntries {equal equalMoved : Value → Value → Bool}
    (same : ∀ left right, equalMoved (moving.value left) (moving.value right) = equal left right)
    (left right : List (Value × Value)) :
    equalEntries equalMoved (left.map moving.entry) (right.map moving.entry) =
      equalEntries equal left right := by
  rw [Heap.equalEntries, Heap.equalEntries, length_map, length_map, all_map]
  refine congrArg _ (congrArg left.all (funext fun pair => ?_))
  dsimp only [Function.comp, entry]
  rw [moving.get?_map]
  cases get? right pair.1 with
  | none => rfl
  | some value =>
    show ((moving.value pair.2).identical (moving.value value) || _) = _
    rw [moving.identical_value, same]

theorem equalAt (depth : Nat) (left right : Value) :
    moved.equalAt depth (moving.value left) (moving.value right) =
      heap.equalAt depth left right := by
  induction depth generalizing left right with
  | zero => rfl
  | succ depth ih =>
    cases left with
    | list a =>
      cases right with
      | list b =>
        show Heap.equalItems _ (moved.items (moving.address a)) (moved.items (moving.address b)) = _
        rw [relates.items, relates.items, equalItems ih]
        rfl
      | _ => rfl
    | dictionary a =>
      cases right with
      | dictionary b =>
        show Heap.equalEntries _ (moved.entries (moving.address a))
          (moved.entries (moving.address b)) = _
        rw [relates.entries, relates.entries, equalEntries ih]
        rfl
      | _ => rfl
    | _ => cases right <;> rfl

theorem equal (left right : Value) :
    moved.equal (moving.value left) (moving.value right) = heap.equal left right :=
  relates.equalAt comparisonDepth left right

theorem compareItems {compare compareMoved : Value → Value → Except Refusal Bool}
    (same : ∀ left right,
      compareMoved (moving.value left) (moving.value right) = compare left right)
    (left right : List Value) :
    moved.compareItems relation compareMoved (left.map moving.value) (right.map moving.value) =
      heap.compareItems relation compare left right := by
  induction left generalizing right with
  | nil => cases right <;> rfl
  | cons x xs ih =>
    cases right with
    | nil => rfl
    | cons y ys =>
      rw [map_cons, map_cons, Heap.compareItems, Heap.compareItems,
        moving.identical_value, relates.equal, same, ih]

theorem compareAt (depth : Nat) (left right : Value) :
    moved.compareAt relation depth (moving.value left) (moving.value right) =
      heap.compareAt relation depth left right := by
  induction depth generalizing left right with
  | zero => rfl
  | succ depth ih =>
    cases left with
    | list a =>
      cases right with
      | list b =>
        show moved.compareItems relation _ (moved.items (moving.address a))
          (moved.items (moving.address b)) = _
        rw [relates.items, relates.items, relates.compareItems relation ih]
        rfl
      | _ => rfl
    | _ => cases right <;> rfl

theorem compare (left right : Value) :
    moved.compare relation (moving.value left) (moving.value right) =
      heap.compare relation left right :=
  relates.compareAt relation comparisonDepth left right

theorem isTrue (value : Value) : moved.isTrue (moving.value value) = heap.isTrue value := by
  cases value with
  | list a =>
    show (!(moved.items (moving.address a)).isEmpty) = _
    rw [relates.items, isEmpty_map]
    rfl
  | dictionary a =>
    show (!(moved.entries (moving.address a)).isEmpty) = _
    rw [relates.entries, isEmpty_map]
    rfl
  | _ => rfl

theorem attribute? (value : Value) (name : String) :
    moved.attribute? (moving.value value) name = (heap.attribute? value name).map moving.value := by
  have ordinary := moving.attribute?_value value name
  cases value with
  | library owner =>
    show ((moved.member? owner name).orElse fun _ => (Value.library owner).attribute? name) =
      ((heap.member? owner name).orElse fun _ => (Value.library owner).attribute? name).map _
    rw [relates.members]
    cases heap.member? owner name with
    | none => exact moving.attribute?_value (.library owner) name
    | some value => rfl
  | _ => exact ordinary

omit relates in
theorem getD_map (found : Option Value) :
    (found.map moving.value).getD .nothing = moving.value (found.getD .nothing) := by
  cases found <;> rfl

theorem property (value : Value) (name : String) :
    moved.property (moving.value value) name = moving.value (heap.property value name) := by
  have ordinary := congrArg (·.getD Value.nothing) (relates.attribute? value name)
  cases value with
  | dictionary place =>
    have found := moving.get?_map (heap.entries place) (.string name)
    rw [← relates.entries] at found
    exact (congrArg (·.getD Value.nothing) found).trans (getD_map _)
  | _ => exact ordinary.trans (getD_map _)

theorem item? (value index : Value) : moved.item? (moving.value value) (moving.value index) =
    (heap.item? value index).map (Option.map moving.value) := by
  cases value with
  | list place =>
    have samePlace (length : Nat) :
        listPlace? length (moving.value index) = listPlace? length index := by
      rw [listPlace?, listPlace?, int?_value]
    show Except.ok (some (((listPlace? (moved.items (moving.address place)).length
      (moving.value index)).bind fun position =>
        (moved.items (moving.address place))[position]?).getD .nothing)) =
      .ok (some (moving.value (((listPlace? (heap.items place).length index).bind
        fun position => (heap.items place)[position]?).getD .nothing)))
    rw [relates.items, length_map, samePlace, ← getD_map]
    cases listPlace? (heap.items place).length index with
    | none => rfl
    | some position => rw [Option.bind_some, Option.bind_some, List.getElem?_map]
  | dictionary place =>
    show ((moving.value index).asKey >>= fun key => pure
      (some ((get? (moved.entries (moving.address place)) key).getD .nothing))) =
      (index.asKey >>= fun key => pure (some ((get? (heap.entries place) key).getD .nothing))).map _
    rw [relates.entries, asKey_value]
    cases index.asKey with
    | error cause => rfl
    | ok key =>
      have found := (congrArg (·.getD Value.nothing)
        (moving.get?_map (heap.entries place) key)).trans (getD_map _)
      exact congrArg (fun content => Except.ok (some content)) found
  | _ => rfl

end Relates

/-! ### What is made -/

theorem Relates.add (relates : moving.Relates heap moved) (cell : Cell) :
    moving.Relates (heap.add cell) (moved.add (moving.cell cell)) where
  older := Nat.le_trans relates.older (by rw [Heap.next, Heap.next, Heap.add, Array.size_push]; omega)
  next := by
    have next := relates.next
    rw [Heap.next, Heap.next] at next ⊢
    rw [Heap.add, Heap.add, Array.size_push, Array.size_push, next]
    omega
  cells place := by
    have here : moving.address place = moved.cells.size ↔ place = heap.cells.size := by
      have last : moved.cells.size = moving.address heap.cells.size := relates.address_next.symm
      rw [last, address, address, shifted_inj]
    rw [Heap.add, Heap.add, Array.getElem?_push, Array.getElem?_push]
    by_cases same : place = heap.cells.size
    · rw [if_pos (here.mpr same), if_pos same, Option.map_some]
    · rw [if_neg (mt here.mp same), if_neg same, relates.cells]
  olderMark := relates.olderMark
  marks := relates.marks
  members := relates.members

/-- Whether two calculations end alike, the one with a moved result and a moved heap, or both with
the same fault. -/
inductive SameEnd (moving : Relocation) :
    (result movedResult : Except Refusal (Value × Heap)) → Prop
  | ok {value movedValue : Value} {heap moved : Heap} : movedValue = moving.value value →
    moving.Relates heap moved → SameEnd moving (.ok (value, heap)) (.ok (movedValue, moved))
  | error {cause : Refusal} : SameEnd moving (.error cause) (.error cause)

theorem SameEnd.ite {condition : Prop} [Decidable condition]
    {one other third fourth : Except Refusal (Value × Heap)} (yes : SameEnd moving one other)
    (no : SameEnd moving third fourth) :
    SameEnd moving (if condition then one else third) (if condition then other else fourth) := by
  split
  · exact yes
  · exact no

theorem repeated_map (moving : Relocation) (items : List Value) (count : Nat) :
    repeated (items.map moving.value) count =
      (repeated items count).map moving.value := by
  rw [repeated, repeated, isEmpty_map]
  split
  · rfl
  · rw [map_flatten, map_replicate]

namespace Relates

variable (relates : moving.Relates heap moved)

include relates

theorem same {value movedValue : Value} (isMoved : movedValue = moving.value value) :
    SameEnd moving (.ok (value, heap)) (.ok (movedValue, moved)) :=
  .ok isMoved relates

theorem newList {items movedItems : List Value} (areMoved : movedItems = items.map moving.value) :
    SameEnd moving (.ok (heap.newList items)) (.ok (moved.newList movedItems)) := by
  subst areMoved
  exact .ok (congrArg Value.list relates.address_next.symm) (relates.add (.list items))

theorem newDictionary {entries movedEntries : List (Value × Value)}
    (areMoved : movedEntries = entries.map moving.entry) :
    SameEnd moving (.ok (heap.newDictionary entries))
      (.ok (moved.newDictionary movedEntries)) := by
  subst areMoved
  exact .ok (congrArg Value.dictionary relates.address_next.symm)
    (relates.add (.dictionary entries))

theorem settle (number : Number) : SameEnd moving (.ok (heap.settle (.number number)))
    (.ok (moved.settle (.number number))) := by
  rw [Heap.settle, Heap.settle]
  split
  · have mark : Value.undefined (.made moved.marks) =
        moving.value (.undefined (.made heap.marks)) := by
      rw [value, Relocation.mark, shifted, if_neg (Nat.not_lt.mpr relates.olderMark), relates.marks]
    refine .ok mark { relates with
      olderMark := Nat.le_succ_of_le relates.olderMark
      marks := ?_ }
    show moved.marks + 1 = heap.marks + 1 + moving.marksBy
    rw [relates.marks]
    omega
  · exact relates.same rfl

theorem numeric (result : Except Refusal Number) :
    SameEnd moving (heap.numeric result) (moved.numeric result) := by
  cases result with
  | error cause => exact .error
  | ok number => exact relates.settle number

variable (left right : Value)

theorem plus : SameEnd moving (heap.plus left right)
    (moved.plus (moving.value left) (moving.value right)) := by
  cases left with
  | string s =>
    cases right with
    | string t => exact relates.same rfl
    | _ => exact .error
  | list a =>
    cases right with
    | list b =>
      refine relates.newList ?_
      rw [relates.items, relates.items, map_append]
    | _ => exact .error
  | boolean | number | undefined =>
    cases right with
    | boolean | number | undefined => exact relates.numeric _
    | _ => exact .error
  | _ => cases right <;> exact .error

theorem minus : SameEnd moving (heap.minus left right)
    (moved.minus (moving.value left) (moving.value right)) := by
  rw [Heap.minus, Heap.minus, number?_value, number?_value, typeName_value, typeName_value]
  cases left.number? with
  | none => exact .error
  | some x =>
    cases right.number? with
    | none => exact .error
    | some y => exact relates.numeric _

theorem repeatValue (sequence count : Value) : SameEnd moving
    (heap.repeatValue sequence count)
    (moved.repeatValue (moving.value sequence) (moving.value count)) := by
  have sameCount : repetitions (moving.value count) = repetitions count := by
    rw [repetitions, repetitions, int?_value, typeName_value]
  rw [Heap.repeatValue, Heap.repeatValue, sameCount, typeName_value, typeName_value]
  cases Heap.repetitions count with
  | error cause => exact .error
  | ok n =>
    cases sequence with
    | string s => exact .ite .error (.ite .error (relates.same rfl))
    | list a =>
      show SameEnd moving
        (if memoryLimit ≤ (heap.items a).length * n.toNat then .error .memory
          else .ok (heap.newList (repeated (heap.items a) n.toNat)))
        (if memoryLimit ≤ (moved.items (moving.address a)).length * n.toNat then .error .memory
          else .ok (moved.newList (repeated (moved.items (moving.address a)) n.toNat)))
      rw [relates.items, length_map]
      exact .ite .error (relates.newList (repeated_map moving _ _))
    | _ => exact .error

theorem times : SameEnd moving (heap.times left right)
    (moved.times (moving.value left) (moving.value right)) := by
  have sameKind (value : Value) : isSequence (moving.value value) = isSequence value := by
    cases value <;> rfl
  rw [Heap.times, Heap.times, sameKind, sameKind, number?_value, number?_value, typeName_value,
    typeName_value]
  split
  · exact relates.repeatValue left right
  · split
    · exact relates.repeatValue right left
    · cases left.number? with
      | none => exact .error
      | some x =>
        cases right.number? with
        | none => exact .error
        | some y => exact relates.numeric _

theorem dividedBy : SameEnd moving (heap.dividedBy left right)
    (moved.dividedBy (moving.value left) (moving.value right)) := by
  rw [Heap.dividedBy, Heap.dividedBy, number?_value, number?_value, typeName_value, typeName_value]
  cases left.number? with
  | none =>
    cases right.number? with
    | none => exact .error
    | some y =>
      dsimp only
      split <;> exact .error
  | some x =>
    cases right.number? with
    | none => exact .error
    | some y =>
      dsimp only
      split
      · exact .error
      · exact relates.numeric _

end Relates

end Relocation

end Parlance
