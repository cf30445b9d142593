import Mathlib.Data.List.Forall2
import Parlance.Proofs.Items
import Parlance.Proofs.Relocation

/-!
What filtering and mapping a list compute. The condition or the change is evaluated for one item
after another, in worlds that differ: earlier items have left cells behind, and the name of the item
has been put back.
-/

namespace Parlance

open Run List

variable {α β : Type}

/-! ### Simple expressions -/

/-- Whether an expression is a literal, a name, a property, an index, an operator with its operands,
or a literal of a list or a dictionary, whatever is inside it. -/
def Expr.IsSimple : Expr → Prop
  | .number _ | .undefined _ | .string _ | .boolean _ | .nothing | .pi | .identifier _
  | .binary _ _ _ | .unary _ _ | .property _ _ | .index _ _ | .list _ | .dictionary _
  | .object _ => True
  | _ => False

/-- A simple expression changes nothing, whatever the program has set as a member of a library. -/
theorem untouched_simple (settings : Settings) (depth : Nat) {expression : Expr}
    (simple : expression.Throughout Expr.IsSimple) :
    (evaluate settings depth expression).Keeps World.Untouched :=
  World.isFrame_untouched.keeps_evaluate settings depth id (fun calls => calls.elim)
    (fun calls => calls.elim) (fun looks => ((or_self _).mp looks).elim) simple

/-! ### Runs beside each other -/

namespace Relocation

variable {moving : Relocation}

/-- Whether a world is another one with its newer cells moved, as far as names and cells go. -/
structure Accompanies (moving : Relocation) (world beside : World) : Prop where
  heap : moving.Relates world.heap beside.heap
  names (name : String) :
    Scope.get? beside.scopes name = (Scope.get? world.scopes name).map moving.value

/-- Whether two runs have ended alike: both with a value, the second one a changed one, or both with
the same exit. -/
inductive SameOutcome (moving : Relocation) (change : α → α) :
    (result beside : EStateM.Result Exit World α) → Prop
  | ok {value changed : α} {after besideAfter : World} : changed = change value →
    moving.Accompanies after besideAfter →
      SameOutcome moving change (.ok value after) (.ok changed besideAfter)
  | error {exit : Exit} {after besideAfter : World} : moving.Accompanies after besideAfter →
    SameOutcome moving change (.error exit after) (.error exit besideAfter)

/-- Whether two runs end alike if they begin in such worlds. -/
def Moves (moving : Relocation) (change : α → α) (action beside : Run α) : Prop :=
  ∀ world besideWorld, moving.Accompanies world besideWorld →
    SameOutcome moving change (action world) (beside besideWorld)

variable {change : α → α}

theorem moves_pure {value changed : α} (isChanged : changed = change value) :
    moving.Moves change (pure value) (pure changed) :=
  fun _ _ => .ok isChanged

theorem moves_throw (exit : Exit) : moving.Moves change (throw exit) (throw exit) :=
  fun _ _ => .error

variable {action beside : Run α}

theorem moves_bind {alter : β → β} {next later : α → Run β}
    (head : moving.Moves change action beside)
    (tail : ∀ value, moving.Moves alter (next value) (later (change value))) :
    moving.Moves alter (action >>= next) (beside >>= later) := by
  intro world besideWorld accompanies
  have ended := head world besideWorld accompanies
  generalize begun : action world = result, besideBegun : beside besideWorld = besideResult at ended
  cases ended with
  | @ok value _ after besideAfter isChanged reached =>
    subst isChanged
    rw [bind_ok begun, bind_ok besideBegun]
    exact tail value after besideAfter reached
  | error left =>
    rw [bind_error begun, bind_error besideBegun]
    exact .error left

theorem moves_look {view viewBeside : World → α}
    (same : ∀ {world beside : World}, moving.Accompanies world beside →
      viewBeside beside = change (view world)) :
    moving.Moves change (look view) (look viewBeside) :=
  fun _ _ accompanies => .ok (same accompanies) accompanies

theorem moves_ofExcept {result moved : Except Refusal α} (same : moved = result.map change) :
    moving.Moves change (ofExcept result) (ofExcept moved) := by
  subst same
  cases result with
  | ok value => exact moves_pure rfl
  | error cause => exact moves_throw _

theorem moves_fromHeap {view viewBeside : Heap → Except Refusal α}
    (same : ∀ {heap moved : Heap}, moving.Relates heap moved →
      viewBeside moved = (view heap).map change) :
    moving.Moves change (fromHeap view) (fromHeap viewBeside) := by
  intro world beside accompanies
  exact moves_ofExcept (same accompanies.heap) world beside accompanies

theorem moves_withHeap {action actionBeside : Heap → Except Refusal (Value × Heap)}
    (same : ∀ {heap moved : Heap}, moving.Relates heap moved →
      SameEnd moving (action heap) (actionBeside moved)) :
    moving.Moves moving.value (withHeap action) (withHeap actionBeside) := by
  intro world beside accompanies
  have ended := same accompanies.heap
  rw [withHeap, withHeap]
  generalize action world.heap = result, actionBeside beside.heap = besideResult at ended
  cases ended with
  | ok isMoved relates => exact .ok isMoved ⟨relates, accompanies.names⟩
  | error => exact .error accompanies

variable (settings : Settings)

theorem moves_reporting {value : α} (fixed : change value = value)
    (moves : moving.Moves change action beside) :
    moving.Moves change (reporting settings value action) (reporting settings value beside) := by
  intro world besideWorld accompanies
  have ended := moves world besideWorld accompanies
  rw [reporting, reporting]
  generalize action world = result, beside besideWorld = besideResult at ended
  cases ended with
  | ok isChanged left => exact .ok isChanged left
  | @error exit after besideAfter left =>
    cases exit with
    | fault cause =>
      cases cause with
      | report cause =>
        dsimp only
        split
        · exact .error left
        · exact .ok fixed.symm ⟨left.heap, left.names⟩
      | _ => exact .error left
    | signal _ | stalled | exhausted | outside => exact .error left

/-! ### Meanings beside each other -/

theorem moves_isTrue (value : Value) :
    moving.Moves id (isTrue value) (isTrue (moving.value value)) :=
  moves_look fun accompanies => accompanies.heap.isTrue value

theorem moves_variableValue (name : String) :
    moving.Moves moving.value (Engine.variableValue name) (Engine.variableValue name) := by
  refine moves_bind (moves_look fun accompanies => accompanies.names name) fun found => ?_
  cases found with
  | some value => exact moves_pure rfl
  | none => exact moves_throw _

theorem moves_decide (relation : Relation) (left right : Value) :
    moving.Moves moving.value (relation.decide left right)
      (relation.decide (moving.value left) (moving.value right)) := by
  have compared : moving.Moves id (fromHeap fun heap => heap.compare relation left right)
      (fromHeap fun heap =>
        heap.compare relation (moving.value left) (moving.value right)) := by
    refine moves_fromHeap fun relates => ?_
    rw [relates.compare]
    cases Heap.compare _ relation left right <;> rfl
  exact moves_bind compared fun held => moves_pure rfl

theorem moves_binary (operator : BinaryOperator) (left right : Value) :
    moving.Moves moving.value (operator.apply left right)
      (operator.apply (moving.value left) (moving.value right)) := by
  cases operator with
  | plus => exact moves_withHeap fun relates => relates.plus left right
  | minus => exact moves_withHeap fun relates => relates.minus left right
  | times => exact moves_withHeap fun relates => relates.times left right
  | dividedBy => exact moves_withHeap fun relates => relates.dividedBy left right
  | equals =>
    exact moves_look fun accompanies =>
      congrArg Value.boolean (accompanies.heap.equal left right)
  | doesNotEqual =>
    exact moves_look fun accompanies =>
      congrArg (fun same => Value.boolean !same) (accompanies.heap.equal left right)
  | isGreaterThan | isLessThan | isAtLeast | isAtMost => exact moves_decide _ left right
  | and | or =>
    refine moves_bind (moves_isTrue left) fun held => moves_pure ?_
    cases held <;> rfl
  | unknown name => exact moves_throw _

theorem moves_unary (operator : UnaryOperator) (operand : Value) :
    moving.Moves moving.value (operator.apply operand) (operator.apply (moving.value operand)) := by
  cases operator with
  | not => exact moves_bind (moves_isTrue operand) fun held => moves_pure rfl
  | unknown name => exact moves_throw _

section

variable {engine : Engine} {known : Expr → Prop} (parts : ∀ {expression : Expr}, known expression →
    moving.Moves moving.value (engine.evaluate expression) (engine.evaluate expression))

include parts

theorem moves_evaluateAll {expressions : List Expr} (inside : ∀ part ∈ expressions, known part) :
    moving.Moves (List.map moving.value) (engine.evaluateAll expressions)
      (engine.evaluateAll expressions) := by
  induction expressions with
  | nil => exact moves_pure rfl
  | cons expression rest ih =>
    refine moves_bind (parts (inside expression mem_cons_self)) fun value => ?_
    refine moves_bind (ih fun later member => ?_) fun values => moves_pure rfl
    exact inside later (mem_cons_of_mem _ member)

variable {pairs : List (String × Expr)}

theorem moves_evaluateNamed (inside : ∀ pair ∈ pairs, known pair.2) :
    moving.Moves (List.map fun entry => (entry.1, moving.value entry.2))
      (engine.evaluateNamed pairs) (engine.evaluateNamed pairs) := by
  induction pairs with
  | nil => exact moves_pure rfl
  | cons pair rest ih =>
    refine moves_bind (parts (inside pair mem_cons_self)) fun value => ?_
    refine moves_bind (ih fun later member => ?_) fun values => moves_pure rfl
    exact inside later (mem_cons_of_mem _ member)

theorem moves_dictionary (inside : ∀ pair ∈ pairs, known pair.2) :
    moving.Moves moving.value (engine.dictionary pairs) (engine.dictionary pairs) := by
  refine moves_bind (moves_evaluateNamed parts inside) fun values => ?_
  refine moves_withHeap fun relates => relates.newDictionary ?_
  rw [← moving.ofList_map, map_map, map_map]
  rfl

omit parts in
theorem moves_readProperty (value : Value) (name : String) :
    moving.Moves moving.value (Engine.readProperty value name)
      (Engine.readProperty (moving.value value) name) := by
  have told : moving.Moves id (within (value.describes name))
      (within ((moving.value value).describes name)) := by
    rw [moving.describes_value, within]
    split
    · exact moves_pure rfl
    · exact moves_throw _
  exact moves_bind told fun _ =>
    moves_look fun accompanies => accompanies.heap.property value name

theorem moves_property {object : Expr} (inside : known object) (name : String) :
    moving.Moves moving.value (engine.property object name) (engine.property object name) := by
  refine moves_bind (parts inside) fun value => ?_
  cases value with
  | nothing => exact moves_throw _
  | _ => exact moves_readProperty _ name

theorem moves_index {object place : Expr} (inside : known object ∧ known place) :
    moving.Moves moving.value (engine.index object place) (engine.index object place) := by
  refine moves_bind (parts inside.1) fun value => moves_bind (parts inside.2) fun position => ?_
  refine moves_bind (moves_fromHeap fun relates => relates.item? value position) fun found => ?_
  cases found with
  | some item => exact moves_pure rfl
  | none =>
    rw [Option.map_none, moving.typeName_value]
    exact moves_throw _

theorem moves_valueOf (settings : Settings) {expression : Expr} (simple : expression.IsSimple)
    (inside : expression.Each known) :
    moving.Moves moving.value (engine.valueOf settings expression)
      (engine.valueOf settings expression) := by
  cases expression with
  | number | undefined | string | boolean | nothing | pi => exact moves_pure rfl
  | identifier name => exact moves_variableValue name
  | binary left operator right =>
    refine moves_bind (parts inside.1) fun first => moves_bind (parts inside.2) fun second => ?_
    exact moves_binary operator first second
  | unary operator operand =>
    exact moves_bind (parts inside) fun value => moves_unary operator value
  | property object name => exact moves_property parts inside name
  | index object place => exact moves_index parts inside
  | list elements =>
    refine moves_bind (moves_evaluateAll parts inside) fun values => ?_
    exact moves_withHeap fun relates => relates.newList rfl
  | dictionary pairs | object pairs => exact moves_dictionary parts inside
  | _ => exact simple.elim

end

/-- Simple expressions do not see where newer cells lie. -/
theorem moves_evaluate (depth : Nat) {expression : Expr}
    (simple : expression.Throughout Expr.IsSimple) :
    moving.Moves moving.value (evaluate settings depth expression)
      (evaluate settings depth expression) := by
  induction depth generalizing expression with
  | zero => exact moves_throw _
  | succ depth ih =>
    obtain ⟨here, below⟩ := simple
    rw [evaluate]
    exact moves_reporting settings rfl (moves_valueOf ih settings here
      ((Expr.each_iff expression).mpr below))

end Relocation

/-! ### Worlds without loose ends -/

/-- Whether the cell or the mark of a value is there. -/
def Heap.has (heap : Heap) : Value → Bool
  | .list place | .dictionary place => place < heap.next
  | .undefined (.made number) => number < heap.marks
  | _ => true

def Cell.values : Cell → List Value
  | .list items => items
  | .dictionary entries => entries.map Prod.fst ++ entries.map Prod.snd

/-- Whether every value that a name stands for, that is in a cell or that is set as a member of a
library has its cell or its mark. -/
structure World.IsClosed (world : World) : Prop where
  names : ∀ scope ∈ world.scopes, ∀ binding ∈ scope.bindings, world.heap.has binding.2
  cells : ∀ cell ∈ world.heap.cells, ∀ value ∈ cell.values, world.heap.has value
  members : ∀ member ∈ world.heap.members, world.heap.has member.2

theorem Beginning.isClosed_world (start : Beginning) : start.world.IsClosed where
  names scope member binding inside := by
    cases mem_singleton.mp member
    cases inside
  cells cell member := by simp [world, Heap.empty] at member
  members _ member := by cases member

variable {heap : Heap}

theorem Scope.has_of_get? {scopes : List (Scope Value Routine)}
    (has : ∀ scope ∈ scopes, ∀ binding ∈ scope.bindings, heap.has binding.2) {name : String}
    {value : Value} (found : Scope.get? scopes name = some value) : heap.has value := by
  induction scopes with
  | nil => cases found
  | cons scope around ih =>
    obtain ⟨here, outside⟩ := forall_mem_cons.mp has
    rw [Scope.get?] at found
    split at found
    · rename_i same
      cases found
      exact here _ (Table.mem_of_get? same)
    · exact ih outside found

namespace World

variable {start world : World} {item : Value}

/-- The items of a list have their cells and their marks. -/
theorem IsClosed.has_item (closed : world.IsClosed) {address : Nat}
    (member : item ∈ world.heap.items address) : world.heap.has item := by
  rw [Heap.items] at member
  split at member
  · rename_i found
    exact closed.cells _ (Array.mem_of_getElem? found) item member
  · cases member

theorem Retains.get?_withItem (retains : start.Retains world) (item : Value) (name : String) :
    Scope.get? (world.withItem item).scopes name = Scope.get? (start.withItem item).scopes name := by
  have inner : (world.withItem item).scope.bindings.get? name =
      (start.withItem item).scope.bindings.get? name := by
    show Table.get? (Table.insert _ _ _) name = Table.get? (Table.insert _ _ _) name
    rw [Table.get?_insert, Table.get?_insert]
    split
    · rfl
    · rename_i different
      exact retains.names (Ne.symm different)
  have around : (world.withItem item).callers = (start.withItem item).callers := retains.callers
  rw [scopes, scopes, Scope.get?, Scope.get?, inner, around]

/-- A list that has an item is a cell, and keeps its items. -/
theorem Retains.items (retains : start.Retains world) {address : Nat}
    (member : item ∈ start.heap.items address) :
    world.heap.items address = start.heap.items address := by
  have older : address < start.heap.next := by
    rw [Heap.items] at member
    split at member
    · rename_i found
      exact (Array.getElem?_eq_some_iff.mp found).1
    · cases member
  rw [Heap.items, Heap.items, retains.heap.cells older]

/-- Nor does it matter that the name of the item is set before a run that leaves everything alone, and
put back after it. -/
theorem retains_around {after : World} (untouched : (world.withItem item).Untouched after)
    (old : Value) : world.Retains (after.putBack old) :=
  ((world.retains_withItem item).trans untouched.retains).trans (after.retains_putBack old)

@[simp] theorem heap_putBack (world : World) (old : Value) :
    (world.putBack old).heap = world.heap := by
  cases old <;> rfl

end World

namespace Relocation

/-- Moves what a heap does not have yet past what another one has. -/
def past (heap reached : Heap) : Relocation where
  firstCell := heap.next
  cellsBy := reached.next - heap.next
  firstMark := heap.marks
  marksBy := reached.marks - heap.marks

variable {heap reached : Heap}

/-- What a heap has is left where it is. -/
theorem value_past {value : Value} (has : heap.has value) :
    (past heap reached).value value = value := by
  cases value with
  | list place => exact congrArg Value.list (if_pos (of_decide_eq_true has))
  | dictionary place => exact congrArg Value.dictionary (if_pos (of_decide_eq_true has))
  | undefined mark =>
    cases mark with
    | made number =>
      exact congrArg (fun number => Value.undefined (.made number)) (if_pos (of_decide_eq_true has))
    | written | constant => rfl
  | _ => rfl

theorem cell_past {cell : Cell} (has : ∀ value ∈ cell.values, heap.has value) :
    (past heap reached).cell cell = cell := by
  cases cell with
  | list items =>
    exact congrArg Cell.list ((map_congr_left fun value member =>
      value_past (has value member)).trans items.map_id)
  | dictionary entries =>
    refine congrArg Cell.dictionary ((map_congr_left fun pair member => ?_).trans entries.map_id)
    refine Prod.ext (value_past (has _ ?_)) (value_past (has _ ?_))
    · exact mem_append_left _ (mem_map_of_mem member)
    · exact mem_append_right _ (mem_map_of_mem member)

theorem relates_past {world : World} (closed : world.IsClosed)
    (grown : world.heap.GrowsTo reached) : (past world.heap reached).Relates world.heap reached where
  older := Nat.le_refl _
  next := (Nat.add_sub_of_le grown.next).symm
  cells place := by
    by_cases older : place < world.heap.next
    · rw [address, shifted, past, if_pos older, grown.cells older]
      cases found : world.heap.cells[place]? with
      | none => rfl
      | some cell =>
        exact congrArg some (cell_past (closed.cells cell (Array.mem_of_getElem? found))).symm
    · have newer : world.heap.next ≤ place := Nat.le_of_not_lt older
      have beyond : reached.next ≤ place + (reached.next - world.heap.next) := by omega
      rw [address, shifted, past, if_neg older, Array.getElem?_eq_none beyond,
        Array.getElem?_eq_none newer, Option.map_none]
  olderMark := Nat.le_refl _
  marks := (Nat.add_sub_of_le grown.marks).symm
  members library name := by
    rw [Heap.member?, Heap.member?, grown.members]
    cases found : world.heap.members.lookup (library, name) with
    | none => rfl
    | some value =>
      obtain ⟨before, after, split, -⟩ := lookup_eq_some_iff.mp found
      have member : ((library, name), value) ∈ world.heap.members := by
        rw [split]
        exact mem_append_right _ mem_cons_self
      exact congrArg some (value_past (closed.members _ member)).symm

/-- A world that retains all that another one has accompanies it, also where the name of the item
stands for the same item in both. -/
theorem accompanies_past {start world : World} (closed : start.IsClosed)
    (retains : start.Retains world) {item : Value} (has : start.heap.has item) :
    (past start.heap world.heap).Accompanies (start.withItem item) (world.withItem item) where
  heap := relates_past closed retains.heap
  names name := by
    have fixed {value : Value} (found : Scope.get? (start.withItem item).scopes name = some value) :
        (past start.heap world.heap).value value = value := by
      refine value_past (Scope.has_of_get? (fun scope member binding bound => ?_) found)
      rcases mem_cons.mp member with rfl | outside
      · rcases Table.mem_insert bound with old | isItem
        · exact closed.names _ mem_cons_self _ old
        · rw [isItem]
          exact has
      · exact closed.names _ (mem_cons_of_mem _ outside) _ bound
    rw [retains.get?_withItem]
    cases found : Scope.get? (start.withItem item).scopes name with
    | none => rfl
    | some value => exact congrArg some (fixed found).symm

end Relocation

/-! ### One item after another -/

/-- Whether a value is in a heap as another one is in the heap in which it was left, apart from where
the cells lie that were not there at first. -/
def Mirrored (start : Heap) (outcome : Value × World) (reached : Heap) (value : Value) : Prop :=
  ∃ moving : Relocation, moving.firstCell = start.next ∧ moving.firstMark = start.marks ∧
    value = moving.value outcome.1 ∧ ∀ place cell, outcome.2.heap.cells[place]? = some cell →
      reached.cells[moving.address place]? = some (moving.cell cell)

theorem Mirrored.grow {start reached larger : Heap} {outcome : Value × World} {value : Value}
    (mirrored : Mirrored start outcome reached value) (grown : reached.GrowsTo larger) :
    Mirrored start outcome larger value := by
  obtain ⟨moving, cells, marks, isMoved, copied⟩ := mirrored
  refine ⟨moving, cells, marks, isMoved, fun place cell found => ?_⟩
  have there := copied place cell found
  obtain ⟨inside, -⟩ := Array.getElem?_eq_some_iff.mp there
  exact (grown.cells inside).trans there

section

variable {settings : Settings} {list part : Expr} {depth address : Nat} {start world : World}

/-- What a simple expression gives for an item in a closed world it also gives for it later, apart
from where newer cells lie. -/
theorem evaluate_later (simple : part.Throughout Expr.IsSimple) (closed : start.IsClosed)
    (retains : start.Retains world) {item value : Value} {after : World}
    (has : start.heap.has item)
    (alone : evaluate settings depth part (start.withItem item) = .ok value after) :
    ∃ later reached, evaluate settings depth part (world.withItem item) = .ok later reached ∧
      Mirrored start.heap (value, after) reached.heap later ∧
      reached.heap.isTrue later = after.heap.isTrue value ∧
      ∀ old, world.Retains (reached.putBack old) := by
  have ended := Relocation.moves_evaluate settings depth simple _ _
    (Relocation.accompanies_past closed retains has)
  have kept := untouched_simple settings depth simple (world.withItem item)
  rw [alone] at ended
  generalize evaluate settings depth part (world.withItem item) = result at *
  cases ended with
  | @ok _ later _ reached isMoved accompanies =>
    refine ⟨later, reached, rfl, ⟨_, rfl, rfl, isMoved, fun place cell found => ?_⟩, ?_,
      World.retains_around kept⟩
    · rw [accompanies.heap.cells, found, Option.map_some]
    · rw [isMoved, accompanies.heap.isTrue]

/-- Whether a list is what is kept of some items, one after another, by a verdict on each of them and
on what is left after it alone. -/
inductive Sifts (verdict : Value → Value × World → Option Value → Prop) :
    (items : List Value) → (outcomes : List (Value × World)) → (kept : List Value) → Prop
  | done : Sifts verdict [] [] []
  | keep {item value : Value} {outcome : Value × World} {items kept : List Value}
    {outcomes : List (Value × World)} : verdict item outcome (some value) →
      Sifts verdict items outcomes kept →
        Sifts verdict (item :: items) (outcome :: outcomes) (value :: kept)
  | drop {item : Value} {outcome : Value × World} {items kept : List Value}
    {outcomes : List (Value × World)} : verdict item outcome none →
      Sifts verdict items outcomes kept →
        Sifts verdict (item :: items) (outcome :: outcomes) kept

variable {outcomes : List (Value × World)}

theorem Sifts.mono {verdict weaker : Value → Value × World → Option Value → Prop}
    (implies : ∀ {item outcome kept}, verdict item outcome kept → weaker item outcome kept)
    {items kept : List Value} (sifts : Sifts verdict items outcomes kept) :
    Sifts weaker items outcomes kept := by
  induction sifts with
  | done => exact .done
  | keep held _ ih => exact .keep (implies held) ih
  | drop held _ ih => exact .drop (implies held) ih

/-- Whether what is done with an item keeps of it what a verdict says, whatever has been done with
other items since the list was evaluated. -/
structure KeepsBy (settings : Settings) (part : Expr) (start : World) (address depth : Nat)
    (verdict : Heap → Value → Value × World → Option Value → Prop)
    (keep : Value → Run (Option Value)) : Prop where
  grow {heap larger : Heap} {item : Value} {outcome : Value × World} {kept : Option Value} :
    heap.GrowsTo larger → verdict heap item outcome kept → verdict larger item outcome kept
  round {item : Value} {outcome : Value × World} {world : World} : start.Retains world →
    item ∈ start.heap.items address →
    evaluate settings depth part (start.withItem item) = .ok outcome.1 outcome.2 →
      ∃ kept reached, keep item world = .ok kept reached ∧ world.Retains reached ∧
        verdict reached.heap item outcome kept

variable {verdict : Heap → Value → Value × World → Option Value → Prop}

/-- Going on over the items keeps what the verdict says of all of them. -/
theorem KeepsBy.overItems {keep : Value → Run (Option Value)}
    (keeps : KeepsBy settings part start address depth verdict keep) {rest : List Value}
    (each : List.Forall₂ (fun item outcome =>
      evaluate settings depth part (start.withItem item) = .ok outcome.1 outcome.2) rest outcomes)
    {rounds place : Nat} (enough : rest.length < rounds)
    (left : (start.heap.items address).drop place = rest) (kept : List Value)
    (retains : start.Retains world)
    (sameItems : world.heap.items address = start.heap.items address) :
    ∃ more reached, overItems address keep rounds place kept world =
        .ok (kept.reverse ++ more) reached ∧
      world.Retains reached ∧ Sifts (verdict reached.heap) rest outcomes more := by
  induction each generalizing rounds place kept world with
  | nil =>
    have noMore : (world.heap.items address)[place]? = none := by
      rw [sameItems]
      exact List.getElem?_eq_none (drop_eq_nil_iff.mp left)
    cases rounds with
    | zero => cases enough
    | succ rounds =>
      refine ⟨[], world, ?_, .refl world, .done⟩
      rw [overItems, look_bind, noMore, append_nil]
      rfl
  | @cons item outcome rest outcomes here _ ih =>
    have found : (start.heap.items address)[place]? = some item := by
      rw [← List.head?_drop, left, List.head?_cons]
    have member := mem_of_getElem? found
    cases rounds with
    | zero => cases enough
    | succ rounds =>
      obtain ⟨keeping, between, treated, on, held⟩ := keeps.round retains member here
      have retainsOn := retains.trans on
      have leftOn : (start.heap.items address).drop (place + 1) = rest := by
        rw [← drop_drop, left, drop_one, tail_cons]
      rw [overItems, look_bind, sameItems, found]
      show ∃ more reached, (keep item >>= _) world = _ ∧ _
      rw [bind_ok treated]
      cases keeping with
      | none =>
        obtain ⟨more, reached, ended, onward, sifts⟩ := ih
          (Nat.lt_of_succ_lt_succ enough) leftOn kept retainsOn (retainsOn.items member)
        exact ⟨more, reached, ended, on.trans onward, .drop (keeps.grow onward.heap held) sifts⟩
      | some value =>
        obtain ⟨more, reached, ended, onward, sifts⟩ := ih
          (Nat.lt_of_succ_lt_succ enough) leftOn (value :: kept) retainsOn (retainsOn.items member)
        refine ⟨value :: more, reached, ended.trans ?_, on.trans onward,
          .keep (keeps.grow onward.heap held) sifts⟩
        rw [reverse_cons, append_assoc, singleton_append]

/-- Whether the part comes to a value for an item alone, in the world in which the list was
evaluated. -/
def GivesAlone (settings : Settings) (part : Expr) (start : World) (item : Value)
    (outcome : Value × World) : Prop :=
  Run.Comes (evaluating settings part) (start.withItem item) (.ok outcome.1 outcome.2)

theorem exists_depth_of_each {items : List Value}
    (each : List.Forall₂ (GivesAlone settings part start) items outcomes) :
    ∃ depth, ∀ greater, depth ≤ greater → List.Forall₂ (fun item outcome =>
      evaluate settings greater part (start.withItem item) = .ok outcome.1 outcome.2)
        items outcomes := by
  induction each with
  | nil => exact ⟨0, fun _ _ => .nil⟩
  | cons here _ ih =>
    obtain ⟨few, first⟩ := Run.Comes.exists_depth (isSteady_evaluating settings part) here
    obtain ⟨many, others⟩ := ih
    refine ⟨max few many, fun greater deeper => ?_⟩
    exact .cons (first greater (Nat.le_trans (Nat.le_max_left few many) deeper))
      (others greater (Nat.le_trans (Nat.le_max_right few many) deeper))

/-- An expression that goes on over the items of a list comes to a new list of what is kept. -/
theorem comes_sift {expression : Expr} {action : String} {keep : Nat → Value → Run (Option Value)}
    (means : ∀ depth, evaluate settings (depth + 1) expression = reporting settings .nothing do
      let address ← (Engine.ofDepth settings depth).listAddress action list
      newList (← overItems address (keep depth) depth 0 []))
    (keeps : ∀ depth, KeepsBy settings part start address depth verdict (keep depth))
    (listed : Run.Comes (evaluating settings list) world (.ok (.list address) start))
    (each : List.Forall₂ (GivesAlone settings part start) (start.heap.items address) outcomes) :
    ∃ place after values,
      Run.Comes (evaluating settings expression) world (.ok (.list place) after) ∧
      start.Retains after ∧ start.heap.next ≤ place ∧
      after.heap.cells[place]? = some (.list values) ∧
      Sifts (verdict after.heap) (start.heap.items address) outcomes values := by
  obtain ⟨few, listed⟩ := Run.Comes.exists_depth (isSteady_evaluating settings list) listed
  obtain ⟨many, each⟩ := exists_depth_of_each each
  -- Deep enough for the list, for the part and for one round more than there are items.
  let depth := few + many + (start.heap.items address).length + 1
  obtain ⟨values, reached, ended, retains, sifts⟩ := (keeps depth).overItems
    (each depth (by omega)) (show (start.heap.items address).length < depth by omega) drop_zero
    [] (.refl start) rfl
  have found : (Engine.ofDepth settings depth).listAddress action list world =
      .ok address start := bind_ok (listed depth (by omega))
  have grown := reached.heap.growsTo_add (.list values)
  refine ⟨reached.heap.next, { reached with heap := reached.heap.add (.list values) }, values,
    ⟨depth + 1, ?_, rfl⟩, retains.trans ⟨grown, fun _ => rfl, rfl, rfl⟩, retains.heap.next, ?_,
    sifts.mono ((keeps depth).grow grown)⟩
  · rw [evaluating, means, reporting, bind_ok found, bind_ok ended]
    rfl
  · rw [Heap.add, Heap.next, Array.getElem?_push_size]

/-- The verdict of filtering: an item stays if what the part gives for it alone counts as true. -/
def Selects (_ : Heap) (item : Value) (outcome : Value × World) (kept : Option Value) : Prop :=
  kept = if outcome.2.heap.isTrue outcome.1 then some item else none

/-- The verdict of mapping: what the part gives for an item alone takes its place. -/
def Transforms (start heap : Heap) (_ : Value) (outcome : Value × World) (kept : Option Value) :
    Prop :=
  ∃ value, kept = some value ∧ Mirrored start outcome heap value

theorem keepsBy_filter (simple : part.Throughout Expr.IsSimple) (closed : start.IsClosed)
    (address depth : Nat) : KeepsBy settings part start address depth Selects fun item => do
      let verdict ← withItem item (evaluate settings depth part)
      return if ← isTrue verdict then some item else none where
  grow _ held := held
  round := by
    intro item outcome world retains member alone
    obtain ⟨later, reached, evaluated, -, sameTruth, retainsOn⟩ :=
      evaluate_later simple closed retains (closed.has_item member) alone
    refine ⟨_, _, bind_ok (withItem_eq_ok evaluated), retainsOn world.oldItem, ?_⟩
    show (if (reached.putBack world.oldItem).heap.isTrue later then some item else none) = _
    rw [World.heap_putBack, sameTruth]

theorem keepsBy_map (simple : part.Throughout Expr.IsSimple) (closed : start.IsClosed)
    (address depth : Nat) :
    KeepsBy settings part start address depth (Transforms start.heap) fun item => do
      return some (← withItem item (evaluate settings depth part)) where
  grow grown held := held.imp fun _ both => ⟨both.1, both.2.grow grown⟩
  round := by
    intro item outcome world retains member alone
    obtain ⟨later, reached, evaluated, mirrored, -, retainsOn⟩ :=
      evaluate_later simple closed retains (closed.has_item member) alone
    refine ⟨_, _, bind_ok (withItem_eq_ok evaluated), retainsOn world.oldItem, later, rfl, ?_⟩
    rw [World.heap_putBack]
    exact mirrored

end

variable {outcomes : List (Value × World)} {items kept : List Value}

theorem Sifts.eq_filter (sifts : Sifts (Selects heap) items outcomes kept) :
    kept = ((items.zip outcomes).filter fun pair => pair.2.2.heap.isTrue pair.2.1).map Prod.fst := by
  induction sifts with
  | done => rfl
  | keep held _ ih =>
    rw [Selects] at held
    split at held
    · cases held
      rw [zip_cons_cons, filter_cons_of_pos (by assumption), map_cons, ih]
    · cases held
  | drop held _ ih =>
    rw [Selects] at held
    split at held
    · cases held
    · rw [zip_cons_cons, filter_cons_of_neg (by assumption), ih]

theorem Sifts.forall₂_mirrored {start : Heap}
    (sifts : Sifts (Transforms start heap) items outcomes kept) :
    List.Forall₂ (fun outcome value => Mirrored start outcome heap value) outcomes kept := by
  induction sifts with
  | done => exact .nil
  | keep held _ ih =>
    obtain ⟨_, ⟨⟩, fit⟩ := held
    exact .cons fit ih
  | drop held _ _ =>
    obtain ⟨_, ⟨⟩, _⟩ := held

/-- If a simple part comes to a value for each item of a list, each time in the world in which the
list was evaluated, then filtering comes to a new list of the items for which that value counts as
true, in their order, and mapping comes to a new list of those values, with the cells that were made
for them. Both change no cell, so neither the list, and no name apart from that of the item. -/
theorem filter_selects_and_map_transforms {settings : Settings} {list part : Expr}
    (simple : part.Throughout Expr.IsSimple) {world start : World} {address : Nat}
    (listed : Run.Comes (evaluating settings list) world (.ok (.list address) start))
    (closed : start.IsClosed) {outcomes : List (Value × World)}
    (each : List.Forall₂ (GivesAlone settings part start) (start.heap.items address) outcomes) :
    (∃ place after,
      Run.Comes (evaluating settings (.filter list part)) world (.ok (.list place) after) ∧
      start.Retains after ∧ start.heap.next ≤ place ∧
      after.heap.cells[place]? = some (.list ((((start.heap.items address).zip outcomes).filter
        fun pair => pair.2.2.heap.isTrue pair.2.1).map Prod.fst))) ∧
    ∃ place after values,
      Run.Comes (evaluating settings (.map list part)) world (.ok (.list place) after) ∧
      start.Retains after ∧ start.heap.next ≤ place ∧
      after.heap.cells[place]? = some (.list values) ∧
      List.Forall₂ (fun outcome value => Mirrored start.heap outcome after.heap value) outcomes
        values := by
  constructor
  · have means (depth : Nat) : evaluate settings (depth + 1) (.filter list part) = _ := rfl
    obtain ⟨place, after, values, comes, retains, new, isList, sifts⟩ :=
      comes_sift means (keepsBy_filter simple closed address) listed each
    rw [sifts.eq_filter] at isList
    exact ⟨place, after, comes, retains, new, isList⟩
  · have means (depth : Nat) : evaluate settings (depth + 1) (.map list part) = _ := rfl
    obtain ⟨place, after, values, comes, retains, new, isList, sifts⟩ :=
      comes_sift means (keepsBy_map simple closed address) listed each
    exact ⟨place, after, values, comes, retains, new, isList, sifts.forall₂_mirrored⟩

theorem filter_selects_and_map_transforms_repetitions :
    let settings : Settings := { permissions := ⟨fun _ => false⟩ }
    let world : World := (Beginning.world { files := .bare }).withItem .nothing
    let list : Expr := .list [.number (.int 2), .number (.int 0), .number (.int 2)]
    let part : Expr := .binary (.identifier "item") .times (.list [.string "x"])
    let start := final (evaluate settings 3 list world)
    let item (count : Int) : Value := .number (.int count)
    let alone (count : Int) : Value × World :=
      (.list 2, final (evaluate settings 3 part (start.withItem (item count))))
    (∃ place after,
      Run.Comes (evaluating settings (.filter list part)) world (.ok (.list place) after) ∧
      start.Retains after ∧ start.heap.next ≤ place ∧
      after.heap.cells[place]? = some (.list [item 2, item 2])) ∧
    ∃ place after values,
      Run.Comes (evaluating settings (.map list part)) world (.ok (.list place) after) ∧
      start.Retains after ∧ start.heap.next ≤ place ∧
      after.heap.cells[place]? = some (.list values) ∧
      List.Forall₂ (fun outcome value => Mirrored start.heap outcome after.heap value)
        [alone 2, alone 0, alone 2] values := by
  intro settings world list part start item alone
  have simple : part.Throughout Expr.IsSimple := by
    refine .intro trivial fun inner member => ?_
    rcases mem_pair.mp member with rfl | rfl
    · exact .intro trivial (by rintro _ ⟨⟩)
    · refine .intro trivial fun element inside => ?_
      rw [mem_singleton.mp inside]
      exact .intro trivial (by rintro _ ⟨⟩)
  have listed : Run.Comes (evaluating settings list) world (.ok (.list 0) start) :=
    ⟨3, rfl, rfl⟩
  have closed : start.IsClosed := ⟨by decide +kernel, by decide +kernel, by decide +kernel⟩
  have two : GivesAlone settings part start (item 2) (alone 2) := ⟨3, rfl, rfl⟩
  have zero : GivesAlone settings part start (item 0) (alone 0) := ⟨3, rfl, rfl⟩
  have items : start.heap.items 0 = [item 2, item 0, item 2] := rfl
  have each : List.Forall₂ (GivesAlone settings part start) (start.heap.items 0)
      [alone 2, alone 0, alone 2] := by
    rw [items]
    exact .cons two (.cons zero (.cons two .nil))
  have selected : (((start.heap.items 0).zip [alone 2, alone 0, alone 2]).filter fun pair =>
      pair.2.2.heap.isTrue pair.2.1).map Prod.fst = [item 2, item 2] := by
    have holds : (alone 2).2.heap.isTrue (alone 2).1 = true := by decide +kernel
    have fails : (alone 0).2.heap.isTrue (alone 0).1 = false := by decide +kernel
    rw [items]
    simp [holds, fails]
  rw [← selected]
  exact filter_selects_and_map_transforms simple listed closed each

end Parlance
