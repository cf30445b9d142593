import Parlance.Evaluate

/-!
Heaps that grow. Operators and the functions that every program has leave every list and every
dictionary as it is: what they make has a cell of its own.
-/

namespace Parlance

/-- Whether a heap has all that another one has, and perhaps more cells and marks. -/
structure Heap.GrowsTo (before after : Heap) : Prop where
  cells {place : Nat} : place < before.next → after.cells[place]? = before.cells[place]?
  next : before.next ≤ after.next
  marks : before.marks ≤ after.marks
  members : after.members = before.members

namespace Heap

variable {α β : Type} (heap : Heap)

@[simp] theorem GrowsTo.refl : heap.GrowsTo heap :=
  ⟨fun _ => rfl, Nat.le_refl _, Nat.le_refl _, rfl⟩

theorem GrowsTo.trans {before between after : Heap} (first : before.GrowsTo between)
    (second : between.GrowsTo after) : before.GrowsTo after where
  cells older := (second.cells (Nat.lt_of_lt_of_le older first.next)).trans (first.cells older)
  next := Nat.le_trans first.next second.next
  marks := Nat.le_trans first.marks second.marks
  members := second.members.trans first.members

theorem growsTo_add (cell : Cell) : heap.GrowsTo (heap.add cell) where
  cells older := by
    rw [add, Array.getElem?_push, if_neg (show _ ≠ heap.cells.size from Nat.ne_of_lt older)]
  next := by
    rw [next, next, add, Array.size_push]
    exact Nat.le_succ _
  marks := Nat.le_refl _
  members := rfl

/-! ### Calculations -/

/-- Whether a calculation that gives a heap gives one that has grown. -/
def Grows (result : Except Refusal (α × Heap)) : Prop :=
  ∀ found, result = .ok found → heap.GrowsTo found.2

variable {heap}

@[simp] theorem grows_ok {found : α × Heap} :
    heap.Grows (.ok found) ↔ heap.GrowsTo found.2 :=
  ⟨fun grows => grows found rfl, fun grown _ same => Except.ok.inj same ▸ grown⟩

@[simp] theorem grows_pure {found : α × Heap} : heap.Grows (pure found) ↔ heap.GrowsTo found.2 :=
  grows_ok

@[simp] theorem grows_error (cause : Refusal) :
    heap.Grows (.error cause : Except Refusal (α × Heap)) := by
  rintro _ ⟨⟩

@[simp] theorem grows_bind {result : Except Refusal β} {next : β → Except Refusal (α × Heap)} :
    heap.Grows (result >>= next) ↔ ∀ value, result = .ok value → heap.Grows (next value) := by
  cases result with
  | ok value => exact ⟨fun grows _ same => Except.ok.inj same ▸ grows, fun each => each value rfl⟩
  | error cause => exact iff_of_true (grows_error cause) (by rintro _ ⟨⟩)

@[simp] theorem grows_functor {result : Except Refusal β} {change : β → α × Heap} :
    heap.Grows (change <$> result) ↔
      ∀ value, result = .ok value → heap.GrowsTo (change value).2 := by
  rw [← bind_pure_comp, grows_bind]
  simp only [grows_pure]

@[simp] theorem grows_ite {condition : Prop} [Decidable condition]
    {yes no : Except Refusal (α × Heap)} : heap.Grows (if condition then yes else no) ↔
      (condition → heap.Grows yes) ∧ (¬ condition → heap.Grows no) := by
  split <;> simp_all

theorem GrowsTo.grows {between : Heap} {result : Except Refusal (α × Heap)}
    (grown : heap.GrowsTo between) (later : between.Grows result) : heap.Grows result :=
  fun found ended => grown.trans (later found ended)

variable (heap) (left right : Value)

@[simp] theorem growsTo_newList (items : List Value) : heap.GrowsTo (heap.newList items).2 :=
  heap.growsTo_add _

@[simp] theorem growsTo_newDictionary (entries : List (Value × Value)) :
    heap.GrowsTo (heap.newDictionary entries).2 :=
  heap.growsTo_add _

@[simp] theorem growsTo_settle (value : Value) : heap.GrowsTo (heap.settle value).2 := by
  unfold settle
  split
  · split
    · exact ⟨fun _ => rfl, Nat.le_refl _, Nat.le_succ _, rfl⟩
    · exact .refl heap
  · exact .refl heap

@[simp] theorem grows_numeric (result : Except Refusal Number) : heap.Grows (heap.numeric result) := by
  cases result <;> simp [numeric, Except.map]

@[simp] theorem grows_plus : heap.Grows (heap.plus left right) := by
  unfold plus
  (repeat' split) <;> simp

@[simp] theorem grows_minus : heap.Grows (heap.minus left right) := by
  unfold minus
  split <;> simp

@[simp] theorem grows_repeatValue : heap.Grows (heap.repeatValue left right) := by
  unfold repeatValue
  refine grows_bind.mpr fun count _ => ?_
  split <;> simp

@[simp] theorem grows_times : heap.Grows (heap.times left right) := by
  unfold times
  (repeat' split) <;> simp

@[simp] theorem grows_dividedBy : heap.Grows (heap.dividedBy left right) := by
  unfold dividedBy
  (repeat' split) <;> simp

end Heap

variable (heap : Heap) (draw : Nat) (arguments : List Value)

theorem Builtin.grows_total (reached : Value) (values : List Value) :
    heap.Grows (total heap reached values) := by
  induction values generalizing heap reached with
  | nil => exact Heap.grows_ok.mpr (.refl heap)
  | cons value rest ih =>
    exact Heap.grows_bind.mpr fun found added => (heap.grows_plus reached value found added).grows
      (ih _ _)

theorem Builtin.grows_apply (builtin : Builtin) : heap.Grows (apply heap draw builtin arguments) := by
  refine Heap.grows_bind.mpr fun _ _ => ?_
  split <;> simp [grows_total]

mutual

theorem Heap.growsTo_load (heap : Heap) (datum : Datum) : heap.GrowsTo (heap.load datum).2 := by
  cases datum with
  | number value => exact heap.growsTo_settle _
  | list items => exact (heap.growsTo_loadItems items).trans (Heap.growsTo_add _ _)
  | dictionary entries => exact (heap.growsTo_loadEntries entries).trans (Heap.growsTo_add _ _)
  | _ => exact .refl heap

theorem Heap.growsTo_loadItems (heap : Heap) (items : List Datum) :
    heap.GrowsTo (heap.loadItems items).2 := by
  cases items with
  | nil => exact .refl heap
  | cons item rest => exact (heap.growsTo_load item).trans (Heap.growsTo_loadItems _ rest)

theorem Heap.growsTo_loadEntries (heap : Heap) (entries : List (Datum × Datum)) :
    heap.GrowsTo (heap.loadEntries entries).2 := by
  cases entries with
  | nil => exact .refl heap
  | cons entry rest =>
    exact ((heap.growsTo_load entry.1).trans (Heap.growsTo_load _ entry.2)).trans
      (Heap.growsTo_loadEntries _ rest)

end

end Parlance
