import Parlance.Proofs.Frames
import Parlance.Proofs.Outcomes
import Parlance.Proofs.ScopeDiscipline

/-!
The name of the item. While a list is filtered or mapped, the name `item` stands for one item after
another, and after each of them it is put back.
-/

namespace Parlance

open Engine Run

/-! ### The name of the item -/

namespace World

def item? (world : World) : Option Value := world.scope.bindings.get? itemName

def withItem (world : World) (value : Value) : World :=
  { world with scope := world.scope.set itemName value }

/-- The world in which the name of the item stands for no value. -/
def withoutItem (world : World) : World :=
  { world with scope := world.scope.unset itemName }

def putBack (world : World) : Value → World
  | .nothing => world.withoutItem
  | old => world.withItem old

/-- What is put back of a world. -/
def oldItem (world : World) : Value := world.item?.getD .nothing

variable (world : World)

@[simp] theorem item?_withItem (value : Value) : (world.withItem value).item? = some value := by
  rw [item?, withItem, Scope.set, Table.get?_insert, if_pos rfl]

@[simp] theorem item?_withoutItem : world.withoutItem.item? = none :=
  Table.get?_erase world.scope.bindings itemName

/-- A name that stood for nothing is lost when it is put back, and every other name is kept. -/
theorem item?_putBack (world before : World) :
    (before.item? ≠ some .nothing ∧ (world.putBack before.oldItem).item? = before.item?) ∨
      (before.item? = some .nothing ∧ (world.putBack before.oldItem).item? = none) := by
  rw [oldItem]
  cases found : before.item? with
  | none => exact .inl ⟨by rintro ⟨⟩, world.item?_withoutItem⟩
  | some old =>
    cases old with
    | nothing => exact .inr ⟨rfl, world.item?_withoutItem⟩
    | _ => exact .inl ⟨by rintro ⟨⟩, world.item?_withItem _⟩

/-- Whether a world has all that another one has: no cell has changed, and every name of every scope
stands for the same, apart from the name of the item in the innermost one. -/
structure Retains (start reached : World) : Prop where
  heap : start.heap.GrowsTo reached.heap
  names {name : String} : name ≠ itemName →
    reached.scope.bindings.get? name = start.scope.bindings.get? name
  functions : reached.scope.functions = start.scope.functions
  callers : reached.callers = start.callers

variable {world} {start : World}

theorem Retains.refl (world : World) : world.Retains world := ⟨.refl _, fun _ => rfl, rfl, rfl⟩

theorem Retains.trans {reached : World} (first : start.Retains world)
    (second : world.Retains reached) : start.Retains reached where
  heap := first.heap.trans second.heap
  names other := (second.names other).trans (first.names other)
  functions := second.functions.trans first.functions
  callers := second.callers.trans first.callers

theorem Untouched.retains (untouched : start.Untouched world) : start.Retains world :=
  ⟨untouched.heap, fun _ => by rw [untouched.scope], by rw [untouched.scope], untouched.callers⟩

variable (world)

theorem retains_withItem (value : Value) : world.Retains (world.withItem value) :=
  ⟨.refl _, fun other => (Table.get?_insert _ _ _ _).trans (if_neg (Ne.symm other)), rfl, rfl⟩

theorem retains_putBack (old : Value) : world.Retains (world.putBack old) := by
  cases old with
  | nothing => exact ⟨.refl _, fun other => Table.get?_erase_of_ne _ (Ne.symm other), rfl, rfl⟩
  | _ => exact world.retains_withItem _

end World

namespace Run

variable {α : Type} {value : Value} {action : Run α} {world after : World}

theorem withItem_eq_ok {result : α} (ended : action (world.withItem value) = .ok result after) :
    withItem value action world = .ok result (after.putBack world.oldItem) := by
  have set : setVariable itemName value world = .ok () (world.withItem value) := rfl
  rw [withItem, look_bind, bind_ok set, bind_ok ended, World.oldItem, World.item?]
  generalize (world.scope.bindings.get? itemName).getD .nothing = old
  cases old <;> rfl

theorem withItem_eq_error {exit : Exit}
    (ended : action (world.withItem value) = .error exit after) :
    withItem value action world = .error exit after := by
  have set : setVariable itemName value world = .ok () (world.withItem value) := rfl
  rw [withItem, look_bind, bind_ok set, bind_error ended]

end Run

/-! ### Expressions that look at no items -/

/-- Whether an expression neither looks at the items of a list nor calls anything outside the
language. -/
def Expr.IsItemless : Expr → Prop
  | .filter _ _ | .map _ _ | .foreignCall _ _ => False
  | _ => True

/-- Whether a run leaves the innermost scope as it is, whatever way it ends, unless a call outside
the language reaches into it. -/
abbrev Run.KeepsScope {α : Type} (action : Run α) : Prop :=
  action.Keeps (UnlessReached fun before after => after.scope = before.scope)

theorem isFrame_scope : IsFrame (UnlessReached fun before after => after.scope = before.scope) where
  untouched untouched := ⟨untouched.journal.sublist.countP_le, fun _ => untouched.scope⟩
  trans first second := first.trans second fun earlier later => later.trans earlier

theorem keepsScope_openScope (handing : Handing) : (openScope handing).KeepsScope := by
  cases handing with
  | copies =>
    refine isFrame_scope.keeps_bind (fun _ => .of_journal rfl rfl) fun captures => ?_
    cases captures with
    | false => exact fun _ => .of_journal rfl rfl
    | true => exact fun world => ⟨world.reaches_note .refusal, fun _ => rfl⟩
  | nothing => exact fun _ => .of_journal rfl rfl

/-- What a program has set in the place of a member of a library has to do with no scope. -/
theorem keepsScope_callSet (builtin : Builtin) (values : List Value) :
    (callSet builtin values).KeepsScope := by
  have frame := isFrame_scope
  have same {α : Type} {action : Run α} (same : ∀ world, final (action world) = world) :
      action.KeepsScope := frame.keeps_same same
  refine frame.keeps_bind (same fun _ => rfl) fun set => ?_
  cases set with
  | none => exact same fun _ => rfl
  | some value =>
    refine frame.keeps_bind (frame.keeps_tame (isPlain_ofExcept _)
      (isTame_ofExcept _)) fun _ => frame.keeps_bind ?_ fun _ => same fun _ => rfl
    rw [callMember]
    split
    · exact same fun _ => rfl
    · split
      · refine frame.keeps_bind (same fun _ => rfl) fun items => ?_
        split
        · exact fun _ => .of_journal rfl rfl
        · exact same fun _ => rfl
      · refine frame.keeps_bind ?_ fun _ => frame.keeps_bind ?_ fun draw world => ?_
        · rw [within]
          split <;> exact same fun _ => rfl
        · exact frame.keeps_tame isPlain_draw isTame_draw
        · rw [withHeap]
          split <;> exact .of_journal rfl rfl

theorem keepsScope_callRoutine (settings : Settings) (depth : Nat) (name : String)
    {arguments : List Expr} (keeps : ((ofDepth settings depth).evaluateAll arguments).KeepsScope) :
    ((ofDepth settings depth).callRoutine name arguments).KeepsScope := by
  have frame := isFrame_scope
  refine frame.keeps_handled (handles_namingFunction name) ?_
  refine frame.keeps_bind ?_ fun function => frame.keeps_bind keeps fun values => ?_
  · refine frame.keeps_bind (frame.keeps_same fun _ => rfl) fun found => ?_
    cases found <;> exact frame.keeps_same fun _ => rfl
  · refine frame.keeps_bind (keepsScope_openScope _) fun scope world => ?_
    obtain ⟨more, same⟩ := final_body settings depth _ function.block world
    exact ⟨more, fun unreached => (same unreached).1⟩

variable {expression part list : Expr} {settings : Settings} {depth address : Nat}
  {keep : Value → Run (Option Value)} {start world : World}

/-- An expression that looks at the items of no list changes no name of the innermost scope. -/
theorem keepsScope_evaluate (settings : Settings) (depth : Nat)
    (itemless : expression.Throughout Expr.IsItemless) :
    (evaluate settings depth expression).KeepsScope :=
  isFrame_scope.keeps_evaluate settings depth id
    (fun _ _ keeps => keepsScope_callRoutine settings _ _ keeps)
    (fun _ builtin _ values => keepsScope_callSet builtin values)
    (fun looks => ((or_self _).mp looks).elim) itemless

/-! ### One item after another -/

def evaluating (settings : Settings) (expression : Expr) (depth : Nat) : Run Value :=
  evaluate settings depth expression

theorem isSteady_evaluating (settings : Settings) (expression : Expr) :
    Run.IsSteady (evaluating settings expression) :=
  fun _ _ fewer => (settles_ofDepth settings fewer).evaluate expression

/-- Whether so many items of a list have been looked at, from a world on: for each of them the part
has been evaluated with the name of the item standing for it, and the name has been put back. -/
inductive Looks (settings : Settings) (part : Expr) (address : Nat) (start : World) :
    (count : Nat) → (reached : World) → Prop
  | none : Looks settings part address start 0 start
  | next {count : Nat} {reached after : World} {item value : Value} :
    Looks settings part address start count reached →
    (reached.heap.items address)[count]? = some item →
    Run.Comes (evaluating settings part) (reached.withItem item) (.ok value after) →
    Looks settings part address start (count + 1) (after.putBack reached.oldItem)

section

variable {settings : Settings} {part : Expr} {address count : Nat} {start reached : World}

/-- Once an item has been looked at, the name stands for what it stood for at first, or for no value
if that was nothing. -/
theorem Looks.item? (looks : Looks settings part address start count reached) :
    count = 0 ∧ reached = start ∨
      0 < count ∧ start.item? ≠ some .nothing ∧ reached.item? = start.item? ∨
      0 < count ∧ start.item? = some .nothing ∧ reached.item? = Option.none := by
  induction looks with
  | none => exact .inl ⟨rfl, rfl⟩
  | @next count reached after item value _ _ _ ih =>
    right
    have putBack := after.item?_putBack reached
    rcases ih with ⟨-, rfl⟩ | ⟨-, kept, same⟩ | ⟨-, lost, gone⟩
    · rcases putBack with ⟨kept, same⟩ | ⟨lost, gone⟩
      · exact .inl ⟨Nat.succ_pos count, kept, same⟩
      · exact .inr ⟨Nat.succ_pos count, lost, gone⟩
    · rw [same] at putBack
      exact .inl ⟨Nat.succ_pos count, kept, (putBack.resolve_right fun wrong => kept wrong.1).2⟩
    · rw [gone] at putBack
      refine .inr ⟨Nat.succ_pos count, lost, (putBack.resolve_right ?_).2⟩
      rintro ⟨⟨⟩, _⟩

/-- The name is as before exactly if it did not stand for nothing, or if no item was looked at. -/
theorem Looks.item?_eq_iff (looks : Looks settings part address start count reached) :
    reached.item? = start.item? ↔ start.item? ≠ some .nothing ∨ count = 0 := by
  rcases looks.item? with ⟨none, rfl⟩ | ⟨-, kept, same⟩ | ⟨some, lost, gone⟩
  · exact iff_of_true rfl (.inr none)
  · exact iff_of_true same (.inl kept)
  · rw [gone, lost]
    refine iff_of_false (by rintro ⟨⟩) ?_
    rintro (different | none)
    · exact different rfl
    · exact absurd none (Nat.ne_of_gt some)

end

/-- What is done with an item, if the part is evaluated for it first and nothing after that changes
the world. -/
structure TreatsItems (settings : Settings) (part : Expr) (depth : Nat)
    (keep : Value → Run (Option Value)) : Prop where
  ok {item value : Value} {world after : World} :
    evaluating settings part depth (world.withItem item) = .ok value after →
      ∃ kept, keep item world = .ok kept (after.putBack world.oldItem)
  error {item : Value} {exit : Exit} {world after : World} :
    evaluating settings part depth (world.withItem item) = .error exit after →
      keep item world = .error exit after

/-- Going on over the items of a list ends after the last of them, or where the part ends without a
value for one of them. -/
theorem TreatsItems.overItems (treats : TreatsItems settings part depth keep) {rounds place : Nat}
    {kept : List Value} {result : EStateM.Result Exit World (List Value)}
    (looks : Looks settings part address start place world)
    (ended : overItems address keep rounds place kept world = result)
    (enough : isExhausted result = false) :
    ∃ count reached, Looks settings part address start count reached ∧
      ((reached.heap.items address)[count]? = none ∧ (∃ values, result = .ok values reached) ∨
        ∃ item exit after, (reached.heap.items address)[count]? = some item ∧
          Run.Comes (evaluating settings part) (reached.withItem item) (.error exit after) ∧
          result = .error exit after) := by
  induction rounds generalizing place kept world with
  | zero =>
    cases ended
    cases enough
  | succ rounds ih =>
    rw [overItems, look_bind] at ended
    cases found : (world.heap.items address)[place]? with
    | none =>
      rw [found] at ended
      exact ⟨place, world, looks, .inl ⟨found, _, ended.symm⟩⟩
    | some item =>
      rw [found] at ended
      change (keep item >>= _) world = result at ended
      cases evaluated : evaluating settings part depth (world.withItem item) with
      | error exit after =>
        rw [bind_error (treats.error evaluated)] at ended
        subst ended
        have comes : Run.Comes (evaluating settings part) (world.withItem item)
            (.error exit after) := by
          refine ⟨depth, evaluated, ?_⟩
          cases exit with
          | exhausted => cases enough
          | fault _ | signal _ | stalled | outside => rfl
        exact ⟨place, world, looks, .inr ⟨item, exit, after, found, comes, rfl⟩⟩
      | ok value after =>
        obtain ⟨keeping, treated⟩ := treats.ok evaluated
        have looksOn := looks.next found ⟨depth, evaluated, rfl⟩
        rw [bind_ok treated] at ended
        cases keeping <;> exact ih looksOn ended

theorem treatsItems (settings : Settings) (part : Expr) (depth : Nat)
    {judge : Value → Value → Run (Option Value)}
    (quiet : ∀ item value world, ∃ kept, judge item value world = .ok kept world) :
    TreatsItems settings part depth fun item =>
      withItem item (evaluate settings depth part) >>= judge item where
  ok evaluated := (quiet _ _ _).imp fun _ => (bind_ok (withItem_eq_ok evaluated)).trans
  error evaluated := bind_error (withItem_eq_error evaluated)

/-- Looking at the items of the list that an expression gives, and making a new list of what is kept,
ends in the scope that the last item has left, or where the part ends without a value. -/
theorem TreatsItems.sift (treats : TreatsItems settings part depth keep) (action : String)
    {sift : Run Value} (sifts : sift = do
      let address ← (ofDepth settings depth).listAddress action list
      Run.newList (← Run.overItems address keep depth 0 []))
    (listed : Run.Comes (evaluating settings list) world (.ok (.list address) start))
    (enough : isExhausted (reporting settings .nothing sift world) = false) :
    ∃ count reached, Looks settings part address start count reached ∧
      ((reached.heap.items address)[count]? = none ∧ (∃ value after,
        reporting settings .nothing sift world = .ok value after ∧
          after.scope = reached.scope) ∨
      ∃ item exit after, (reached.heap.items address)[count]? = some item ∧
        Run.Comes (evaluating settings part) (reached.withItem item) (.error exit after) ∧
        reporting settings .nothing sift world = .error exit after) := by
  have begun : isExhausted (sift world) = false := isExhausted_of_reporting enough
  rw [sifts] at begun
  have evaluated : evaluating settings list depth world = .ok (.list address) start :=
    Run.Comes.unique (isSteady_evaluating settings list)
      ⟨depth, rfl, isExhausted_of_bind (isExhausted_of_bind begun)⟩ listed
  have found : (ofDepth settings depth).listAddress action list world =
      .ok address start := bind_ok evaluated
  rw [bind_ok found] at begun
  obtain ⟨count, reached, looks, ended⟩ :=
    treats.overItems .none rfl (isExhausted_of_bind begun)
  refine ⟨count, reached, looks, ?_⟩
  rcases ended with ⟨noMore, values, ended⟩ | ⟨item, exit, after, here, failed, ended⟩
  · have whole : sift world = newList values reached := by
      rw [sifts, bind_ok found, bind_ok ended]
    refine .inl ⟨noMore, _, _, (reporting_apply _ ?_).trans whole, rfl⟩
    intro exit after wrong
    rw [whole] at wrong
    cases wrong
  · have whole : sift world = .error exit after := by
      rw [sifts, bind_ok found, bind_error ended]
    refine .inr ⟨item, exit, after, here, failed, (reporting_apply _ ?_).trans whole⟩
    intro other between same
    cases whole.symm.trans same
    obtain ⟨greater, failed, _⟩ := failed
    exact endsOnly_evaluate settings greater part _ _ _ failed

/-- What an expression does that filters or maps the list that another one gives. -/
theorem comes_overItems (isOver : expression = .filter list part ∨ expression = .map list part)
    {result : EStateM.Result Exit World Value}
    (listed : Run.Comes (evaluating settings list) world (.ok (.list address) start))
    (comes : Run.Comes (evaluating settings expression) world result) :
    ∃ count reached, Looks settings part address start count reached ∧
      ((reached.heap.items address)[count]? = none ∧
        (∃ value after, result = .ok value after ∧ after.scope = reached.scope) ∨
      ∃ item exit after, (reached.heap.items address)[count]? = some item ∧
        Run.Comes (evaluating settings part) (reached.withItem item) (.error exit after) ∧
        result = .error exit after) := by
  obtain ⟨depth, rfl, enough⟩ := comes
  cases depth with
  | zero => cases enough
  | succ depth =>
    rcases isOver with rfl | rfl
    · exact (treatsItems settings part depth fun _ _ _ => ⟨_, rfl⟩).sift "filter" rfl listed enough
    · exact (treatsItems settings part depth fun _ _ _ => ⟨_, rfl⟩).sift "map" rfl listed enough

/-- When a list has been filtered or mapped, the name of the item stands for what it stood for before
if and only if it did not stand for nothing, or no item was looked at. When the part has ended without
a value for an item, the name stands for what the part has left: for that item, if the part itself
looks at the items of no list. What the name stood for before is told from the world in which the list
has been evaluated; up to there it is kept if the list expression looks at the items of no list. In
both places nothing outside the language may reach into the run. -/
theorem item_is_put_back_iff (settings : Settings) {expression list part : Expr}
    (isOver : expression = .filter list part ∨ expression = .map list part) {world start : World}
    {address : Nat} {result : EStateM.Result Exit World Value}
    (listed : Run.Comes (evaluating settings list) world (.ok (.list address) start))
    (comes : Run.Comes (evaluating settings expression) world result) :
    (list.Throughout Expr.IsItemless → start.reaches = world.reaches →
      start.item? = world.item?) ∧
    ∃ count reached, Looks settings part address start count reached ∧
      ((reached.heap.items address)[count]? = none ∧
        (∃ value after, result = .ok value after ∧
          (after.item? = start.item? ↔ start.item? ≠ some .nothing ∨ count = 0)) ∨
      ∃ item exit after, (reached.heap.items address)[count]? = some item ∧
        Run.Comes (evaluating settings part) (reached.withItem item) (.error exit after) ∧
        result = .error exit after ∧
        (part.Throughout Expr.IsItemless → after.reaches = reached.reaches →
          (after.item? = start.item? ↔ start.item? = some item))) := by
  refine ⟨fun itemless unreached => ?_, ?_⟩
  · obtain ⟨depth, listed, _⟩ := listed
    have kept := keepsScope_evaluate settings depth itemless world
    rw [show evaluate settings depth list world = .ok (.list address) start from listed] at kept
    exact congrArg (fun scope => scope.bindings.get? itemName) (kept.2 unreached)
  · obtain ⟨count, reached, looks, ended⟩ := comes_overItems isOver listed comes
    refine ⟨count, reached, looks, ?_⟩
    rcases ended with ⟨noMore, value, after, rfl, sameScope⟩ | ⟨item, exit, after, here, failed, rfl⟩
    · have same : after.item? = reached.item? :=
        congrArg (fun scope => scope.bindings.get? itemName) sameScope
      exact .inl ⟨noMore, value, after, rfl, by rw [same, looks.item?_eq_iff]⟩
    · refine .inr ⟨item, exit, after, here, failed, rfl, fun itemless unreached => ?_⟩
      obtain ⟨depth, failed, _⟩ := failed
      have kept := keepsScope_evaluate settings depth itemless (reached.withItem item)
      rw [show evaluate settings depth part (reached.withItem item) = .error exit after from
        failed] at kept
      have left : after.item? = some item :=
        (congrArg (fun scope => scope.bindings.get? itemName) (kept.2 unreached)).trans
          (reached.item?_withItem item)
      rw [left]
      exact eq_comm

theorem item_is_put_back_iff_where_name_is_unknown :
    let settings : Settings := { permissions := ⟨fun _ => false⟩ }
    let world : World := Beginning.world { files := .bare }
    let list : Expr := .list [.number (.int 1)]
    let part : Expr := .identifier "y"
    let start := final (evaluate settings 9 list world)
    let result := evaluate settings 9 (.filter list part) world
    Run.Comes (evaluating settings list) world (.ok (.list 0) start) ∧
      Run.Comes (evaluating settings (.filter list part)) world result ∧
      start.item? = world.item? ∧ ∃ count reached, Looks settings part 0 start count reached ∧
        ((final result).item? = start.item? ↔
          start.item? = (reached.heap.items 0)[count]?) := by
  intro settings world list part start result
  have listed : Run.Comes (evaluating settings list) world (.ok (.list 0) start) :=
    ⟨9, rfl, rfl⟩
  have comes : Run.Comes (evaluating settings (.filter list part)) world result :=
    ⟨9, rfl, by decide +kernel⟩
  obtain ⟨kept, count, reached, looks, ended⟩ :=
    item_is_put_back_iff settings (.inl rfl) listed comes
  have itemless : list.Throughout Expr.IsItemless := by
    refine .intro trivial fun element member => ?_
    rw [List.mem_singleton.mp member]
    exact .intro trivial (by rintro _ ⟨⟩)
  refine ⟨listed, comes, kept itemless (by decide +kernel), count, reached, looks, ?_⟩
  rcases ended with ⟨_, value, after, ended, putBack⟩ | ⟨item, exit, after, here, failed, ended, left⟩
  · have unbound : start.item?.isSome = false := by decide +kernel
    have bound : (final result).item?.isSome = true := by decide +kernel
    have same : after.item? = start.item? := by
      refine putBack.mpr (.inl fun isNothing => ?_)
      rw [isNothing] at unbound
      cases unbound
    rw [ended, final_ok, same, unbound] at bound
    cases bound
  · have unreached : (final result).reaches = 0 := by decide +kernel
    obtain ⟨depth, failed, _⟩ := failed
    have grown := (preserved_grown settings).evaluate depth part (reached.withItem item)
    rw [show evaluate settings depth part (reached.withItem item) = .error exit after from
      failed] at grown
    rw [ended] at unreached
    rw [ended, here]
    refine left (.intro trivial (by rintro _ ⟨⟩)) (Nat.le_antisymm ?_ grown.reaches_le)
    rw [show after.reaches = 0 from unreached]
    exact Nat.zero_le _

/-- The name of the item can be lost: it stands for nothing, one item is looked at, and it stands for
no value afterwards. And it can be left behind: it stands for no value, the condition ends in a fault,
and the name still stands for the item. -/
theorem item_is_not_put_back :
    let settings : Settings := { permissions := ⟨fun _ => false⟩ }
    let world : World := Beginning.world { files := .bare }
    let one : Expr := .list [.number (.int 1)]
    let lost := evaluate settings 9 (.filter one (.boolean true)) (world.withItem .nothing)
    let left := evaluate settings 9 (.filter one (.identifier "y")) world
    hasEnded lost = true ∧ (world.withItem .nothing).item?.isSome = true ∧
      (final lost).item?.isSome = false ∧
      hasEnded left = true ∧ world.item?.isSome = false ∧
      (final left).item?.isSome = true := by
  decide +kernel

end Parlance
