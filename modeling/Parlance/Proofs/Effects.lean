import Parlance.Proofs.Items

/-!
What has no effect: evaluating an expression that calls no function of the program or of a library
and makes no canvas, and a statement that changes a variable, a list or a dictionary if it fails.
Both hold as long as the program has set no member of a library, because functions that every
program has follow what is set there.
-/

namespace Parlance

open Engine Run List

variable {α β : Type}

/-! ### Evaluating -/

/-- Whether an expression calls no function of the program or of a library, and makes no canvas. -/
def Expr.IsInnocent : Expr → Prop
  | .call name _ => (Builtin.ofName? name).isSome = true
  | .foreignCall _ _ | .createCanvas _ _ => False
  | _ => True

/-- Whether no list and no dictionary that was there has changed, no name of any scope, apart from
that of the item in the innermost one, no function, nothing that waits for its time or for mouse
clicks, and no file. -/
structure World.Spares (start reached : World) : Prop extends World.Retains start reached where
  scheduler : reached.scheduler = start.scheduler
  screen : reached.screen = start.screen
  files : reached.files = start.files

namespace World

theorem isFrame_spares : IsFrame Spares where
  untouched untouched :=
    ⟨untouched.retains, untouched.scheduler, untouched.screen, untouched.files⟩
  trans first second :=
    ⟨first.toRetains.trans second.toRetains, second.scheduler.trans first.scheduler,
      second.screen.trans first.screen, second.files.trans first.files⟩

variable (world : World)

theorem spares_withItem (value : Value) : world.Spares (world.withItem value) :=
  ⟨world.retains_withItem value, rfl, rfl, rfl⟩

theorem spares_putBack (old : Value) : world.Spares (world.putBack old) := by
  refine ⟨world.retains_putBack old, ?_, ?_, ?_⟩ <;> cases old <;> rfl

end World

/-- Where the name of the item is set and put back, other names are spared. -/
theorem Run.spares_withItem (item : Value) {action : Run α}
    (spares : action.Keeps (FromOriginal World.Spares)) :
    (withItem item action).Keeps (FromOriginal World.Spares) := by
  intro world original
  have begun := World.isFrame_spares.trans (world.spares_withItem item)
    (spares (world.withItem item) original)
  cases ended : action (world.withItem item) with
  | ok value after =>
    rw [ended] at begun
    rw [withItem_eq_ok ended]
    exact World.isFrame_spares.trans begun (after.spares_putBack _)
  | error exit after =>
    rw [ended] at begun
    rw [withItem_eq_error ended]
    exact begun

/-- Whatever way the evaluation of an expression ends that calls no function of the program or of a
library and makes no canvas, it has changed nothing but the name of the item, if the program has set
no member of a library. -/
theorem innocent_expression_spares_world (settings : Settings) (depth : Nat) {expression : Expr}
    (innocent : expression.Throughout Expr.IsInnocent) (world : World)
    (original : world.HasOriginalLibraries) :
    world.Spares (final (evaluate settings depth expression world)) := by
  have frame := World.isFrame_spares.fromOriginal fun spares => spares.heap
  refine frame.keeps_evaluate settings depth id (fun known own _ => ?_)
    (fun _ builtin _ values => World.isFrame_spares.keeps_callSet builtin values)
    (fun _ item _ spares => spares_withItem item spares) innocent world original
  rw [Expr.IsInnocent, own] at known
  cases known

/-- The items of a list are rounded down, but the second one is no number. The name of the item is
left behind, and the list is as it was. -/
theorem innocent_expression_spares_world_where_function_fails :
    let settings : Settings := { permissions := ⟨fun _ => false⟩ }
    let scope : Scope Value Routine := { bindings := [("xs", .list 0)], functions := [] }
    let items : List Value := [.number (.int 1), .string "a"]
    let world : World := { scope, heap := ⟨#[.list items], 0, []⟩, files := .bare }
    let expression : Expr := .map (.identifier "xs") (.call "floor" [.identifier "item"])
    let result := evaluate settings 9 expression world
    world.HasOriginalLibraries ∧ hasEnded result = true ∧ world.item?.isSome = false ∧
      (final result).item?.isSome = true ∧ world.Spares (final result) := by
  intro settings scope items world expression result
  have ended : hasEnded result = true ∧ world.item?.isSome = false ∧
      (final result).item?.isSome = true := by decide +kernel
  refine ⟨rfl, ended.1, ended.2.1, ended.2.2,
    innocent_expression_spares_world settings 9 ?_ world rfl⟩
  refine .intro trivial fun part member => ?_
  obtain rfl | inner := mem_cons.mp member
  · exact .intro trivial (by rintro _ ⟨⟩)
  · rw [mem_singleton.mp inner]
    refine .intro (show (Builtin.ofName? "floor").isSome = true by decide +kernel)
      fun argument inside => ?_
    rw [mem_singleton.mp inside]
    exact .intro trivial (by rintro _ ⟨⟩)

/-- After a program has put the removal of the last item in the place of rounding down, an expression
that rounds down changes a list. -/
theorem list_is_changed_by_set_member :
    let settings : Settings := { permissions := ⟨fun _ => false⟩ }
    let scope : Scope Value Routine := { bindings := [("xs", .list 0)], functions := [] }
    let heap : Heap := Heap.setMember ⟨#[.list [.boolean true]], 0, []⟩ .math "floor"
      (.foreign "method_descriptor" "list.pop")
    let world : World := { scope, heap, files := .bare }
    let after := final (evaluate settings 4 (.call "floor" [.identifier "xs"]) world)
    (world.heap.items 0).length = 1 ∧ (after.heap.items 0).length = 0 := by
  decide +kernel

/-! ### Failing -/

/-- Whether a run leaves the world untouched where it ends without a result, if the program has set
no member of a library. -/
def Run.FailsClean (action : Run α) : Prop :=
  ∀ world exit after, world.HasOriginalLibraries → action world = .error exit after →
    world.Untouched after

namespace Run

variable {action : Run α} {next : α → Run β}

theorem FailsClean.of_keeps (keeps : action.Keeps (FromOriginal World.Untouched)) :
    action.FailsClean := by
  intro world exit after original ended
  have kept := keeps world original
  rwa [ended] at kept

theorem failsClean_bind (head : action.Keeps (FromOriginal World.Untouched))
    (tail : ∀ value, (next value).FailsClean) : (action >>= next).FailsClean := by
  intro world exit after original ended
  have kept := head world original
  cases begun : action world with
  | ok value between =>
    rw [begun] at kept
    rw [bind_ok begun] at ended
    have still : between.HasOriginalLibraries := kept.heap.members.trans original
    exact World.isFrame_untouched.trans kept (tail value between exit after still ended)
  | error first between =>
    rw [bind_error begun] at ended
    rw [begun] at kept
    cases ended
    exact kept

theorem failsClean_modify (change : World → World) : (modify change : Run Unit).FailsClean := by
  rintro world _ after _ ⟨⟩

theorem failsClean_same (same : ∀ world, final (action world) = world) : action.FailsClean :=
  .of_keeps (isFrame_fromOriginal_untouched.keeps_same same)

/-- What is looked up before a change leaves everything untouched. -/
theorem failsClean_look {view : World → α} (tail : ∀ value, (next value).FailsClean) :
    (look view >>= next).FailsClean :=
  failsClean_bind (isFrame_fromOriginal_untouched.keeps_same fun _ => rfl) tail

theorem untouched_within (isDescribed : Bool) :
    (within isDescribed).Keeps (FromOriginal World.Untouched) := by
  rw [within]
  split <;> exact isFrame_fromOriginal_untouched.keeps_same fun _ => rfl

theorem failsClean_setProperty (owner : Value) (name : String) (value : Value) :
    (setProperty owner name value).FailsClean := by
  refine failsClean_bind (untouched_within _) fun _ => ?_
  cases owner with
  | dictionary address => exact failsClean_look fun _ => failsClean_modify _
  | _ =>
    refine failsClean_look fun found => ?_
    split
    · exact failsClean_same fun _ => rfl
    · split <;> first | exact failsClean_modify _ | exact failsClean_same fun _ => rfl

theorem failsClean_setItem (owner position value : Value) :
    (setItem owner position value).FailsClean := by
  have frame := isFrame_fromOriginal_untouched
  cases owner with
  | list address =>
    refine failsClean_look fun items => ?_
    split
    · exact failsClean_modify _
    · exact failsClean_bind (frame.keeps_tame (isPlain_text position) (isTame_fromHeap _)) fun _ =>
        failsClean_same fun _ => rfl
  | dictionary address =>
    refine failsClean_bind (frame.keeps_tame (isPlain_ofExcept position.asKey)
      (isTame_ofExcept _)) fun key => ?_
    exact failsClean_look fun _ => failsClean_modify _
  | _ => exact failsClean_same fun _ => rfl

end Run

/-! ### Updates -/

/-- Whether a statement assigns or changes a target, or adds to, removes from or reverses a list. -/
def Stmt.IsUpdate : Stmt → Prop
  | .assign _ _ | .change _ _ _ | .add _ _ | .remove _ _ _ | .reverse _ => True
  | _ => False

section

variable {engine : Engine} {target list : Expr} (parts : ∀ {expression : Expr},
    expression.Throughout Expr.IsStill →
      (engine.evaluate expression).Keeps (FromOriginal World.Untouched))

include parts

theorem untouched_readTarget (still : target.Each (Expr.Throughout Expr.IsStill)) :
    (engine.readTarget target).Keeps (FromOriginal World.Untouched) := by
  have frame := isFrame_fromOriginal_untouched
  cases target with
  | identifier name =>
    exact frame.keeps_tame (isPlain_variableValue name) (isTame_variableValue name)
  | property object name =>
    refine frame.keeps_bind (parts still) fun _ => frame.keeps_bind (untouched_within _) fun _ => ?_
    exact frame.keeps_same fun _ => rfl
  | index object place =>
    refine frame.keeps_bind (parts still.1) fun value => ?_
    refine frame.keeps_bind (parts still.2) fun _ => ?_
    refine frame.keeps_bind ?_ fun _ => frame.keeps_same fun _ => rfl
    exact frame.keeps_tame (isPlain_fromHeap _) (isTame_fromHeap _)
  | _ => exact frame.keeps_same fun _ => rfl

theorem failsClean_writeTarget (still : target.Each (Expr.Throughout Expr.IsStill))
    (value : Value) : (engine.writeTarget target value).FailsClean := by
  cases target with
  | identifier name => exact failsClean_modify _
  | property object name =>
    exact failsClean_bind (parts still) fun owner => failsClean_setProperty owner name value
  | index object place =>
    refine failsClean_bind (parts still.1) fun owner => ?_
    exact failsClean_bind (parts still.2) fun position => failsClean_setItem owner position value
  | _ => exact failsClean_same fun _ => rfl

theorem failsClean_changeTarget (kind : Change) {amount : Expr}
    (still : target.Each (Expr.Throughout Expr.IsStill) ∧ amount.Throughout Expr.IsStill) :
    (engine.changeTarget target kind amount).FailsClean := by
  have combined (operator : BinaryOperator) (known : ∀ name, operator ≠ .unknown name) :
      (engine.evaluate amount >>= fun value => engine.readTarget target >>= fun current =>
        operator.apply current value >>= engine.writeTarget target).FailsClean := by
    refine failsClean_bind (parts still.2) fun value => ?_
    refine failsClean_bind (untouched_readTarget parts still.1) fun current => ?_
    refine failsClean_bind ?_ fun result => failsClean_writeTarget parts still.1 result
    exact isFrame_fromOriginal_untouched.keeps_tame (isPlain_binary known current value)
      (isTame_binary operator current value)
  cases kind with
  | becomes =>
    exact failsClean_bind (parts still.2) fun value => failsClean_writeTarget parts still.1 value
  | increase => exact combined .plus (by rintro _ ⟨⟩)
  | decrease => exact combined .minus (by rintro _ ⟨⟩)
  | unknown name => exact failsClean_same fun _ => rfl

theorem untouched_listAddress (action : String) (still : list.Throughout Expr.IsStill) :
    (engine.listAddress action list).Keeps (FromOriginal World.Untouched) := by
  have frame := isFrame_fromOriginal_untouched
  refine frame.keeps_bind (parts still) fun value => ?_
  cases value <;> exact frame.keeps_same fun _ => rfl

theorem failsClean_carryOut (settings : Settings) {statement : Stmt} (update : statement.IsUpdate)
    (still : statement.Each (Expr.Throughout Expr.IsStill)) :
    (engine.carryOut settings statement).FailsClean := by
  cases statement with
  | assign target value =>
    exact failsClean_bind (parts still.2) fun value => failsClean_writeTarget parts still.1 value
  | change target kind amount => exact failsClean_changeTarget parts kind still
  | add list value =>
    refine failsClean_bind (untouched_listAddress parts "add" still.1) fun address => ?_
    exact failsClean_bind (parts still.2) fun item => failsClean_look fun _ => failsClean_modify _
  | remove list value place =>
    refine failsClean_bind (untouched_listAddress parts "remove" still.1) fun address => ?_
    cases place with
    | some index =>
      have whole : (engine.whole index).Keeps (FromOriginal World.Untouched) :=
        isFrame_fromOriginal_untouched.keeps_bind (parts still.2) fun value =>
          isFrame_fromOriginal_untouched.keeps_tame (isPlain_ofExcept (Heap.toInt value))
            (isTame_ofExcept _)
      refine failsClean_bind whole fun position => failsClean_look fun items => ?_
      split
      · exact failsClean_modify _
      · exact failsClean_same fun _ => rfl
    | none =>
      exact failsClean_bind (parts still.2) fun _ => failsClean_look fun _ => failsClean_modify _
  | reverse list =>
    refine failsClean_bind (untouched_listAddress parts "reverse" still) fun address => ?_
    exact failsClean_look fun _ => failsClean_modify _
  | _ => exact update.elim

end

/-- A statement that assigns or changes a target, or adds to, removes from or reverses a list, and
whose expressions call no function of the program or of a library, look at the items of no list and
have to do with neither the network, files nor canvases, leaves the world untouched where it fails:
with a fault that ends the run, or with one that is reported. The program must have set no member of a
library before. -/
theorem failed_update_leaves_world_untouched (settings : Settings) (depth : Nat) {statement : Stmt}
    (update : statement.IsUpdate) (still : statement.Each (Expr.Throughout Expr.IsStill))
    {world after : World} (original : world.HasOriginalLibraries) {exit : Exit}
    (failed : (ofDepth settings depth).carryOut settings statement world = .error exit after) :
    world.Untouched (final (execute settings (depth + 1) statement world)) := by
  have clean := failsClean_carryOut (untouched_evaluate settings depth) settings update still
    world exit after original failed
  obtain ⟨notes, texts, same⟩ := exists_final_handled (handles_reporting settings ())
    ((ofDepth settings depth).carryOut settings statement) world
  rw [failed] at same
  have told : after.Untouched (final
      (reporting settings () ((ofDepth settings depth).carryOut settings statement) world)) := by
    rw [same]
    exact ⟨rfl, rfl, .refl _, rfl, rfl, rfl, suffix_append notes _, suffix_append texts _⟩
  exact World.isFrame_untouched.trans clean told

/-- A new list is not put behind the end of another one, and this is reported. -/
theorem failed_update_leaves_world_untouched_behind_end :
    let settings : Settings := { permissions := ⟨fun _ => false⟩ }
    let scope : Scope Value Routine := { bindings := [("xs", .list 0)], functions := [] }
    let world : World :=
      { scope, heap := ⟨#[.list [.number (.int 1)]], 0, []⟩
        files := .bare }
    let statement : Stmt :=
      .assign (.index (.identifier "xs") (.number (.int 5))) (.list [.number (.int 2)])
    let reached := final (execute settings 9 statement world)
    world.HasOriginalLibraries ∧ reached.written.length = 1 ∧
      world.heap.next < reached.heap.next ∧ world.Untouched reached := by
  intro settings scope world statement reached
  have told : reached.written.length = 1 ∧ world.heap.next < reached.heap.next := by decide +kernel
  have fails : ((ofDepth settings 8).carryOut settings statement).run' world = none := by
    decide +kernel
  have still : statement.Each (Expr.Throughout Expr.IsStill) := by
    refine ⟨⟨.intro trivial (by rintro _ ⟨⟩), .intro trivial (by rintro _ ⟨⟩)⟩,
      .intro trivial fun element member => ?_⟩
    rw [mem_singleton.mp member]
    exact .intro trivial (by rintro _ ⟨⟩)
  refine ⟨rfl, told.1, told.2, ?_⟩
  cases failed : (ofDepth settings 8).carryOut settings statement world with
  | ok value after =>
    delta EStateM.run' EStateM.run at fails
    rw [failed] at fails
    cases fails
  | error exit after =>
    have update : statement.IsUpdate := trivial
    exact failed_update_leaves_world_untouched settings 8 update still rfl failed

/-- In the same way a list is changed by a statement that then fails. -/
theorem failed_update_changes_list_by_set_member :
    let settings : Settings := { permissions := ⟨fun _ => false⟩ }
    let scope : Scope Value Routine := { bindings := [("xs", .list 0)], functions := [] }
    let heap : Heap := Heap.setMember ⟨#[.list [.boolean true]], 0, []⟩ .math "floor"
      (.foreign "method_descriptor" "list.pop")
    let world : World := { scope, heap, files := .bare }
    let statement : Stmt :=
      .assign (.index (.list []) (.number (.int 9))) (.call "floor" [.identifier "xs"])
    let after := final (execute settings 5 statement world)
    after.written.map Prod.snd = ["Index 9 out of range\n"] ∧
    (world.heap.items 0).length = 1 ∧ (after.heap.items 0).length = 0 := by
  decide +kernel

end Parlance
