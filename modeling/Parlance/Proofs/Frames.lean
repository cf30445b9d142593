import Parlance.Proofs.Fitting

/-!
What expressions leave as it is. Every expression keeps every frame, as far as the functions that it
calls do, what stands in the place of members of libraries, and the name of the item where it looks
at the items of a list.
-/

namespace Parlance

open Engine Run List

variable {α β : Type}

/-- Whether something holds of an expression, of its parts, of their parts and so on. -/
inductive Expr.Throughout (good : Expr → Prop) : Expr → Prop
  | intro {expression : Expr} : good expression →
    (∀ part ∈ expression.parts, part.Throughout good) → expression.Throughout good

/-- Whether nothing has changed in the scopes, in lists and dictionaries that were there, in what
waits for its time or for mouse clicks, and in the files, and what was written still is. -/
structure World.Untouched (before after : World) : Prop where
  scope : after.scope = before.scope
  callers : after.callers = before.callers
  heap : before.heap.GrowsTo after.heap
  scheduler : after.scheduler = before.scheduler
  screen : after.screen = before.screen
  files : after.files = before.files
  journal : before.journal <:+ after.journal
  written : before.written <:+ after.written

theorem World.Untouched.refl (world : World) : world.Untouched world :=
  ⟨rfl, rfl, .refl _, rfl, rfl, rfl, suffix_rfl, suffix_rfl⟩

structure IsFrame (kept : World → World → Prop) : Prop where
  untouched {before after : World} : before.Untouched after → kept before after
  trans {before between after : World} : kept before between → kept between after →
    kept before after

theorem World.isFrame_untouched : IsFrame World.Untouched where
  untouched untouched := untouched
  trans first second :=
    ⟨second.scope.trans first.scope, second.callers.trans first.callers,
      first.heap.trans second.heap, second.scheduler.trans first.scheduler,
      second.screen.trans first.screen, second.files.trans first.files,
      first.journal.trans second.journal, first.written.trans second.written⟩

/-- Whether the program has set no member of a library. -/
def World.HasOriginalLibraries (world : World) : Prop := world.heap.members = []

/-- Whether a relation holds if the program had set no member of a library before. -/
def FromOriginal (kept : World → World → Prop) (before after : World) : Prop :=
  before.HasOriginalLibraries → kept before after

theorem callSet_original (builtin : Builtin) (values : List Value) {world : World}
    (original : world.HasOriginalLibraries) : callSet builtin values world = .ok none world := by
  have unset (place : Library × String) : world.heap.member? place.1 place.2 = none := by
    rw [Heap.member?, show world.heap.members = [] from original, lookup_nil]
  rw [callSet, look_bind]
  cases builtin.member? with
  | none => rfl
  | some place =>
    rw [Option.bind_some, unset]
    rfl

namespace IsFrame

variable {kept : World → World → Prop} (frame : IsFrame kept) {action : Run α}

include frame

theorem keeps_bind {next : α → Run β} (head : action.Keeps kept)
    (tail : ∀ value, (next value).Keeps kept) : (action >>= next).Keeps kept :=
  Run.keeps_bind head tail fun _ _ _ => frame.trans

theorem keeps_tame (isPlain : action.IsPlain) (tame : action.IsTame) : action.Keeps kept := by
  intro world
  obtain ⟨scope, heap⟩ := tame world
  obtain ⟨step, _, steps⟩ := isPlain
  rw [steps, final_mapState] at scope heap ⊢
  exact frame.untouched ⟨scope, rfl, heap, rfl, rfl, rfl, suffix_rfl, suffix_append _ _⟩

theorem keeps_handled {holds : Prop} {called : Option String} {wrap : Run α → Run β}
    (handles : Handles holds called wrap) (keeps : action.Keeps kept) : (wrap action).Keeps kept := by
  intro world
  obtain ⟨notes, texts, same⟩ := exists_final_handled handles action world
  rw [same]
  exact frame.trans (keeps world) (frame.untouched
    ⟨rfl, rfl, .refl _, rfl, rfl, rfl, suffix_append notes _, suffix_append texts _⟩)

theorem keeps_same (same : ∀ world, final (action world) = world) : action.Keeps kept := by
  intro world
  rw [same]
  exact frame.untouched (.refl world)

/-- Where a frame leaves the libraries as they are, it is one from original libraries on. -/
theorem fromOriginal (grows : ∀ {before after : World}, kept before after →
    before.heap.GrowsTo after.heap) : IsFrame (FromOriginal kept) where
  untouched untouched _ := frame.untouched untouched
  trans first second original := frame.trans (first original)
    (second ((grows (first original)).members.trans original))

theorem keeps_callSet (builtin : Builtin) (values : List Value) :
    (callSet builtin values).Keeps (FromOriginal kept) := by
  intro world original
  rw [callSet_original builtin values original]
  exact frame.untouched (.refl world)

variable (settings : Settings)

theorem expressionCongruence :
    ExpressionCongruence (fun _ action _ => action.Keeps kept) settings settings where
  tame := frame.keeps_tame
  bind := frame.keeps_bind
  checked activity one other keeps := related_checked (fun _ action _ => action.Keeps kept) rfl
    activity one other keeps (frame.keeps_same fun _ => rfl)
  failOutside _ := by
    rw [failOutside]
    split <;> exact frame.keeps_same fun _ => rfl
  replies _ := frame.keeps_same fun _ => rfl
  exchange request _ world := by
    rw [exchange]
    split <;> exact frame.untouched ⟨rfl, rfl, .refl _, rfl, rfl, rfl, suffix_rfl, suffix_rfl⟩
  files _ _ := frame.keeps_same fun _ => rfl
  hasScreen := frame.keeps_same fun _ => rfl

/-- An expression calls nothing outside the language and keeps a frame, if calls of functions that
may stand in it do, and what is done with the name of the item where it may look at the items of a
list. -/
theorem keeps_evaluate {good : Expr → Prop} {expression : Expr} (depth : Nat)
    (inside : ∀ {path : String} {arguments : List Expr}, ¬ good (.foreignCall path arguments))
    (calls : ∀ {depth : Nat} {name : String} {arguments : List Expr}, good (.call name arguments) →
      Builtin.ofName? name = none → ((ofDepth settings depth).evaluateAll arguments).Keeps kept →
        ((ofDepth settings depth).callRoutine name arguments).Keeps kept)
    (sets : ∀ {name : String} {arguments : List Expr}, good (.call name arguments) →
      ∀ builtin ∈ Builtin.ofName? name, ∀ values, (callSet builtin values).Keeps kept)
    (items : ∀ {list part : Expr}, good (.filter list part) ∨ good (.map list part) →
      ∀ (item : Value) {action : Run Value}, action.Keeps kept → (withItem item action).Keeps kept)
    (throughout : expression.Throughout good) : (evaluate settings depth expression).Keeps kept := by
  induction depth generalizing expression with
  | zero => exact frame.keeps_same fun _ => rfl
  | succ depth ih =>
    have law := frame.expressionCongruence settings
    obtain ⟨here, below⟩ := throughout
    rw [evaluate]
    refine frame.keeps_handled (handles_reporting settings _) ?_
    refine @ExpressionCongruence.valueOf _ _ _ _ (ofDepth settings depth) (ofDepth settings depth)
      law ⟨.refl _, ih⟩ expression ((Expr.each_iff expression).mpr below)
      (fun _ _ _ => frame.keeps_same fun _ => rfl) ?_
    cases expression with
    | call name arguments =>
      exact ⟨fun own => calls here own (@ExpressionCongruence.evaluateAll _ _ _
        (ofDepth settings depth) (ofDepth settings depth) law arguments fun argument member =>
          ih (below argument member)), sets here⟩
    | foreignCall path arguments => exact (inside here).elim
    | filter list part =>
      exact fun item => items (.inl here) item (ih (below part (by simp [Expr.parts])))
    | map list part =>
      exact fun item => items (.inr here) item (ih (below part (by simp [Expr.parts])))
    | _ => trivial

end IsFrame

/-- Whether an expression calls no function of the program or of a library, looks at the items of no
list, and has to do with neither the network, files nor canvases. -/
def Expr.IsStill : Expr → Prop
  | .call name _ => (Builtin.ofName? name).isSome = true
  | .filter _ _ | .map _ _ | .get _ _ | .post _ _ | .fileText _ | .createCanvas _ _
  | .foreignCall _ _ => False
  | _ => True

theorem isFrame_fromOriginal_untouched : IsFrame (FromOriginal World.Untouched) :=
  World.isFrame_untouched.fromOriginal World.Untouched.heap

theorem untouched_evaluate (settings : Settings) (depth : Nat) {expression : Expr}
    (still : expression.Throughout Expr.IsStill) :
    (evaluate settings depth expression).Keeps (FromOriginal World.Untouched) := by
  refine isFrame_fromOriginal_untouched.keeps_evaluate settings depth id (fun known own _ => ?_)
    (fun _ builtin _ values => World.isFrame_untouched.keeps_callSet builtin values)
    (fun looks => ((or_self _).mp looks).elim) still
  rw [Expr.IsStill, own] at known
  cases known

end Parlance
