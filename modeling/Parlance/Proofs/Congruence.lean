import Parlance.Proofs.Inner
import Parlance.Proofs.Nodes

/-!
Relations between runs that the meanings of all expressions and statements respect. What lies behind
a permission has to be respected only where the permission is given. A single meaning asks for less:
it runs its parts, and apart from that it does not see the functions. A local congruence is what it
asks for.
-/

namespace Parlance

open Run

/-- A relation between runs with results of the same type. -/
abbrev RunRelation := (α : Type) → Run α → Run α → Prop

abbrev RunRelation.Refl (related : RunRelation) {α : Type} (action : Run α) : Prop :=
  related α action action

def Settings.Allow (settings : Settings) (activity : Permission) : Prop :=
  settings.permissions.allows activity = true

/-- Where the same is allowed, runs behind a check are related if they are related where they are
allowed, and if the refusals are related. -/
theorem related_checked (related : RunRelation) {first second : Settings}
    (permissions : first.permissions = second.permissions) {α : Type} (activity : Permission)
    (one other : Run α)
    (inside : first.Allow activity → second.Allow activity → related α one other)
    (denied : related.Refl (report (.denied activity) : Run α)) :
    related α (check first activity >>= fun _ => one)
      (check second activity >>= fun _ => other) := by
  rw [checked_eq, checked_eq, ← permissions]
  by_cases allowed : first.permissions.allows activity = true
  · have allowedBeside : second.Allow activity := by
      rw [Settings.Allow, ← permissions]
      exact allowed
    rw [if_pos allowed, if_pos allowed]
    exact inside allowed allowedBeside
  · rw [if_neg allowed, if_neg allowed]
    exact denied

/-! ### Registrations -/

/-- What a timer can keep a block for. -/
inductive Registration where
  | once (place : Nat) (span : Float)
  | again (span : Float)
  | job (name : String) (span : Float)

def Registration.add (registration : Registration) (block : Block) (clock : Float)
    (scheduler : Scheduler) : Scheduler :=
  match registration with
  | .once place span => scheduler.addDelayed clock place span block
  | .again span => scheduler.addRecurring clock span block
  | .job name span => scheduler.addJob clock name span block

def Scheduler.IsTimerChange (change : Float → Scheduler → Scheduler) : Prop :=
  ∃ registration block, change = Registration.add registration block

theorem Registration.isTimerChange (registration : Registration) (block : Block) :
    Scheduler.IsTimerChange (registration.add block) :=
  ⟨registration, block, rfl⟩

/-- A registration leaves the calendar as it is. -/
theorem Scheduler.IsTimerChange.scheduled_eq {change : Float → Scheduler → Scheduler}
    (isTimer : IsTimerChange change) (clock : Float) (scheduler : Scheduler) :
    (change clock scheduler).scheduled = scheduler.scheduled := by
  obtain ⟨registration, block, rfl⟩ := isTimer
  cases registration <;> rfl

namespace Run

def register (registration : Registration) (body : List Stmt) (told : String) : Run Unit := do
  let block ← keep body
  schedule (registration.add block) told

def registerByCalendar (schedule : String) (body : List Stmt) : Run Unit := do
  let block ← keep body
  scheduleByCalendar schedule block

def registerForClicks (canvas : Value) (body : List Stmt) : Run Unit := do
  let block ← keep body
  keepForClicks canvas block

end Run

/-! ### Congruences of single meanings -/

/-- What makes a relation between runs one that the meaning of each single expression respects, under
two settings, if it holds between the runs of the parts. A run that changes the variables need not
be related to itself. -/
structure ExpressionCongruence (related : RunRelation) (first second : Settings) : Prop where
  tame {α : Type} {action : Run α} : action.IsPlain → action.IsTame → related α action action
  bind {α β : Type} {one other : Run α} {next later : α → Run β} :
    related α one other → (∀ value, related β (next value) (later value)) →
      related β (one >>= next) (other >>= later)
  /-- Behind a check only what is allowed has to be related. -/
  checked {α : Type} (activity : Permission) {one other : Run α} :
    (first.Allow activity → second.Allow activity → related α one other) →
      related α (check first activity >>= fun _ => one) (check second activity >>= fun _ => other)
  failOutside {α : Type} {wording : String → Report} {cause : Refusal} :
    (∀ text, (wording text).isPlain = true) →
      related α (failOutside first wording cause) (failOutside second wording cause)
  replies : first.Allow .network → related.Refl (look World.replies)
  exchange (request : Outgoing) : first.Allow .network → related.Refl (exchange request)
  files {α : Type} (view : FileTree → α) : first.Allow .files ∨ first.Allow .packages →
    related.Refl (look fun world => view world.files)
  hasScreen : related.Refl (look fun world => world.screen.isSome)

/-- What makes a relation between runs one that each single meaning respects, under two settings,
if it holds between the runs of the parts. -/
structure LocalCongruence (related : RunRelation) (first second : Settings) : Prop
    extends ExpressionCongruence related first second where
  plain {α : Type} {action : Run α} : action.IsPlain → related α action action
  foreignResult (name : String) (values : List Value) : first.Allow .foreign →
    related Value (Engine.foreignResult first name values) (Engine.foreignResult second name values)
  inward (inward : Inward) : first.Allow .foreign →
    related Value (inward.result first) (inward.result second)
  readLine : related String readLine readLine
  setFiles (files : FileTree) : first.Allow .files → related.Refl (setFiles files)
  changingFiles {α : Type} {change : FileChange α} :
    first.Allow .packages → related.Refl (changingFiles change)
  find (name : String) : first.Allow .packages →
    related _ (fromFiles fun files => Package.find files first.permissions name)
      (fromFiles fun files => Package.find files second.permissions name)
  packages : related.Refl (look World.packages)
  registry : first.Allow .packages → related.Refl (look World.registry)
  noteLoaded (name : String) (package : LoadedPackage) : first.Allow .packages →
    related.Refl (noteLoaded name package)
  passTime (span : Float) : first.Allow .timers → related.Refl (passTime span)
  stopJob (name : String) : related.Refl (Engine.stopJob name)
  incoming : first.Allow .server → related.Refl (look World.incoming)
  noteServer (port : Int) : first.Allow .server → related.Refl (noteServer port)
  noteAnswer (reply : Answer) : first.Allow .server → related.Refl (noteAnswer reply)
  tame isPlain _ := plain isPlain

/-! ### Rounds -/

/-- Whether loops are related that may have so many rounds: as many as each other, or more on the
other side, if steps that are used up are related to whatever is run there. -/
inductive RoundsRelated (related : RunRelation) : (one other : Nat) → Prop
  | none : RoundsRelated related 0 0
  | usedUp (other : Nat) :
    (∀ {α : Type} (action : Run α), related α (MonadExcept.throw Exit.exhausted) action) →
      RoundsRelated related 0 other
  | more {one other : Nat} : RoundsRelated related one other →
    RoundsRelated related (one + 1) (other + 1)

namespace RoundsRelated

variable {related : RunRelation}

theorem refl (rounds : Nat) : RoundsRelated related rounds rounds := by
  induction rounds with
  | zero => exact .none
  | succ rounds ih => exact .more ih

theorem of_le
    (usedUp : ∀ {α : Type} (action : Run α), related α (MonadExcept.throw Exit.exhausted) action)
    {one other : Nat} (fewer : one ≤ other) : RoundsRelated related one other := by
  induction one generalizing other with
  | zero => exact .usedUp other usedUp
  | succ one ih =>
    cases other with
    | zero => exact absurd fewer (Nat.not_succ_le_zero one)
    | succ other => exact .more (ih (Nat.le_of_succ_le_succ fewer))

end RoundsRelated

/-! ### Engines -/

/-- Engines that run the parts of programs in related ways. -/
structure Engine.Related (related : RunRelation) (one other : Engine) : Prop where
  rounds : RoundsRelated related one.rounds other.rounds
  evaluate (expression : Expr) : related Value (one.evaluate expression) (other.evaluate expression)
  execute (statement : Stmt) : related Unit (one.execute statement) (other.execute statement)

/-- Engines that run the parts of expressions in related ways, as far as the parts are known. -/
structure Engine.ExpressionParts (related : RunRelation) (known : Expr → Prop)
    (one other : Engine) : Prop where
  rounds : RoundsRelated related one.rounds other.rounds
  evaluate {expression : Expr} : known expression →
    related Value (one.evaluate expression) (other.evaluate expression)

/-- Engines that call functions and load packages in related ways, too. -/
structure Engine.Parts (related : RunRelation) (settings : Settings) (known : Expr → Prop)
    (one other : Engine) : Prop extends Engine.ExpressionParts related known one other where
  callRoutine {name : String} {arguments : List Expr} : Builtin.ofName? name = none →
    (∀ argument ∈ arguments, known argument) →
      related Value (one.callRoutine name arguments) (other.callRoutine name arguments)
  runPackage (source : String) : settings.Allow .packages →
    related Unit (one.runPackage source) (other.runPackage source)

abbrev Engine.AllParts (related : RunRelation) (settings : Settings) (one other : Engine) : Prop :=
  Engine.Parts related settings (fun _ => True) one other

def Bears (related : RunRelation) (misfits : List Report) : Prop :=
  ∀ cause ∈ misfits, ∀ {α : Type}, related.Refl (report cause : Run α)

/-- What the meaning of an expression asks for beyond that: functions of the program and what it has
set in the place of others are called in related ways, and so are functions outside the language;
and where it looks at the items of a list, what is evaluated for an item is related with the name of
the item standing for it. -/
def Engine.Reaches (related : RunRelation) (first second : Settings) (one other : Engine) :
    Expr → Prop
  | .call name arguments => (Builtin.ofName? name = none →
      related Value (one.callRoutine name arguments) (other.callRoutine name arguments)) ∧
    ∀ builtin ∈ Builtin.ofName? name, ∀ values, related.Refl (Engine.callSet builtin values)
  | .foreignCall _ _ => first.Allow .foreign →
    (∀ name values, related Value (Engine.foreignResult first name values)
      (Engine.foreignResult second name values)) ∧
    ∀ inward : Inward, related Value (inward.result first) (inward.result second)
  | .filter _ part | .map _ part => ∀ item, related Value (withItem item (one.evaluate part))
    (withItem item (other.evaluate part))
  | _ => True

/-- What the meaning of a statement asks for beyond that: its own blocks are run in related ways,
and kept in related ways where that is allowed; the signal that it raises is related to itself, and
so is the function that it defines; and the server that it starts answers in related ways. -/
def Engine.Inside (related : RunRelation) (first second : Settings) (one other : Engine) :
    Stmt → Prop
  | .branch _ yes no => related Unit (one.executeAll yes) (other.executeAll yes) ∧
    related Unit (one.executeAll (no.getD [])) (other.executeAll (no.getD []))
  | .repeatForever body | .repeatTimes _ body | .repeatUntil _ body | .doUntil body _ =>
    related Pass (Loop.pass (one.executeAll body)) (Loop.pass (other.executeAll body))
  | .breakLoop => related.Refl (raise .breakLoop : Run Unit)
  | .continueLoop => related.Refl (raise .continueLoop : Run Unit)
  | .giveBack _ => ∀ value, related.Refl (raise (.giveBack value) : Run Unit)
  | .define name parameters body => related.Refl (Engine.define name parameters body)
  | .choose _ cases => ∀ case ∈ cases,
    related Unit (one.executeAll case.body) (other.executeAll case.body)
  | .whenMouseClicks _ body => first.Allow .graphics → ∀ canvas,
    related.Refl (registerForClicks canvas body)
  | .after place _ body => first.Allow .timers → ∀ span told,
    related.Refl (register (.once place span) body told)
  | .every _ body => first.Allow .timers → ∀ span told,
    related.Refl (register (.again span) body told)
  | .job name _ body => first.Allow .timers → ∀ span told,
    related.Refl (register (.job name span) body told)
  | .cron schedule body => first.Allow .cron → related.Refl (registerByCalendar schedule body)
  | .server port routes =>
    related Unit (one.server first port routes) (other.server second port routes)
  | _ => True

/-! ### Congruences of whole programs -/

/-- What makes a local congruence one that whole programs respect: it holds for nodes that do not
belong where they stand and for blocks that are kept, and it is kept by what holds up reports and
signals, and by servers, calls and packages if the parts of programs are run in related ways. -/
structure ProgramCongruence (related : RunRelation) (first second : Settings) : Prop
    extends LocalCongruence related first second where
  misfit {α : Type} (cause : Report) : cause.isMisfit = true → related.Refl (report cause : Run α)
  register (registration : Registration) (body : List Stmt) (told : String) : first.Allow .timers →
      related.Refl (register registration body told)
  calendar (schedule : String) (body : List Stmt) : first.Allow .cron →
    related.Refl (registerByCalendar schedule body)
  clicks (canvas : Value) (body : List Stmt) : first.Allow .graphics →
    related.Refl (registerForClicks canvas body)
  reporting {α : Type} (value : α) {one other : Run α} : related α one other →
    related α (reporting first value one) (reporting second value other)
  pass {one other : Run Unit} : related Unit one other →
    related Pass (Loop.pass one) (Loop.pass other)
  server {one other : Engine} : Engine.Related related one other →
    Engine.AllParts related first one other → ∀ port routes,
      related Unit (one.server first port routes) (other.server second port routes)
  raise (signal : Signal) : related.Refl (raise signal : Run Unit)
  define (name : String) (parameters : List String) (body : List Stmt) :
    related.Refl (Engine.define name parameters body)
  callRoutine {one other : Engine} : Engine.Related related one other →
    one.handing = first.handing → other.handing = second.handing → ∀ {name : String},
      Builtin.ofName? name = none → ∀ arguments,
        related Value (one.callRoutine name arguments) (other.callRoutine name arguments)
  runPackage {one other : Engine} : Engine.Related related one other → ∀ source,
    first.Allow .packages → related Unit (one.runPackage source) (other.runPackage source)

/-- What makes a relation between runs one that programs respect whatever functions they know, as
far as they start no server: all inner runs are related to themselves. -/
structure ServerlessCongruence (related : RunRelation) (first second : Settings) : Prop
    extends LocalCongruence related first second where
  handing : first.handing = second.handing
  inner {α : Type} {action : Run α} : action.IsInner → related α action action
  note (note : Note) : related.Refl (Run.note note)
  reporting {α : Type} (value : α) {one other : Run α} : related α one other →
    related α (reporting first value one) (reporting second value other)
  pass {one other : Run Unit} : related Unit one other →
    related Pass (Loop.pass one) (Loop.pass other)
  inEdition {α : Type} (edition : Edition) {one other : Run α} : related α one other →
    related α (inEdition edition one) (inEdition edition other)
  inScope {α : Type} (scope : Scope Value Routine) {one other : Run α} : related α one other →
    related α (inScope scope one) (inScope scope other)
  givenBack {one other : Run Unit} : related Unit one other →
    related Value (givenBack one) (givenBack other)
  namingFunction {α : Type} (name : String) {one other : Run α} : related α one other →
    related α (namingFunction name one) (namingFunction name other)
  schedule (change : Float → Scheduler → Scheduler) (told : String) : first.Allow .timers →
    Scheduler.IsTimerChange change → related.Refl (schedule change told)
  scheduleByCalendar (schedule : String) (block : Block) : first.Allow .cron →
    related.Refl (scheduleByCalendar schedule block)
  screen {α : Type} (view : Option (List ClickHandler) → α) :
    related.Refl (look fun world => view world.screen)
  keepForClicks (canvas : Value) (block : Block) : first.Allow .graphics →
    related.Refl (keepForClicks canvas block)
  plain isPlain := inner isPlain.isInner
  readLine := inner isInner_readLine
  hasScreen := screen Option.isSome

/-- What makes a relation between runs one that programs respect whatever functions they know. -/
structure Congruence (related : RunRelation) (first second : Settings) : Prop
    extends ServerlessCongruence related first second where
  answered {one other : Run Unit} : related Unit one other →
    related Answer (Engine.answered one) (Engine.answered other)

/-! ### The pieces of runs -/

namespace ExpressionCongruence

variable {related : RunRelation} {first second : Settings}
  (law : ExpressionCongruence related first second)

include law

variable {α : Type}

theorem pure (value : α) : related.Refl (Pure.pure value) :=
  law.tame (isPlain_pure value) fun _ => ⟨rfl, .refl _⟩

theorem exhausted : related.Refl (MonadExcept.throw Exit.exhausted : Run α) :=
  law.tame (isPlain_throw rfl) fun _ => ⟨rfl, .refl _⟩

theorem fail {cause : Fault} (isPlain : cause.isPlain = true) : related.Refl (fail cause : Run α) :=
  law.tame (isPlain_fail isPlain) fun _ => ⟨rfl, .refl _⟩

theorem report {cause : Report} (isPlain : cause.isPlain = true) :
    related.Refl (report cause : Run α) :=
  law.fail isPlain

theorem lookHeap (view : Heap → α) : related.Refl (look fun world => view world.heap) :=
  law.tame (isPlain_lookHeap view) fun _ => ⟨rfl, .refl _⟩

theorem fromHeap (view : Heap → Except Refusal α) : related.Refl (fromHeap view) :=
  law.tame (isPlain_fromHeap view) (isTame_fromHeap view)

theorem withHeap {action : Heap → Except Refusal (α × Heap)}
    (grows : ∀ heap : Heap, heap.Grows (action heap)) : related.Refl (withHeap action) :=
  law.tame (isPlain_withHeap action) (isTame_withHeap grows)

theorem newList (items : List Value) : related.Refl (newList items) :=
  law.withHeap fun _ => by simp

theorem newDictionary (entries : List (Value × Value)) : related.Refl (newDictionary entries) :=
  law.withHeap fun _ => by simp

theorem ofExcept (result : Except Refusal α) : related.Refl (ofExcept result) :=
  law.tame (isPlain_ofExcept result) (isTame_ofExcept result)

theorem outside : related.Refl (MonadExcept.throw Exit.outside : Run α) :=
  law.tame (isPlain_throw rfl) fun _ => ⟨rfl, .refl _⟩

theorem within (isDescribed : Bool) : related.Refl (within isDescribed) := by
  cases isDescribed with
  | true => exact law.pure ()
  | false => exact law.outside

theorem draw : related Nat draw draw := law.tame isPlain_draw isTame_draw

variable (value : Value)

theorem text : related.Refl (text value) :=
  law.fromHeap fun heap => heap.text value

theorem isTrue : related.Refl (isTrue value) :=
  law.lookHeap fun heap => heap.isTrue value

end ExpressionCongruence

namespace LocalCongruence

variable {related : RunRelation} {first second : Settings} {one other : Engine}
  (law : LocalCongruence related first second)

include law

theorem put (address : Nat) (cell : Cell) : related.Refl (put address cell) :=
  law.plain (isPlain_put address cell)

theorem writeLine (text : String) : related.Refl (writeLine text) :=
  law.plain (isPlain_writeLine text)

end LocalCongruence

end Parlance
