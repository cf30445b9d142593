import Parlance.Proofs.Disciplines

/-!
No signal is lost. If every signal of a program, of the functions that it knows and of the packages
that it loads is raised where something waits for it, and no call outside the language reaches into
the run, then no run of the program ends with such a signal, and no expression ever raises one.
-/

namespace Parlance

open Engine Run List

variable {α : Type}

/-! ### Scoped worlds -/

def Scope.IsScoped (scope : Scope Value Routine) : Prop :=
  ∀ entry ∈ scope.functions, Stmt.areScoped .inBody entry.2.block.body = true

/-- Whether all functions of a world are scoped. -/
def World.IsScoped (world : World) : Prop := ∀ scope ∈ world.scopes, scope.IsScoped

/-- Whether the package that a note is about is scoped. A text that is no program is never run. Of a
call that reaches into the run nothing is known. -/
def Note.isScoped : Note → Bool
  | .package source => (program? source).all fun program => Stmt.areScoped .outside program
  | .inward => false
  | .refusal | .heldUp _ => true

namespace Run

/-- Whether a run ends with a result, or in a way that is permitted where it stands. -/
def endsWithin {σ : Type} (standing : Standing) : EStateM.Result Exit σ α → Bool
  | .ok _ _ => true
  | .error exit _ => standing.permits exit

theorem endsQuietly_of_endsWithin {σ : Type} {result : EStateM.Result Exit σ α}
    (within : endsWithin .outside result = true) : endsQuietly result = true := by
  cases result with
  | ok _ _ => rfl
  | error exit _ => exact (Standing.permits_outside exit).symm.trans within

end Run

/-! ### The discipline of signals -/

/-- The blocks of a scoped statement are scoped where they stand. -/
theorem Stmt.isScoped_blocks {standing : Standing} {statement : Stmt}
    (held : statement.isScoped standing = true) : ∀ body ∈ statement.blocks, ∀ inner ∈ body,
      inner.isScoped (statement.inner standing) = true := by
  cases statement with
  | branch _ yes no =>
    obtain ⟨first, second⟩ := Bool.and_eq_true_iff.mp held
    refine forall_mem_cons.mpr ⟨(areScoped_iff standing yes).mp first, ?_⟩
    cases no with
    | none => exact forall_mem_nil _
    | some body => exact forall_mem_singleton.mpr ((areScoped_iff standing body).mp second)
  | repeatForever body | repeatTimes _ body | repeatUntil _ body | doUntil body _ | define _ _ body
  | whenMouseClicks _ body | after _ _ body | every _ body | job _ _ body | cron _ body =>
    exact forall_mem_singleton.mpr ((areScoped_iff _ body).mp held)
  | choose _ cases =>
    intro body member
    obtain ⟨case, listed, rfl⟩ := mem_map.mp member
    exact (areScoped_iff _ _).mp ((Case.areScoped_iff standing cases).mp held case listed)
  | server _ routes =>
    intro body member
    obtain ⟨route, listed, rfl⟩ := mem_map.mp member
    exact (areScoped_iff _ _).mp ((Route.areScoped_iff routes).mp held route listed)
  | _ => exact forall_mem_nil _

/-- Signals are raised only where something waits for them. -/
def scoping (settings : Settings) : Discipline settings where
  knows _ := True
  accepts standing statement := statement.isScoped standing = true
  keeps _ := True
  permits standing exit := standing.permits exit = true
  relies note := note.isScoped = true
  makes _ := True
  plain isPlain := Standing.permits_of_isQuiet _ (Exit.isQuiet_of_isPlain isPlain)
  unknown _ := rfl
  ofLoop {standing exit} permitted noBreak noContinue := by
    cases exit with
    | signal signal =>
      cases signal with
      | breakLoop => exact absurd rfl noBreak
      | continueLoop => exact absurd rfl noContinue
      | _ => exact permitted
    | _ => rfl
  ofBody {standing exit} permitted notGiven := by
    cases exit with
    | signal signal =>
      cases signal with
      | giveBack value => exact absurd rfl (notGiven value)
      | stop => rfl
      | _ => cases permitted
    | _ => rfl
  anywhere {standing exit} permitted :=
    standing.permits_of_isQuiet ((Standing.permits_outside exit).symm.trans permitted)
  heldUp _ := trivial
  otherNotes _ := trivial
  parts _ := ⟨Expr.each_of_forall (fun _ => trivial) _, fun _ _ => rfl⟩
  inside held :=
    ⟨Stmt.each_of_forall (fun _ => trivial) _, fun _ _ => rfl, Stmt.isScoped_blocks held⟩
  breaks := id
  continues := id
  gives := id
  waits _ := trivial
  placed {statement} held := by
    rw [← Stmt.areScoped_iff, Stmt.areScoped_program, Stmt.areScoped_iff]
    exact forall_mem_singleton.mpr held
  package {source} _ relied := by
    refine ⟨fun program read => (Stmt.areScoped_iff .outside program).mp ?_, fun failed => ?_⟩
    · rwa [Note.isScoped, read] at relied
    · obtain ⟨_, rfl | ⟨_, rfl⟩ | ⟨_, rfl, _⟩⟩ := exit_of_program failed <;> rfl
  inward relied := absurd relied Bool.false_ne_true

theorem holds_scoping {settings : Settings} {world : World} (functions : world.IsScoped) :
    (scoping settings).Holds world where
  functions scope member entry listed :=
    (Stmt.areScoped_iff _ _).mp (functions scope member entry listed)
  handlers _ _ _ _ := trivial
  tasks _ _ :=
    ⟨fun _ _ => trivial, fun _ _ => trivial, fun _ _ => trivial, fun _ _ => trivial⟩

/-! ### No signal escapes -/

/-- Whether all packages are scoped that were run on the way from one world to another, and no call
outside the language reached into the run. -/
def LoadsScoped (before after : World) : Prop :=
  ∀ notes, Noted notes before after → ∀ note ∈ notes, note.isScoped = true

/-- What is left by scoped runs from a world whose functions are scoped. -/
theorem Run.Obeys.stays {settings : Settings} {standing : Standing} {action : Run α} {world : World}
    (obeys : action.Obeys (scoping settings) standing) (functions : world.IsScoped)
    (packages : LoadsScoped world (final (action world))) :
    endsWithin standing (action world) = true ∧ (final (action world)).IsScoped := by
  obtain ⟨notes, noted, ends⟩ := obeys.exists_ends (holds_scoping functions)
  obtain ⟨permitted, holds, -⟩ := ends (packages notes noted)
  refine ⟨?_, fun scope member entry listed =>
    (Stmt.areScoped_iff _ _).mpr (holds.functions scope member entry listed)⟩
  cases ended : action world with
  | ok value after => rfl
  | error exit after => exact permitted ended

end Parlance
