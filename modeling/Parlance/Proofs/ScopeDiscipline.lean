import Parlance.Proofs.Keeping

/-!
The discipline of scopes. Whatever an expression or a statement does, and whatever way it ends, the
innermost scope is afterwards the one that was innermost before, and the scopes around it hold the
same variables and the same functions. The one way around this is a call outside the language that
reaches into the run.
-/

namespace Parlance

open Run

/-- Whether a relation holds between two worlds, unless a call outside the language has reached into
the run between them. -/
def UnlessReached (kept : World → World → Prop) (before after : World) : Prop :=
  before.reaches ≤ after.reaches ∧ (after.reaches = before.reaches → kept before after)

namespace UnlessReached

variable {kept : World → World → Prop} {before between after : World}

theorem of_journal (same : after.journal = before.journal) (holds : kept before after) :
    UnlessReached kept before after :=
  ⟨Nat.le_of_eq (congrArg (List.countP Note.isInward) same.symm), fun _ => holds⟩

theorem trans (earlier : UnlessReached kept before between) (later : UnlessReached kept between after)
    (both : kept before between → kept between after → kept before after) :
    UnlessReached kept before after := by
  refine ⟨Nat.le_trans earlier.1 later.1, fun same => both (earlier.2 ?_) (later.2 ?_)⟩
  · exact Nat.le_antisymm (same ▸ later.1) earlier.1
  · exact Nat.le_antisymm (same ▸ earlier.1) later.1

end UnlessReached

/-- Whether the innermost scope of two worlds is one and the same, and the scopes around it have not
changed. Scopes are told apart by the calls that opened them. -/
def SameScopes (before after : World) : Prop :=
  after.scope.call = before.scope.call ∧ after.callers = before.callers

/-- Whether two worlds have the same scopes, to the last name. -/
def EqualScopes (before after : World) : Prop :=
  after.scope = before.scope ∧ after.callers = before.callers

/-- A run in a scope of its own leads back to the scopes around it, to the last name. -/
theorem scopes_inScope {α : Type} (scope : Scope Value Routine) {action : Run α}
    (keeps : action.Keeps (UnlessReached SameScopes)) (world : World) :
    UnlessReached EqualScopes world (final (inScope scope action world)) := by
  obtain ⟨more, same⟩ := keeps (world.enter scope)
  rw [final_inScope, UnlessReached, World.reaches_leave]
  refine ⟨more, fun unreached => ?_⟩
  have around : (final (action (world.enter scope))).callers = world.scope :: world.callers :=
    (same unreached).2
  rw [World.leave, around]
  exact ⟨rfl, rfl⟩

/-- Programs of all settings keep the scopes. -/
theorem preserved_sameScopes (settings : Settings) :
    Preserved (UnlessReached SameScopes) settings where
  refl _ := .of_journal rfl ⟨rfl, rfl⟩
  trans earlier later :=
    earlier.trans later fun first second => ⟨second.1.trans first.1, second.2.trans first.2⟩
  inner _ _ := .of_journal rfl ⟨rfl, rfl⟩
  note world note := ⟨world.reaches_note note, fun _ => ⟨rfl, rfl⟩⟩
  inward world reach _ := by
    have more := world.reaches_reached reach
    exact ⟨Nat.le_of_lt more, fun same => absurd same (Nat.ne_of_gt more)⟩
  inScope scope _ keeps world := by
    obtain ⟨more, same⟩ := scopes_inScope scope keeps world
    exact ⟨more, fun unreached =>
      ⟨congrArg Scope.call (same unreached).1, (same unreached).2⟩⟩
  network _ _ _ _ := .of_journal rfl ⟨rfl, rfl⟩
  files _ _ _ := .of_journal rfl ⟨rfl, rfl⟩
  packages _ _ _ := .of_journal rfl ⟨rfl, rfl⟩
  sleep _ _ _ := .of_journal rfl ⟨rfl, rfl⟩
  time _ _ _ _ _ _ := .of_journal rfl ⟨rfl, rfl⟩
  timer _ _ _ _ _ _ := .of_journal rfl ⟨rfl, rfl⟩
  stopping _ _ _ _ := .of_journal rfl ⟨rfl, rfl⟩
  calendar _ _ _ _ _ := .of_journal rfl ⟨rfl, rfl⟩
  screen _ _ _ := .of_journal rfl ⟨rfl, rfl⟩
  server _ _ _ := .of_journal rfl ⟨rfl, rfl⟩
  answer _ _ _ := .of_journal rfl ⟨rfl, rfl⟩

/-- The body of a function, run in the scope of a call, leaves the scope of the caller as it found
it, whatever the body does and whatever way it ends. -/
theorem final_body (settings : Settings) (depth : Nat) (scope : Scope Value Routine) (block : Block)
    (world : World) : UnlessReached EqualScopes world (final (inScope scope
      (givenBack ((Engine.ofDepth settings depth).runBlock block)) world)) := by
  have law := (preserved_sameScopes settings).congruence
  have body : ((Engine.ofDepth settings depth).runBlock block).Keeps (UnlessReached SameScopes) :=
    law.runBlock (law.ofDepth depth) block
  exact scopes_inScope scope (keeps_of_final body (final_handled handles_givenBack)) world

end Parlance
