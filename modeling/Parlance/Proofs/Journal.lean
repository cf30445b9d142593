import Parlance.Proofs.Keeping

/-!
The journal of a run. Nothing is ever taken out of it, whatever a program does, so that what a run
has noted is what stands in the journal before that which stood there when the run began.
-/

namespace Parlance

open List

def Grown (before after : World) : Prop := before.journal <:+ after.journal

variable {before after : World} {α : Type}

theorem Grown.reaches_le (grown : Grown before after) : before.reaches ≤ after.reaches :=
  grown.sublist.countP_le

theorem journal_leave (world : World) : world.leave.journal = world.journal := by
  rw [World.leave]
  split <;> rfl

theorem grown_inScope (scope : Scope Value Routine) {action : Run α} (keeps : action.Keeps Grown) :
    (Run.inScope scope action).Keeps Grown := by
  intro world
  rw [Grown, Run.final_inScope, journal_leave]
  exact keeps (world.enter scope)

theorem grown_inEdition (edition : Edition) {action : Run α} (keeps : action.Keeps Grown) :
    (Run.inEdition edition action).Keeps Grown := by
  intro world
  have inside := keeps { world with edition }
  rw [Grown, Run.inEdition]
  cases ended : action { world with edition } <;>
    · rw [ended] at inside
      exact inside

theorem grown_handled {holds : Prop} {called : Option String} {wrap : Run α → Run β}
    (handles : Run.Handles holds called wrap) (action : Run α) (world : World) :
    Grown (Run.final (action world)) (Run.final (wrap action world)) := by
  obtain ⟨notes, _, same⟩ := Run.exists_final_handled handles action world
  rw [same]
  exact suffix_append notes _

theorem grown_routine (name : String) : (Engine.routine name).Keeps Grown := by
  intro world
  rw [Engine.routine, Run.look_bind]
  cases Scope.function? world.scopes name <;> exact suffix_rfl

theorem grown_openScope (handing : Handing) : (Engine.openScope handing).Keeps Grown := by
  cases handing with
  | copies =>
    refine Run.keeps_bind (fun _ => suffix_rfl) (fun captures => ?_)
      fun _ _ _ => List.IsSuffix.trans
    cases captures with
    | true => exact fun _ => suffix_cons _ _
    | false => exact fun _ => suffix_rfl
  | nothing => exact fun _ => suffix_rfl

theorem preserved_grown (settings : Settings) : Preserved Grown settings where
  refl _ := suffix_rfl
  trans := List.IsSuffix.trans
  inner _ _ := suffix_rfl
  note _ note := suffix_cons note _
  inward _ _ _ := (suffix_cons _ _).trans (suffix_append _ _)
  inScope scope _ keeps := grown_inScope scope keeps
  network _ _ _ _ := suffix_rfl
  files _ _ _ := suffix_rfl
  packages _ _ _ := suffix_rfl
  sleep _ _ _ := suffix_rfl
  time _ _ _ _ _ _ := suffix_rfl
  timer _ _ _ _ _ _ := suffix_rfl
  stopping _ _ _ _ := suffix_rfl
  calendar _ _ _ _ _ := suffix_rfl
  screen _ _ _ := suffix_rfl
  server _ _ _ := suffix_rfl
  answer _ _ _ := suffix_rfl

/-- Whether these are the notes that have been made from one world to another, latest first. -/
def Noted (notes : List Note) (before after : World) : Prop :=
  after.journal = notes ++ before.journal

theorem Noted.eq {notes : List Note} (noted : Noted notes before after) (others : List Note)
    (made : after.journal = others ++ before.journal) : notes = others :=
  append_cancel_right (noted.symm.trans made)

/-- Where no note says that something has reached in, none has been made that says so. -/
theorem Noted.isInward_eq_false {notes : List Note} (noted : Noted notes before after)
    (unreached : after.reaches = before.reaches) : ∀ note ∈ notes, note.isInward = false := by
  rw [World.reaches, noted, countP_append, World.reaches] at unreached
  have none : notes.countP Note.isInward = 0 := Nat.add_eq_right.mp unreached
  exact fun note member => Bool.not_eq_true _ ▸ countP_eq_zero.mp none note member

theorem Grown.exists_noted (grown : Grown before after) : ∃ notes, Noted notes before after := by
  obtain ⟨notes, whole⟩ := grown
  exact ⟨notes, whole.symm⟩

/-- The notes of two runs in a row are those of the later one, and then those of the earlier one. -/
theorem Noted.split {notes : List Note} {between : World} (noted : Noted notes before after)
    (first : Grown before between) (second : Grown between after) :
    ∃ later earlier, Noted later between after ∧ Noted earlier before between ∧
      notes = later ++ earlier := by
  obtain ⟨earlier, early⟩ := first.exists_noted
  obtain ⟨later, late⟩ := second.exists_noted
  refine ⟨later, earlier, late, early, noted.eq _ ?_⟩
  rw [late, early, append_assoc]

end Parlance
