import Parlance.Proofs.Journal

/-!
How pieces of programs end: with a result or in a way that is their own. Reading a text ends with the
program that it is, or because it cannot be cut, has an error in its grammar or is read without end.
-/

namespace Parlance

open Run

variable {α β : Type}

/-! ### Ends of single meanings -/

namespace Run

/-- Whether a run ends in every world with a result, or in another way that can be its own. -/
def EndsPlainly (action : Run α) : Prop := ∀ world, endsPlainly (action world) = true

variable {action : Run α}

theorem IsPlain.endsPlainly (isPlain : action.IsPlain) : action.EndsPlainly := by
  intro world
  obtain ⟨step, ends, steps⟩ := isPlain
  rw [steps, endsPlainly_mapState]
  exact ends _ _

theorem endsPlainly_look (view : World → α) : (look view).EndsPlainly := fun _ => rfl

theorem endsPlainly_modify (change : World → World) : (modify change : Run Unit).EndsPlainly :=
  fun _ => rfl

theorem endsPlainly_schedule (change : Float → Scheduler → Scheduler) (told : String) :
    (schedule change told).EndsPlainly := by
  intro world
  rw [schedule]
  split <;> rfl

variable (schedule : String) (canvas : Value)

theorem endsPlainly_scheduleByCalendar (block : Block) :
    (scheduleByCalendar schedule block).EndsPlainly := by
  intro world
  rw [scheduleByCalendar]
  split
  · rfl
  · rename_i scheduler _
    split
    · rfl
    · rename_i cause _
      exact cause.isPlain_fault

theorem endsPlainly_keepForClicks (block : Block) : (keepForClicks canvas block).EndsPlainly := by
  intro world
  rw [keepForClicks]
  split <;> rfl

end Run

/-- Whether two worlds have the same scopes, screen, scheduler and journal. -/
structure World.SameInside (before after : World) : Prop where
  scopes : after.scopes = before.scopes
  screen : after.screen = before.screen
  scheduler : after.scheduler = before.scheduler
  journal : after.journal = before.journal

/-! ### Programs and errors in texts -/

/-- The program that a text is, if it is one. -/
def program? (source : String) : Option (List Stmt) :=
  (tokens source).toOption.bind fun found => (parse found).toOption

variable {source : String} {program : List Stmt} {world after : World}

/-- A text is a program if it can be cut into tokens that can be read. -/
theorem program?_eq_some :
    program? source = some program ↔
      ∃ found, tokens source = .ok found ∧ parse found = .ok program := by
  rw [program?]
  cases tokens source with
  | error failure => simp [Except.toOption]
  | ok found => cases parsed : parse found <;> simp [Except.toOption, parsed]

/-- What is read from a text is read from its tokens. -/
theorem Run.exists_tokens {α : Type} {reader : List Token → Except ParseFailure α} {value : α}
    (read : (Run.tokensOf source >>= fun found => Run.ofParse (reader found)) world =
      .ok value after) : ∃ found, tokens source = .ok found ∧ reader found = .ok value := by
  rw [Run.tokensOf] at read
  generalize tokens source = result at read ⊢
  cases result with
  | error failure => cases read
  | ok found =>
    change Run.ofParse (reader found) world = _ at read
    refine ⟨found, rfl, ?_⟩
    generalize reader found = parsed at read ⊢
    cases parsed with
    | error failure => cases failure <;> cases read
    | ok result =>
      cases read
      rfl

theorem Run.program?_of_program (read : Run.program source world = .ok program after) :
    program? source = some program :=
  program?_eq_some.mpr (Run.exists_tokens read)

theorem Run.program_eq_pure (found : program? source = some program) :
    Run.program source = pure program := by
  obtain ⟨tokens, cut, parsed⟩ := program?_eq_some.mp found
  rw [Run.program, Run.tokensOf, cut]
  show Run.ofParse (parse tokens) = pure program
  rw [parsed]
  rfl

/-- The error in the grammar of a text. A text without tokens has none, and neither has one that
cannot be read to its end. -/
def grammarError? (source : String) : Option ParseError :=
  match tokens source with
  | .error _ => none
  | .ok found =>
    match parse found with
    | .error (.error cause) => some cause
    | _ => none

/-- How reading a program fails. Nothing is done on the way. -/
theorem Run.exit_of_program {exit : Exit} (failed : Run.program source world = .error exit after) :
    after = world ∧ (exit = .stalled ∨ (∃ failure, exit = .fault (.unreadable failure)) ∨
      ∃ cause, exit = .fault (.malformed cause) ∧ grammarError? source = some cause) := by
  rw [Run.program, Run.tokensOf] at failed
  rw [grammarError?]
  generalize tokens source = result at failed ⊢
  cases result with
  | error failure =>
    cases failed
    exact ⟨rfl, .inr (.inl ⟨failure, rfl⟩)⟩
  | ok found =>
    change Run.ofParse (parse found) world = _ at failed
    dsimp only
    cases parsed : parse found with
    | ok statements =>
      rw [parsed] at failed
      cases failed
    | error failure =>
      rw [parsed] at failed
      cases failure with
      | stalled =>
        cases failed
        exact ⟨rfl, .inl rfl⟩
      | error cause =>
        cases failed
        exact ⟨rfl, .inr (.inr ⟨cause, rfl, rfl⟩)⟩

namespace Run

variable {action : Run α} {exit : Exit}

theorem error_of_inEdition {edition : Edition}
    (ended : inEdition edition action world = .error exit after) :
    ∃ left, action { world with edition } = .error exit left ∧
      after = { left with edition := world.edition } := by
  rw [inEdition] at ended
  split at ended
  · cases ended
  · rename_i left begun
    cases ended
    exact ⟨left, begun, rfl⟩

theorem error_of_inScope {scope : Scope Value Routine}
    (ended : inScope scope action world = .error exit after) :
    ∃ left, action (world.enter scope) = .error exit left ∧ after = left.leave := by
  rw [inScope] at ended
  split at ended
  · cases ended
  · rename_i left begun
    cases ended
    exact ⟨left, begun, rfl⟩

end Run

end Parlance
