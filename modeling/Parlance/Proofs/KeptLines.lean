import Parlance.CommandLine.Conversation
import Parlance.Proofs.Disciplines

/-!
Lines that a conversation keeps. A line that cannot be read yet is kept together with the lines
before it, and nothing is run then.
-/

namespace Parlance

/-! ### Packages that are to blame -/

/-- Whether a package that is run on the way from one world to another has the error, and packages
are allowed. -/
def Blamed (settings : Settings) (cause : ParseError) (before after : World) : Prop :=
  settings.Allow .packages ∧ ∃ notes, Noted notes before after ∧
    ∃ source, .package source ∈ notes ∧ grammarError? source = some cause

/-- No run ends with an error in the grammar of a text, unless a package has it. -/
def blamingPackages (settings : Settings) (cause : ParseError) : Discipline settings :=
  .ofExits (fun exit => exit ≠ .fault (.malformed cause))
    (fun note => settings.Allow .packages → ∀ source, note = .package source →
      grammarError? source ≠ some cause)
    (by rintro _ isPlain rfl; cases isPlain) (by rintro _ ⟨⟩) (by rintro _ _ ⟨⟩)
    (by rintro _ _ ⟨⟩)
    fun allowed relied failed => by
      obtain ⟨_, rfl | ⟨_, rfl⟩ | ⟨_, rfl, found⟩⟩ := Run.exit_of_program failed <;> rintro ⟨⟩
      exact relied allowed _ rfl found

/-- If a program that has been read ends with an error in the grammar of a text, then it has begun
to run a package, and the text of the package has the error. -/
theorem blamed_of_runProgram {settings : Settings} {depth : Nat} {program : List Stmt}
    {cause : ParseError} {world after : World}
    (failed : (Engine.ofDepth settings depth).runProgram program world =
      .error (.fault (.malformed cause)) after) : Blamed settings cause world after := by
  let rules := blamingPackages settings cause
  have accepted : ∀ statement ∈ program, rules.accepts .outside statement := fun _ _ => trivial
  have held : rules.Holds world := Discipline.holds_of_forall (fun _ => trivial) fun _ => trivial
  obtain ⟨notes, noted, ends⟩ :=
    ((obeys_ofDepth rules depth).runProgram accepted).exists_ends held
  by_contra blameless
  refine (ends fun note member allowed source same found => blameless ?_).permitted failed rfl
  rw [failed] at noted
  exact ⟨allowed, notes, noted, source, same ▸ member, found⟩

end Parlance

namespace Parlance.CommandLine

open Engine Run

variable {settings : Settings}

/-! ### Running a text -/

variable {source line : String} {cause : ParseError} {before after : World}
  {lines others kept : List String} (engine : Engine)

theorem runSource_of_grammarError? (found : grammarError? source = some cause) (world : World) :
    engine.runSource source world = .error (.fault (.malformed cause)) world := by
  refine bind_error ?_
  rw [program, tokensOf]
  rw [grammarError?] at found
  cases scanned : tokens source with
  | error failure =>
    rw [scanned] at found
    cases found
  | ok tokens =>
    rw [scanned] at found
    show ofParse (parse tokens) world = _
    dsimp only at found
    split at found
    · rename_i parsed
      cases found
      rw [parsed]
      rfl
    · cases found

/-- Running a text ends with an error in the grammar of a text in two ways: the text has the error
and nothing is run, or the text is a program and a package is to blame. -/
theorem malformed_of_runSource (failed : (standard settings).runSource source before =
      .error (.fault (.malformed cause)) after) :
    grammarError? source = some cause ∧ after = before ∨
      (program? source).isSome = true ∧ Blamed settings cause before after := by
  cases read : program source before with
  | error exit between =>
    rw [runSource, bind_error read] at failed
    cases failed
    obtain ⟨same, ended | ⟨_, ended⟩ | ⟨_, ended, found⟩⟩ := exit_of_program read <;> cases ended
    exact .inl ⟨found, same⟩
  | ok program between =>
    rw [runSource, bind_ok read] at failed
    have found := program?_of_program read
    have same := final_program source before
    rw [read] at same
    cases same
    refine .inr ⟨?_, blamed_of_runProgram failed⟩
    rw [found]
    rfl

/-! ### Taking lines -/

theorem runLines_of_malformed
    (failed : (standard settings).runSource ("\n".intercalate lines) before =
      .error (.fault (.malformed cause)) after) :
    runLines settings lines before = .ok lines after := by
  have attempted : attempt ((standard settings).runSource ("\n".intercalate lines))
      before = .ok (.error (.fault (.malformed cause))) after := by
    rw [attempt, failed]
  exact bind_ok attempted

/-- Lines are kept only if running them ends with an error in the grammar of a text. -/
theorem malformed_of_runLines (runs : runLines settings lines before = .ok others after)
    (keeps : others ≠ []) :
    others = lines ∧ ∃ cause, (standard settings).runSource ("\n".intercalate lines) before =
      .error (.fault (.malformed cause)) after := by
  -- after any other exit the lines are given up
  have told {exit : Exit} {between : World} {found : List String} (told : (do
      diagnose ("Error: " ++ (← exitText exit) ++ "\n")
      return [] : Run (List String)) between = .ok found after) : found = [] := by
    cases worded : exitText exit between with
    | ok text left =>
      rw [bind_ok worded] at told
      cases told
      rfl
    | error cause left =>
      rw [bind_error worded] at told
      cases told
  rw [runLines] at runs
  cases ended : (standard settings).runSource ("\n".intercalate lines) before with
  | ok value between =>
    have attempted : attempt ((standard settings).runSource ("\n".intercalate lines))
        before = .ok (.ok value) between := by
      rw [attempt, ended]
    rw [bind_ok attempted] at runs
    cases runs
    exact absurd rfl keeps
  | error exit between =>
    have attempted : attempt ((standard settings).runSource ("\n".intercalate lines))
        before = .ok (.error exit) between := by
      rw [attempt, ended]
    rw [bind_ok attempted] at runs
    generalize raised : (.error exit : Except Exit Unit) = result at runs
    split at runs
    · cases runs
      exact absurd rfl keeps
    · cases raised
      cases runs
      exact ⟨rfl, _, rfl⟩
    · split at runs
      · cases runs
      · exact absurd (told runs) keeps

theorem runLines_of_take (takes : take settings kept (some line) before = .ok (some others) after)
    (keeps : others ≠ []) : runLines settings (kept ++ [line]) before = .ok others after := by
  rw [take] at takes
  split at takes
  · cases takes
    exact absurd rfl keeps
  · split at takes
    · cases takes
    · cases ran : runLines settings (kept ++ [line]) before with
      | ok lines between =>
        rw [bind_ok ran] at takes
        cases takes
        rfl
      | error exit between =>
        rw [bind_error ran] at takes
        cases takes

/-- Lines with an error in their grammar are kept, and nothing is run. -/
theorem take_of_malformed (goesOn : line ≠ breakLine ∧ Text.strip line ≠ "exit")
    (failed : (standard settings).runSource ("\n".intercalate (kept ++ [line])) before =
      .error (.fault (.malformed cause)) after) :
    take settings kept (some line) before = .ok (some (kept ++ [line])) after := by
  rw [take, if_neg goesOn.1, if_neg goesOn.2]
  exact bind_ok (runLines_of_malformed failed)

/-- If a conversation keeps lines, then they have an error in their grammar and nothing has been
done; or they are a program that has run a package with such an error. Where a call is made that is
not described, no lines are kept. -/
theorem kept_lines_change_nothing_unless_blamed {kept others : List String} {line : String}
    {before after : World} (takes : take settings kept (some line) before = .ok (some others) after)
    (keeps : others ≠ []) :
    others = kept ++ [line] ∧ ∃ cause,
      (grammarError? ("\n".intercalate others) = some cause ∧ after = before ∨
        (program? ("\n".intercalate others)).isSome = true ∧
          Blamed settings cause before after) := by
  obtain ⟨rfl, cause, failed⟩ := malformed_of_runLines (runLines_of_take takes keeps) keeps
  exact ⟨rfl, cause, malformed_of_runSource failed⟩

/-- Two lines are kept, and nothing is done, because the block that they begin has no end yet. -/
theorem kept_lines_change_nothing_unless_blamed_in_a_block :
    let settings : Settings := { permissions := .default }
    let before := beginning .bare [] 0
    let lines := ["if yes then", "say \"a\""]
    take settings ["if yes then"] (some "say \"a\"") before = .ok (some lines) before ∧
      lines ≠ [] ∧ lines = ["if yes then"] ++ ["say \"a\""] ∧ ∃ cause,
        (grammarError? ("\n".intercalate lines) = some cause ∧ before = before ∨
          (program? ("\n".intercalate lines)).isSome = true ∧
            Blamed settings cause before before) := by
  intro settings before lines
  have unfinished : (grammarError? ("\n".intercalate lines)).isSome = true := by decide +kernel
  obtain ⟨cause, found⟩ := Option.isSome_iff_exists.mp unfinished
  have goesOn : "say \"a\"" ≠ breakLine ∧ Text.strip "say \"a\"" ≠ "exit" := by decide +kernel
  have takes : take settings ["if yes then"] (some "say \"a\"") before = .ok (some lines) before :=
    take_of_malformed goesOn (runSource_of_grammarError? _ found before)
  exact ⟨takes, List.cons_ne_nil _ _,
    kept_lines_change_nothing_unless_blamed takes (List.cons_ne_nil _ _)⟩

/-- A line can be kept after it has been run: what it has written stands before the package that
cannot be read. -/
theorem kept_line_has_been_run :
    let settings : Settings := { permissions := .default }
    let files : FileTree :=
      ⟨[(["library"], .directory), (["library", "time.gopa"], .file Bundle.time)], ["work"],
        ["home"], ["library"]⟩
    let before := beginning files [] 0
    let line := "say \"a\" use \"time\""
    before.written = [] ∧ ∃ after, take settings [] (some line) before = .ok (some [line]) after ∧
      after.written = [(.output, "a\n")] := by
  intro settings files before line
  have facts : (take settings [] (some line)).run' before = some (some [line]) ∧
      (final (take settings [] (some line) before)).written = [(.output, "a\n")] := by
    decide +kernel
  obtain ⟨done, written⟩ := facts
  obtain ⟨after, ended⟩ := ok_of_run' done
  rw [ended, final_ok] at written
  exact ⟨rfl, after, ended, written⟩

end Parlance.CommandLine
