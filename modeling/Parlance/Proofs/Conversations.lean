import Parlance.Proofs.Installing
import Parlance.Proofs.JoinedLines
import Parlance.Proofs.KeptLines
import Parlance.Proofs.Manifests
import Parlance.Proofs.Unread

/-!
Conversations and files. If lines that can be read by themselves are entered, none of them fails and
none asks a question, then the conversation leaves what the file leaves that holds the same lines; and
it writes the same, apart from what it begins with and from what asks for the lines.
-/

namespace Parlance

open Engine Run List

/-- Programs that follow one another are run one after another. -/
theorem Engine.runProgram_append (engine : Engine) (first second : List Stmt) :
    engine.runProgram (first ++ second) =
      (engine.runProgram first >>= fun _ => engine.runProgram second) := by
  induction first with
  | nil => exact (pure_bind () fun _ => engine.runProgram second).symm
  | cons statement rest ih =>
    simp only [cons_append, runProgram, ih, bind_assoc]

namespace CommandLine

variable {settings : Settings}

/-! ### Lines that are entered -/

/-- Whether a line can be entered and read by itself, and does not end the conversation. -/
structure IsEntry (line : String) : Prop extends IsComplete line where
  unbroken : '\r' ∉ line.toList
  stays : line ≠ breakLine ∧ Text.strip line ≠ "exit"

instance (line : String) : Decidable (IsEntry line) :=
  decidable_of_iff (IsComplete line ∧ '\r' ∉ line.toList ∧ line ≠ breakLine ∧
      Text.strip line ≠ "exit")
    ⟨fun all => ⟨all.1, all.2.1, all.2.2⟩,
      fun entry => ⟨entry.toIsComplete, entry.unbroken, entry.stays⟩⟩

def typed (lines : List String) : List Char := lines.flatMap fun line => line.toList ++ ['\n']

def afterLine (input : List Char) : List Char :=
  input.drop ((input.takeWhile (· ≠ '\n')).length + 1)

/-- Whether a conversation is over where this is left of the input: there is no line any more, or
the next one asks for the end. -/
def isOver (input : List Char) : Bool :=
  input.isEmpty || Text.strip (String.ofList (input.takeWhile (· ≠ '\n'))) = "exit"

/-- What has been written, latest first, after lines that were asked for and have written pieces,
the last line first. -/
def prompted : List (List (Channel × String)) → List (Channel × String)
  | [] => []
  | piece :: earlier => piece ++ (.output, promptFor []) :: prompted earlier

theorem prompted_append (pieces others : List (List (Channel × String))) :
    prompted (pieces ++ others) = prompted pieces ++ prompted others := by
  induction pieces with
  | nil => rfl
  | cons piece rest ih =>
    rw [cons_append, prompted, prompted, ih, append_assoc]
    rfl

theorem length_le_length_typed (lines : List String) : lines.length ≤ (typed lines).length := by
  induction lines with
  | nil => exact Nat.le_refl 0
  | cons line rest ih =>
    rw [typed, flatMap_cons, ← typed]
    simp only [length_append, length_cons, length_nil]
    omega

variable {line : String} {rest : List Char} {world after : World} {program : List Stmt}
  {lines : List String}

theorem nextLine_typed (oneLine : '\n' ∉ line.toList)
    (input : world.input = line.toList ++ '\n' :: rest) :
    nextLine world = .ok (some line) { world with input := rest } := by
  have whole : (line.toList ++ '\n' :: rest).takeWhile (· ≠ '\n') = line.toList := by
    rw [Lexer.takeWhile_append_newline (by decide), takeWhile_eq_self_iff]
    intro c member
    exact decide_eq_true fun newline => oneLine (newline ▸ member)
  have present : (line.toList ++ '\n' :: rest).isEmpty = false := by simp
  have left : (line.toList ++ '\n' :: rest).drop (line.toList.length + 1) = rest := by
    rw [drop_append, Nat.add_sub_cancel_left]
    simp
  rw [nextLine, input, present, whole]
  simp only [Bool.false_eq_true, if_false, left, String.ofList_toList]

/-! ### Rounds of a conversation -/

/-- A line that runs without a fault is not kept. -/
theorem runLines_of_ok (read : program? line = some program)
    (runs : (standard settings).runProgram program world = .ok () after) :
    runLines settings [line] world = .ok [] after := by
  have source : (standard settings).runSource ("\n".intercalate [line]) world =
      .ok () after := by
    rw [String.intercalate_singleton, runSource, program_eq_pure read]
    exact (bind_ok rfl).trans runs
  have attempted : Run.attempt ((standard settings).runSource ("\n".intercalate [line]))
      world = .ok (.ok ()) after := by
    rw [Run.attempt, source]
  exact bind_ok attempted

/-- One round: the line that has been typed is asked for and run, once. -/
theorem converse_entry (entry : IsEntry line) (read : program? line = some program)
    (input : world.input = line.toList ++ '\n' :: rest)
    (runs : (standard settings).runProgram program
      ({ world with input := rest }.write .output (promptFor [])) = .ok () after) (rounds : Nat) :
    converse settings (rounds + 1) [] world = converse settings rounds [] after := by
  have asked : nextLine (world.write .output (promptFor [])) =
      .ok (some line) ({ world with input := rest }.write .output (promptFor [])) :=
    nextLine_typed entry.oneLine input
  have taken : take settings [] (some line)
      ({ world with input := rest }.write .output (promptFor [])) = .ok (some []) after := by
    rw [take, if_neg entry.stays.1, if_neg entry.stays.2]
    exact bind_ok (runLines_of_ok read runs)
  rw [converse]
  exact (bind_ok (rfl : Run.write (promptFor []) world = .ok () _)).trans
    ((bind_ok asked).trans (bind_ok taken))

/-- The last round: no line follows, or one that asks for the end. -/
theorem converse_over (finished : isOver world.input = true) (rounds : Nat) :
    converse settings (rounds + 1) [] world = .ok (.status 0)
      { world.write .output (promptFor []) with input := afterLine world.input } := by
  rw [converse]
  refine (bind_ok (rfl : Run.write (promptFor []) world = .ok () _)).trans ?_
  let told := world.write .output (promptFor [])
  cases empty : world.input.isEmpty with
  | true =>
    have nothing : world.input = [] := isEmpty_iff.mp empty
    have asked : nextLine told = .ok none told := by
      rw [nextLine, show told.input = [] from nothing]
      rfl
    refine (bind_ok asked).trans ?_
    rw [nothing]
    exact congrArg (fun input => EStateM.Result.ok (Ending.status 0) { told with input }) nothing
  | false =>
    let line := String.ofList (world.input.takeWhile (· ≠ '\n'))
    have leaves : Text.strip line = "exit" := by
      rw [isOver, empty, Bool.false_or] at finished
      exact of_decide_eq_true finished
    have asked : nextLine told = .ok (some line) { told with input := afterLine world.input } := by
      rw [nextLine, show told.input.isEmpty = false from empty]
      rfl
    have goesOn : line ≠ breakLine := by
      intro breaks
      rw [breaks] at leaves
      exact absurd leaves (by decide +kernel)
    refine (bind_ok asked).trans ?_
    rw [take, if_neg goesOn, if_pos leaves]
    rfl

/-- All rounds: the lines are run one after another, and what they write follows what asks for
them. -/
theorem converse_typed (entries : ∀ line ∈ lines, IsEntry line)
    (runs : (standard settings).runProgram (statementsOf lines) world = .ok () after)
    (unread : ((standard settings).runProgram (statementsOf lines)).Unread world) :
    ∃ pieces, pieces.length = lines.length ∧ after.written = pieces.flatten ++ world.written ∧
      ∀ written rest rounds, converse settings (rounds + lines.length) []
          { world with written, input := typed lines ++ rest } =
        converse settings rounds []
          { after with written := prompted pieces ++ written, input := rest } := by
  induction lines generalizing world with
  | nil =>
    cases runs
    exact ⟨[], rfl, rfl, fun _ _ _ => rfl⟩
  | cons line lines ih =>
    obtain ⟨entry, others⟩ := forall_mem_cons.mp entries
    obtain ⟨program, read⟩ := Option.isSome_iff_exists.mp entry.readable
    have together : statementsOf (line :: lines) = program ++ statementsOf lines := by
      rw [statementsOf, flatMap_cons, read, Option.getD_some]
      rfl
    have framed := isFramed_standard settings
    rw [together, runProgram_append] at runs unread
    cases ended : (standard settings).runProgram program world with
    | error exit between => cases (bind_error ended).symm.trans runs
    | ok value between =>
      obtain ⟨unreadFirst, unreadLater⟩ :=
        unread.both (framed program) (framed (statementsOf lines)) ended
      obtain ⟨piece, writtenFirst, moved⟩ := (framed program).moved ended unreadFirst
      obtain ⟨pieces, size, writtenLater, later⟩ :=
        ih others ((bind_ok ended).symm.trans runs) unreadLater
      refine ⟨pieces ++ [piece], ?_, ?_, fun written rest rounds => ?_⟩
      · rw [length_append, size]
        rfl
      · rw [writtenLater, writtenFirst, flatten_append, flatten_singleton, append_assoc]
      · have input : typed (line :: lines) ++ rest =
            line.toList ++ '\n' :: (typed lines ++ rest) := by
          rw [typed, flatMap_cons, ← typed, append_assoc, append_assoc]
          rfl
        have last : prompted [piece] ++ written = piece ++ (.output, promptFor []) :: written := by
          rw [prompted, prompted, append_assoc]
          rfl
        rw [input, prompted_append, append_assoc, last]
        refine (converse_entry entry read rfl
          (moved ((.output, promptFor []) :: written) (typed lines ++ rest)) _).trans ?_
        exact later (piece ++ (.output, promptFor []) :: written) rest rounds

/-! ### Running a file -/

/-- Lines without line ends of either kind, put together, are read from a file as they are. -/
theorem unbroken_joined (entries : ∀ line ∈ lines, IsEntry line) :
    '\r' ∉ ("\n".intercalate lines).toList := by
  induction lines with
  | nil => decide
  | cons line rest ih =>
    obtain ⟨entry, others⟩ := forall_mem_cons.mp entries
    cases rest with
    | nil =>
      rw [String.intercalate_singleton]
      exact entry.unbroken
    | cons next rest =>
      rw [String.intercalate_cons_cons, String.toList_append, String.toList_append,
        mem_append, mem_append, not_or, not_or]
      exact ⟨⟨entry.unbroken, by decide⟩, ih others⟩

theorem readPath_joined {files : FileTree} {path : Path} {location : List String}
    (entries : ∀ line ∈ lines, IsEntry line) (found : files.locate path = .ok location)
    (stored : files.entry? location = some (.file ("\n".intercalate lines))) :
    files.readPath path = .ok ("\n".intercalate lines) := by
  rw [FileTree.readPath, found]
  dsimp only
  rw [FileTree.readAt, stored]
  dsimp only
  rw [Text.universalNewlines_of_notMem (unbroken_joined entries), String.ofList_toList]

/-- A file that can be read and runs without a fault ends the command with success. -/
theorem runFile_of_ok {name source : String}
    (stored : world.files.readPath (Path.ofText name) = .ok source)
    (read : program? source = some program)
    (runs : (standard settings).runProgram program world = .ok () after) (forever : Bool) :
    runFile settings forever name world = .ok (if forever then none else some 0) after := by
  have there : Run.fromFiles (fun files => files.has (Path.ofText name)) world = .ok true world := by
    rw [Run.fromFiles, look_bind, FileTree.has_of_readPath stored]
    rfl
  have opened : Run.fromFiles (fun files => files.readPath (Path.ofText name)) world =
      .ok source world := by
    rw [Run.fromFiles, look_bind, stored]
    rfl
  have parsed : Run.attempt (Run.program source) world = .ok (.ok program) world := by
    rw [program_eq_pure read]
    rfl
  have attempted : Run.attempt ((standard settings).runProgram program) world =
      .ok (.ok ()) after := by
    rw [Run.attempt, runs]
  exact (bind_ok there).trans ((bind_ok opened).trans ((bind_ok parsed).trans (bind_ok attempted)))

/-- A conversation and a file agree. Take lines that can be entered and read by themselves, and a
file that holds them with line ends between them. If their statements run from the beginning without an
exit, and without reading any of an input that is there, then running the file succeeds whatever
there is to be read, and a conversation in which the lines are entered ends with success, too. Both
leave the same world, apart from what is left of the input and from what is written; and what the
conversation has written are the same pieces, each after what asks for its line, between what a
conversation begins with and what asks for the line that does not come. -/
theorem conversation_agrees_with_file (settings : Settings) (files : FileTree) (clock : Float)
    (name : String) (location : List String) (lines : List String)
    (entries : ∀ line ∈ lines, IsEntry line)
    (found : files.locate (Path.ofText name) = .ok location)
    (stored : files.entry? location = some (.file ("\n".intercalate lines)))
    (input : List Char) (after : World)
    (runs : (standard settings).runProgram (statementsOf lines)
      (beginning files input clock) = .ok () after)
    (unread : input ≠ [] ∧ after.input = input)
    (rest : List Char) (finished : isOver rest = true) :
    (∀ forever other, runFile settings forever name (beginning files other clock) =
      .ok (if forever then none else some 0) { after with input := other }) ∧
    ∃ pieces, pieces.length = lines.length ∧ after.written = pieces.flatten ∧
      conversation settings (beginning files (typed lines ++ rest) clock) = .ok (.status 0)
        { after with
          input := afterLine rest
          written := (.output, promptFor []) :: (prompted pieces ++ [(.output, banner)]) } := by
  have readNothing : ((standard settings).runProgram (statementsOf lines)).Unread
      (beginning files input clock) := by
    refine ⟨unread.1, ?_⟩
    rw [runs]
    exact unread.2
  have complete : ∀ line ∈ lines, IsComplete line := fun line member =>
    (entries line member).toIsComplete
  have read := program?_joined complete
  constructor
  · intro forever other
    obtain ⟨piece, written, moved⟩ := (isFramed_standard settings _).moved runs readNothing
    have same := moved [] other
    rw [show piece ++ [] = after.written from written.symm] at same
    exact runFile_of_ok (readPath_joined entries found stored) read same forever
  · obtain ⟨pieces, size, written, goes⟩ := converse_typed entries runs readNothing
    refine ⟨pieces, size, written.trans (append_nil _), ?_⟩
    -- more rounds are allowed than there are lines, because each line takes a character
    obtain ⟨spare, rounds⟩ : ∃ spare, (typed lines ++ rest).length + 1 = spare + 1 + lines.length := by
      have enough := length_le_length_typed lines
      refine ⟨(typed lines ++ rest).length - lines.length, ?_⟩
      rw [length_append]
      omega
    show converse settings ((typed lines ++ rest).length + 1) [] { beginning files input clock with
        written := [(.output, banner)], input := typed lines ++ rest } = _
    rw [rounds, goes]
    exact converse_over finished spare

/-- Lines that define a function, keep a block for later and repeat something, with an empty one
between them, after which the user asks for the end. -/
theorem conversation_agrees_with_file_about_blocks :
    let settings : Settings := { permissions := ⟨fun _ => true⟩ }
    let lines := ["n is 2", "define grow with m return m plus 1 end", "",
      "after n seconds do say \"late\" end", "repeat 2 times n is n times 3 say n end # twice"]
    let files : FileTree :=
      ⟨[(["work"], .directory), (["work", "a.gopa"], .file ("\n".intercalate lines))], ["work"],
        ["home"], ["library"]⟩
    let input := ['y', '\n']
    let rest := ['e', 'x', 'i', 't']
    ∃ after, (standard settings).runProgram (statementsOf lines) (beginning files input 0) =
        .ok () after ∧ after.written = [(.output, "18\n"), (.output, "6\n")] ∧
      (∀ line ∈ lines, IsEntry line) ∧
      files.locate (Path.ofText "a.gopa") = .ok ["work", "a.gopa"] ∧
      files.entry? ["work", "a.gopa"] = some (.file ("\n".intercalate lines)) ∧
      (input ≠ [] ∧ after.input = input) ∧ isOver rest = true ∧
      (∀ forever other, runFile settings forever "a.gopa" (beginning files other 0) =
        .ok (if forever then none else some 0) { after with input := other }) ∧
      ∃ pieces, pieces.length = lines.length ∧ after.written = pieces.flatten ∧
        conversation settings (beginning files (typed lines ++ rest) 0) = .ok (.status 0)
          { after with
            input := afterLine rest
            written := (.output, promptFor []) :: (prompted pieces ++ [(.output, banner)]) } := by
  intro settings lines files input rest
  have entries : ∀ line ∈ lines, IsEntry line := by decide +kernel
  have found : files.locate (Path.ofText "a.gopa") = .ok ["work", "a.gopa"] :=
    FileChange.ok_of_toOption (by decide +kernel)
  have stored : files.entry? ["work", "a.gopa"] = some (.file ("\n".intercalate lines)) := by rfl
  have facts : ((standard settings).runProgram (statementsOf lines)).run'
        (beginning files input 0) = some () ∧
      (Run.final ((standard settings).runProgram (statementsOf lines)
        (beginning files input 0))).input = input ∧
      (Run.final ((standard settings).runProgram (statementsOf lines)
        (beginning files input 0))).written = [(.output, "18\n"), (.output, "6\n")] := by
    decide +kernel
  obtain ⟨done, left, written⟩ := facts
  obtain ⟨after, ended⟩ := ok_of_run' done
  rw [ended, final_ok] at left written
  have unread : input ≠ [] ∧ after.input = input := ⟨by decide, left⟩
  have finished : isOver rest = true := by decide +kernel
  exact ⟨after, ended, written, entries, found, stored, unread, finished,
    conversation_agrees_with_file settings files 0 "a.gopa" ["work", "a.gopa"] lines entries found
      stored input after ended unread rest finished⟩

/-- A line of a conversation takes the next one away before it is read, by a call outside the language
that reaches into the run; in a file the next line is run. -/
theorem line_is_taken_from_outside :
    let settings : Settings := { permissions := ⟨fun _ => true⟩ }
    let lines :=
      ["x is python call \"re.enum.bltns.eval\" with \"self.input_stream.readline()\"", "say 2"]
    let files : FileTree :=
      ⟨[(["work"], .directory), (["work", "a.gopa"], .file ("\n".intercalate lines))], ["work"],
        ["home"], ["library"]⟩
    (∀ line ∈ lines, IsEntry line) ∧
      (final (runFile settings false "a.gopa" (beginning files [] 0))).written =
        [(.output, "2\n")] ∧
      (final (conversation settings (beginning files (typed lines) 0))).written =
        [(.output, promptFor []), (.output, promptFor []), (.output, banner)] := by
  decide +kernel

end CommandLine

end Parlance
