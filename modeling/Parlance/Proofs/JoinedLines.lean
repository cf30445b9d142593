import Parlance.Proofs.Endings
import Parlance.Proofs.LineTokens
import Parlance.Proofs.Lines

/-!
Texts of several lines. Where each of the lines can be read by itself, closes its strings and does
not end in `using`, the text with line ends between them is read as the statements of the lines, one
line after another.
-/

namespace Parlance

/-! ### Complete lines -/

/-- Whether the last token of a text before its end is `using`. -/
def endsInUsing (text : String) : Bool :=
  ((tokens text).toOption.bind fun found => found.dropLast.getLast?).any
    (Parse.isAmong [.usingWord])

/-- Whether a line is complete: it can be read by itself, and what follows it on other lines does
not matter to it. -/
structure IsComplete (line : String) : Prop where
  oneLine : '\n' ∉ line.toList
  readable : (program? line).isSome = true
  closes : Lexer.closesStrings line.toList = true
  last : endsInUsing line = false

instance (line : String) : Decidable (IsComplete line) :=
  decidable_of_iff ('\n' ∉ line.toList ∧ (program? line).isSome = true ∧
      Lexer.closesStrings line.toList = true ∧ endsInUsing line = false)
    ⟨fun all => ⟨all.1, all.2.1, all.2.2.1, all.2.2.2⟩,
      fun complete => ⟨complete.oneLine, complete.readable, complete.closes, complete.last⟩⟩

/-- The statements of lines that can be read by themselves. -/
def statementsOf (lines : List String) : List Stmt :=
  lines.flatMap fun line => (program? line).getD []

namespace Parse

/-- No program begins with `times`. -/
theorem head?_ne_times {tokens : List Token} {statements : List Stmt}
    (read : parse tokens = .ok statements) {sign : Symbol}
    (times : sign ∈ [Symbol.timesWord, .timesOperator]) :
    (afterNewlines tokens).head? ≠ some (.symbol sign) := by
  intro begins
  obtain ⟨values, last, lines, -⟩ := parse_eq_ok.mp read
  obtain ⟨rest, opened⟩ := List.head?_eq_some_iff.mp begins
  have stuck (nested : Parse (Option Stmt)) :
      statementOf nested (.symbol sign :: rest) = .ok (none, .symbol sign :: rest) := by
    rcases List.mem_pair.mp times with rfl | rfl <;> rfl
  have going : (Token.symbol sign :: rest).head?.any (isAmong [.endOfText]) = false := by
    rcases List.mem_pair.mp times with rfl | rfl <;> rfl
  rw [opened] at lines
  obtain ⟨value, between, others, item, -, -⟩ := (linesWithin_going going).mp lines
  obtain ⟨stays, moved⟩ := orStall_eq_ok.mp item
  rw [stuck] at stays
  cases stays
  exact moved rfl rfl

end Parse

/-- A text that can be read and does not end in `using` is a passage of tokens. -/
theorem exists_passage {text : String} {program : List Stmt} (read : program? text = some program)
    (last : endsInUsing text = false) :
    ∃ body, Lexer.tokensFrom [] text.toList = .ok (body ++ [.symbol .endOfText]) ∧ Passage body ∧
      parse (body ++ [.symbol .endOfText]) = .ok program := by
  obtain ⟨found, cut, parsed⟩ := program?_eq_some.mp read
  obtain ⟨body, rfl, hasNoEnd⟩ := @Lexer.exists_of_tokensFrom [] text.toList found cut
  rw [endsInUsing, cut] at last
  change (body ++ [Token.symbol .endOfText]).dropLast.getLast?.any _ = false at last
  rw [List.dropLast_concat] at last
  refine ⟨body, cut, ⟨hasNoEnd, fun ends => ?_⟩, parsed⟩
  rw [ends] at last
  cases last

/-- A complete line has tokens of its own and is read from them. -/
theorem IsComplete.exists_body {line : String} (complete : IsComplete line) :
    ∃ body program, program? line = some program ∧
      Lexer.tokensFrom [] line.toList = .ok (body ++ [.symbol .endOfText]) ∧ Passage body ∧
      parse (body ++ [.symbol .endOfText]) = .ok program := by
  obtain ⟨program, read⟩ := Option.isSome_iff_exists.mp complete.readable
  obtain ⟨body, cut, passage, parsed⟩ := exists_passage read complete.last
  exact ⟨body, program, read, cut, passage, parsed⟩

namespace Lexer

/-- A program has the same tokens at the beginning of a text and after a line end. -/
theorem tokensFrom_of_parse {text : String} {found : List Token} {program : List Stmt}
    (cut : tokensFrom [] text.toList = .ok found) (read : parse found = .ok program)
    {before : List Char} (fresh : ∀ c ∈ before.head?, c = '\n') :
    tokensFrom before text.toList = .ok found := by
  cases before with
  | nil => exact cut
  | cons c before =>
    obtain rfl := fresh c rfl
    exact tokensFrom_after_newline cut (.inr fun _ => Parse.head?_ne_times read) before

/-- Complete lines are cut into tokens that are read as their statements. -/
theorem tokensFrom_joined {line : String} {rest : List String}
    (complete : ∀ other ∈ line :: rest, IsComplete other) {before : List Char}
    (fresh : ∀ c ∈ before.head?, c = '\n') :
    ∃ body, tokensFrom before ("\n".intercalate (line :: rest)).toList =
        .ok (body ++ [.symbol .endOfText]) ∧
      parse (body ++ [.symbol .endOfText]) = .ok (statementsOf (line :: rest)) := by
  induction rest generalizing line before with
  | nil =>
    have here := complete line List.mem_cons_self
    obtain ⟨body, program, found, cut, -, read⟩ := here.exists_body
    have alone : statementsOf [line] = program := by
      rw [statementsOf, List.flatMap_singleton, found, Option.getD_some]
    rw [String.intercalate_singleton, alone]
    exact ⟨body, tokensFrom_of_parse cut read fresh, read⟩
  | cons next rest ih =>
    obtain ⟨here, later⟩ := List.forall_mem_cons.mp complete
    obtain ⟨body, program, found, cut, passage, read⟩ := here.exists_body
    obtain ⟨others, cutLater, readLater⟩ :=
      @ih next later ('\n' :: (line.toList.reverse ++ before))
        fun c same => (Option.some.inj same).symm
    have first := tokensFrom_of_parse cut read fresh
    refine ⟨body ++ .symbol .newline :: others, ?_, ?_⟩
    · have split : ("\n".intercalate (line :: next :: rest)).toList =
          line.toList ++ '\n' :: ("\n".intercalate (next :: rest)).toList := by
        rw [String.intercalate_cons_cons, String.toList_append, String.toList_append,
          List.append_assoc]
        rfl
      rw [split, tokensFrom_append_newline here.closes first, cutLater]
      exact congrArg Except.ok (List.append_assoc body (.symbol .newline :: others) _).symm
    · have together : statementsOf (line :: next :: rest) =
          program ++ statementsOf (next :: rest) := by
        rw [statementsOf, List.flatMap_cons, found, Option.getD_some]
        rfl
      obtain ⟨values, left, lines, rfl⟩ := Parse.parse_eq_ok.mp read
      obtain ⟨more, last, nextLines, same⟩ := Parse.parse_eq_ok.mp readLater
      rw [together, ← same, ← List.filterMap_append]
      exact Parse.parse_eq_ok.mpr ⟨values ++ more, last,
        Parse.linesWithin_append_newline passage lines nextLines, rfl⟩

end Lexer

/-- Complete lines with line ends between them are read as their statements. -/
theorem program?_joined {lines : List String} (complete : ∀ line ∈ lines, IsComplete line) :
    program? ("\n".intercalate lines) = some (statementsOf lines) := by
  cases lines with
  | nil =>
    rw [String.intercalate_nil]
    exact program?_eq_some.mpr ⟨_, Lexer.tokensFrom_nil [], rfl⟩
  | cons line rest =>
    obtain ⟨body, cut, read⟩ := @Lexer.tokensFrom_joined line rest complete [] nofun
    exact program?_eq_some.mpr ⟨_, cut, read⟩

end Parlance
