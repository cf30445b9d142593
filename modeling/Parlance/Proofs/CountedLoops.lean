import Parlance.Proofs.BlockRoundTrip
import Parlance.Proofs.JoinedLines
import Parlance.Proofs.Progress

/-!
Loops with a count. `times` is the word of a loop only where the text before it ends in a digit or
in `repeat`, apart from white space.
-/

namespace Parlance

open List Lexer

/-! ### Space between words -/

/-- Space between two words of a line. -/
structure Gap where
  chars : List Char
  wide : chars ≠ []
  blank : chars ⊆ [' ', '\t', '\r']

namespace Gap

def single : Gap := ⟨[' '], by decide, by decide⟩

variable (gap : Gap)

theorem ends (rest : List Char) : Ends (gap.chars ++ rest) := by
  obtain ⟨c, others, split⟩ := exists_cons_of_ne_nil gap.wide
  rw [split]
  rintro _ ⟨⟩
  exact gap.blank (split ▸ mem_cons_self)

theorem tokensFrom_chars (before rest : List Char) :
    tokensFrom before (gap.chars ++ rest) = tokensFrom (gap.chars.reverse ++ before) rest := by
  have blank := gap.blank
  generalize gap.chars = chars at blank ⊢
  induction chars generalizing before with
  | nil => rfl
  | cons c others ih =>
    obtain ⟨here, later⟩ := cons_subset.mp blank
    have hidden : [' ', '\t', '\r'].all (fun c => Text.isBlank c && c != '\n') = true := by decide
    obtain ⟨hidden, inLine⟩ := Bool.and_eq_true_iff.mp (all_eq_true.mp hidden c here)
    have skipped := piece_blank hidden (bne_iff_ne.mp inLine) before (others ++ rest)
    rw [cons_append, tokensFrom_skip skipped, ih _ later, reverse_cons, append_assoc]
    rfl

/-- No space before `times` makes a phrase of the name `divided`. -/
theorem take_chars_ne (rest : List Char) :
    Text.lowercaseChars (((gap.chars ++ 't' :: rest).drop 1).take 3) ≠ "by ".toList := by
  obtain ⟨chars, wide, blank⟩ := gap
  obtain ⟨c, others, rfl⟩ := exists_cons_of_ne_nil wide
  obtain ⟨first, more, split, among⟩ : ∃ first more, others ++ 't' :: rest = first :: more ∧
      first ∈ [' ', '\t', '\r', 't'] := by
    cases others with
    | nil => exact ⟨'t', rest, rfl, by decide⟩
    | cons next others =>
      have blank := blank (mem_cons_of_mem c mem_cons_self)
      exact ⟨next, _, rfl, mem_append_left ['t'] blank⟩
  have small : [' ', '\t', '\r', 't'].all (fun c => Text.smallForms c == [c] && c != 'b') = true :=
    by decide
  obtain ⟨small, other⟩ := Bool.and_eq_true_iff.mp (all_eq_true.mp small first among)
  rw [cons_append, drop_succ_cons, drop_zero, split]
  intro same
  have forms := (Text.map_plainSigma_lowercaseAfter [] ((first :: more).take 3)).symm.trans
    (congrArg (List.map Text.plainSigma) same)
  rw [take_succ_cons, flatMap_cons, beq_iff_eq.mp small] at forms
  exact bne_iff_ne.mp other (List.cons.inj forms).1

end Gap

/-! ### Counts -/

/-- Names that are no keywords. -/
structure Name where
  chars : List Char
  spelt : isWord chars = true
  free : Symbol.ofWord? (smallWord chars) = none

/-- Expressions between brackets, with texts that are cut into their tokens. -/
structure Position where
  chars : List Char
  printable : Printable
  cut (before rest : List Char) : tokensFrom ('[' :: before) (chars ++ ']' :: rest) =
      (tokensFrom (chars.reverse ++ '[' :: before) (']' :: rest)).map (printable.tokens ++ ·)

/-- A name between brackets. -/
def Position.ofName (name : Name) : Position where
  chars := name.chars
  printable := .identifier (smallWord name.chars)
  cut before rest := by
    have inLine : (']' :: rest).head? ≠ some '\n' :=
      fun same => absurd (Option.some.inj same) (by decide)
    exact tokensFrom_name name.spelt rfl name.free rfl inLine fun _ space =>
      absurd (Option.some.inj space) (by decide)

/-- Simple counts: operands, properties of names and what stands at an index in them. -/
inductive Count where
  | simple (operand : Operand)
  | property (owner name : Name)
  | index (owner : Name) (position : Position)

namespace Count

def chars : Count → List Char
  | .simple operand => operand.chars
  | .property owner name => owner.chars ++ '.' :: name.chars
  | .index owner position => owner.chars ++ '[' :: (position.chars ++ [']'])

def expression : Count → Expr
  | .simple operand => operand.expression
  | .property owner name => .property (.identifier (smallWord owner.chars)) (smallWord name.chars)
  | .index owner position => .index (.identifier (smallWord owner.chars)) position.printable.1

def fits : Count → Bool
  | .simple operand => operand.fits
  | .property _ _ | .index _ _ => true

variable (count : Count)

theorem isPrintable : Expr.IsPrintable .factor count.expression := by
  cases count with
  | simple operand =>
    cases operand with
    | name => exact .place (.identifier _)
    | numeral => exact .number _
  | property owner name => exact .place (.property _ (.identifier _))
  | index owner position => exact .place (.index (.identifier _) position.printable.2)

def printable (count : Count) : Printable := ⟨count.expression, .ofFactor count.isPrintable⟩

theorem tokensFrom_owner (owner : Name) (before : List Char) {mark : Char} {sign : Symbol}
    {rest : List Char} (apart : isWordPart mark = false ∧ mark ≠ '\n' ∧ mark ≠ ' ')
    (next : ∀ before, piece before mark rest = .ok (.ofSymbol sign 0)) :
    tokensFrom before (owner.chars ++ mark :: rest) =
      (tokensFrom (mark :: (owner.chars.reverse ++ before)) rest).map
        (.identifier (smallWord owner.chars) :: .symbol sign :: ·) := by
  obtain ⟨noPart, inLine, noSpace⟩ := apart
  have stops : (mark :: rest).head?.any isWordPart = false := noPart
  rw [tokensFrom_name owner.spelt rfl owner.free stops fun same => inLine (Option.some.inj same),
    tokensFrom_sign (next _), Lexer.map_map]
  · rfl
  · exact fun _ space => absurd (Option.some.inj space) noSpace

variable {after : List Char}

/-- A count that stands before a gap is cut into the tokens of its expression. -/
theorem tokensFrom_chars (fits : count.fits = true) (before : List Char) (ends : Ends after)
    (apart : Text.lowercaseChars ((after.drop 1).take 3) ≠ "by ".toList) :
    tokensFrom before (count.chars ++ after) =
      (tokensFrom (count.chars.reverse ++ before) after).map (count.printable.tokens ++ ·) := by
  cases count with
  | simple operand =>
    refine (operand.tokensFrom_chars fits before ends apart).trans ?_
    cases operand <;> rfl
  | property owner name =>
    rw [chars, append_assoc, cons_append, tokensFrom_owner owner before (by decide) fun _ => rfl,
      tokensFrom_name name.spelt rfl name.free (ends.any_eq_false (by decide))
        (ends.ne_some (by decide)) fun _ _ => apart, Lexer.map_map, reverse_append,
      reverse_cons, append_assoc, append_assoc]
    rfl
  | index owner position =>
    have seen : (chars (.index owner position)).reverse ++ before =
        ']' :: (position.chars.reverse ++ '[' :: (owner.chars.reverse ++ before)) := by
      simp [chars]
    rw [seen, chars, append_assoc, cons_append, append_assoc, singleton_append,
      tokensFrom_owner owner before (by decide) fun _ => rfl, position.cut, tokensFrom_sign rfl,
      Lexer.map_map, Lexer.map_map]
    refine congrFun (congrArg Except.map (funext fun later => ?_)) _
    exact congrArg (.identifier (smallWord owner.chars) :: .symbol .leftBracket :: ·)
      (append_assoc position.printable.tokens [.symbol .rightBracket] later).symm

theorem tokensFrom_chars_long (long : count.fits = false) (before : List Char) (ends : Ends after) :
    ∃ failure, tokensFrom before (count.chars ++ after) = .error failure := by
  cases count with
  | simple operand => exact operand.tokensFrom_chars_long long before ends
  | property | index => cases long

/-! ### The text of a loop -/

/-- The text of a loop before `times`. -/
def head (count : Count) (gap space : Gap) : List Char :=
  "repeat".toList ++ (gap.chars ++ (count.chars ++ space.chars))

theorem head_eq (gap space : Gap) :
    count.head gap space = "repeat".toList ++ (gap.chars ++ (count.chars ++ space.chars)) := rfl

def loop (count : Count) (gap space : Gap) (body : String) : String :=
  String.ofList (count.head gap space) ++ "times\n" ++ body ++ "\nend"

variable {count : Count} {gap space : Gap}

theorem tokensFrom_repeat (count : Count) (gap : Gap) (rest : List Char) :
    tokensFrom [] ("repeat".toList ++ (gap.chars ++ (count.chars ++ rest))) =
      (tokensFrom (gap.chars.reverse ++ "repeat".toList.reverse) (count.chars ++ rest)).map
        (.symbol .repeatWord :: ·) := by
  have spelt : BinaryOperator.IsSmallWord "repeat" := ⟨by decide, by decide⟩
  rw [tokensFrom_keyword spelt.1 spelt.2 (by decide : _ = some .repeatWord) (by decide)
    ((gap.ends (count.chars ++ rest)).any_eq_false (by decide)), gap.tokensFrom_chars,
    append_nil]

/-- Before `times`, a loop has the tokens of `repeat` and of its count. -/
theorem tokensFrom_head (fits : count.fits = true) (gap space : Gap) (rest : List Char) :
    tokensFrom [] (count.head gap space ++ ("times".toList ++ rest)) =
      (tokensFrom (count.head gap space).reverse ("times".toList ++ rest)).map fun later =>
        .symbol .repeatWord :: (count.printable.tokens ++ later) := by
  have apart : Text.lowercaseChars (((space.chars ++ ("times".toList ++ rest)).drop 1).take 3) ≠
      "by ".toList := space.take_chars_ne ("imes".toList ++ rest)
  have seen : (count.head gap space).reverse = space.chars.reverse ++
      (count.chars.reverse ++ (gap.chars.reverse ++ "repeat".toList.reverse)) := by
    simp only [head_eq, reverse_append, append_assoc]
  rw [seen, head_eq, append_assoc, append_assoc, append_assoc, tokensFrom_repeat,
    count.tokensFrom_chars fits _ (space.ends _) apart, space.tokensFrom_chars, Lexer.map_map]
  rfl

theorem tokensFrom_head_long (long : count.fits = false) (gap space : Gap) (rest : List Char) :
    ∃ failure, tokensFrom [] (count.head gap space ++ rest) = .error failure := by
  rw [head_eq, append_assoc, append_assoc, append_assoc, tokensFrom_repeat]
  obtain ⟨failure, failed⟩ := count.tokensFrom_chars_long long _ (space.ends rest)
  exact ⟨failure, congrArg (Except.map _) failed⟩

end Count

/-- At the end of its line, `times` depends on what stands before it. -/
theorem Lexer.tokensFrom_times (before rest : List Char) :
    tokensFrom before ("times".toList ++ '\n' :: rest) =
      (tokensFrom ('\n' :: ("times".toList.reverse ++ before)) rest).map
        (.symbol (if followsCount before then .timesWord else .timesOperator) ::
          .symbol .newline :: ·) := by
  have spelt : BinaryOperator.IsSmallWord "times" := ⟨by decide, by decide⟩
  rw [tokensFrom_word spelt.1 spelt.2 rfl fun extent => wordPiece_times_eq before _ extent,
    tokensFrom_sign (rfl : piece _ '\n' rest = .ok (.ofSymbol .newline 0)), Lexer.map_map]
  rfl

variable {body : String} {found : List Token} {program : List Stmt}

/-- A program between a line end and `end` keeps its tokens. -/
theorem Lexer.tokensFrom_enclosed
    (cut : tokensFrom [] body.toList = .ok (found ++ [.symbol .endOfText]))
    (read : parse (found ++ [.symbol .endOfText]) = .ok program)
    (closes : closesStrings body.toList = true) (before : List Char) :
    tokensFrom ('\n' :: before) (body.toList ++ '\n' :: "end".toList) =
      .ok (found ++ [.symbol .newline, .symbol .endWord, .symbol .endOfText]) := by
  have inside := @tokensFrom_of_parse body _ _ cut read ('\n' :: before)
    fun c same => (Option.some.inj same).symm
  have spelt : BinaryOperator.IsSmallWord "end" := ⟨by decide, by decide⟩
  have last (before : List Char) : tokensFrom before ("end".toList ++ []) =
      .ok [.symbol .endWord, .symbol .endOfText] := by
    rw [tokensFrom_keyword spelt.1 spelt.2 (by decide : _ = some .endWord) (by decide) rfl,
      tokensFrom_nil]
    rfl
  rw [tokensFrom_append_newline closes inside]
  exact congrArg (Except.map _) (last _)

/-! ### Reading -/

namespace Parse

variable {token : Token} {tokens rest body following : List Token} {inner : Bound}
  {value : Option Stmt} {program : List Stmt}

theorem length_le_of_statement (word : ¬ IsEnd (some token))
    (read : statement (token :: tokens) = .ok (value, rest)) :
    rest.length ≤ (token :: tokens).length := by
  have abreast := abreast_statement_silent _ _ _ rfl (Nat.lt_succ_self _) ⟨token, tokens, rfl, word⟩
  rw [read] at abreast
  cases abreast with
  | read _ _ left => exact left.suffix.length_le

/-- No statement begins with `end`. -/
theorem ne_end_of_statement (read : statement (token :: tokens) = .ok (value, rest)) :
    isAmong [.endWord] token = false := by
  refine Bool.eq_false_iff.mpr fun ends => ?_
  obtain ⟨sign, member, rfl⟩ := isAmong_iff.mp ends
  obtain rfl := mem_singleton.mp member
  obtain ⟨stays, moved⟩ := orStall_eq_ok.mp read
  cases stays
  exact moved rfl rfl

/-- The lines of a program are read as a block, up to the `end` that follows them, if none of its
statements begins with a closing word. -/
theorem linesWithin_enclosed {bound larger : Bound} {values : List (Option Stmt)}
    {closers : List Symbol} (closes : .endWord ∈ closers) (apart : ∀ token tokens value rest,
      value ∈ values → statement (token :: tokens) = .ok (value, rest) →
        isAmong closers token = false)
    (passage : Passage tokens) (room : tokens.length + 2 ≤ inner.length)
    (fits : bound.length ≤ larger.length) (read : linesWithin [.endOfText] statement bound
      (afterNewlines tokens ++ [.symbol .endOfText]) = .ok (values, rest)) :
    linesWithin closers (statementAt inner) larger
        (afterNewlines (tokens ++ .symbol .newline :: .symbol .endWord :: following)) =
      .ok (values, .symbol .endWord :: following) := by
  induction bound generalizing larger tokens values with
  | nil => cases read
  | cons mark bound ih =>
    obtain ⟨_, larger, rfl, smaller⟩ := exists_cons_of_fits fits
    rcases admits_afterNewlines passage with ended | ⟨token, left, found, word⟩
    · rw [ended] at read
      rw [afterNewlines_append_of_ended ended]
      cases read
      have closed : (Token.symbol .endWord :: following).head?.any (isAmong closers) = true :=
        isAmong_iff.mpr ⟨_, closes, rfl⟩
      exact linesWithin_closed closed _ larger
    · have shorter : (afterNewlines tokens).length ≤ tokens.length :=
        (dropWhile_suffix _).length_le
      have passage := passage.afterNewlines
      rw [found] at read passage shorter
      rw [afterNewlines_append_of_going found]
      have going (list : List Token) : (token :: list).head?.any (isAmong [.endOfText]) = false :=
        isAmong_of_word word .endOfText
      obtain ⟨first, between, others, item, remaining, rfl⟩ := (linesWithin_going (going _)).mp read
      have within : (Bound.ofTokens (token :: left ++ [.symbol .endOfText])).length ≤
          inner.length := by
        simp only [Bound.ofTokens, length_cons, length_append, length_nil] at shorter ⊢
        omega
      obtain ⟨still, passage, rfl, alike⟩ :=
        agreement_statementAt (.symbol .endWord :: following) _ _ within _ passage
          ⟨token, left, rfl, word⟩ first between item
      have fewer : (still ++ [Token.symbol .endOfText]).length ≤
          (token :: (left ++ [.symbol .endOfText])).length := length_le_of_statement word item
      simp only [length_cons, length_append, length_nil] at fewer shorter
      rw [afterNewlines_append_endOfText] at remaining
      have later := ih (fun token tokens value rest member => apart token tokens value rest
        (mem_cons_of_mem _ member)) passage (by omega) smaller remaining
      have inside (list : List Token) : (token :: list).head?.any (isAmong closers) = false :=
        apart _ _ _ _ mem_cons_self item
      exact (linesWithin_going (inside _)).mpr ⟨first, _, _, alike, later, rfl⟩

theorem block_enclosed {closers : List Symbol} (closes : .endWord ∈ closers)
    (passage : Passage body) (read : parse (body ++ [.symbol .endOfText]) = .ok program)
    (apart : ∀ token tokens value rest, (∀ statement ∈ value, statement ∈ program) →
      statement (token :: tokens) = .ok (value, rest) → isAmong closers token = false)
    (room : body.length + 2 ≤ inner.length) (following : List Token) :
    block closers (statementAt inner) (.symbol .newline ::
        (body ++ .symbol .newline :: .symbol .endWord :: following)) =
      .ok (program, .symbol .endWord :: following) := by
  obtain ⟨values, rest, items, rfl⟩ := parse_eq_ok.mp read
  rw [afterNewlines_append_endOfText] at items
  have fits : (Bound.ofTokens (afterNewlines body ++ [.symbol .endOfText])).length ≤
      (Bound.ofTokens (afterNewlines
        (body ++ .symbol .newline :: .symbol .endWord :: following))).length := by
    refine Nat.succ_le_succ ?_
    cases found : afterNewlines body with
    | nil =>
      rw [afterNewlines_append_of_ended found]
      exact Nat.succ_le_succ (Nat.zero_le _)
    | cons token left =>
      rw [afterNewlines_append_of_going found]
      simp only [length_append, length_cons, length_nil]
      omega
  have inside : lines closers (statementAt inner) (.symbol .newline ::
      (body ++ .symbol .newline :: .symbol .endWord :: following)) =
        .ok (values, .symbol .endWord :: following) := by
    refine linesWithin_enclosed closes (fun token tokens value rest member => ?_) passage room fits
      items
    exact apart token tokens value rest fun statement same =>
      mem_filterMap.mpr ⟨value, member, same⟩
  exact bind_ok inside

variable (count : Count)

/-- `times` without a second operand is dropped where the line ends. -/
theorem expression_times (rest : List Token) : Parse.expression (count.printable.tokens ++
        .symbol .timesOperator :: .symbol .newline :: rest) =
      .ok (count.expression, .symbol .newline :: rest) := by
  generalize whole : count.printable.tokens ++
    .symbol .timesOperator :: .symbol .newline :: rest = tokens
  have factor : Parse.factor (expressionAt tokens) tokens =
      .ok (count.expression, .symbol .timesOperator :: .symbol .newline :: rest) := by
    have room : count.expression.tokens.length ≤ tokens.length := by
      rw [← whole, length_append]
      exact Nat.le_add_right _ _
    have ends : Layer.factor.EndsBefore (.symbol .timesOperator :: .symbol .newline :: rest) := by
      rintro _ ⟨⟩
      rfl
    have read := count.isPrintable.isRead tokens room _ ends
    rwa [show count.expression.tokens ++ _ = tokens from whole] at read
  have term : term (expressionAt tokens) tokens =
      .ok (count.expression, .symbol .newline :: rest) := (bind_ok factor).trans rfl
  have arithmetic : arithmetic (expressionAt tokens) tokens =
      .ok (count.expression, .symbol .newline :: rest) := (bind_ok term).trans rfl
  have comparison : comparison (expressionAt tokens) tokens =
      .ok (count.expression, .symbol .newline :: rest) := (bind_ok arithmetic).trans rfl
  have negation : negation (expressionAt tokens) tokens =
      .ok (count.expression, .symbol .newline :: rest) := by
    refine (ifSees_neg ?_).trans comparison
    rw [← whole]
    exact count.isPrintable.any_isAmong (by decide) _
  have conjunction : conjunction (expressionAt tokens) tokens =
      .ok (count.expression, .symbol .newline :: rest) := (bind_ok negation).trans rfl
  exact (bind_ok conjunction).trans rfl

theorem statementOf_sign {nested reader : Parse (Option Stmt)} {sign : Symbol}
    (begins : afterWord? nested sign = some reader)
    (word : isAmong [.newline] (.symbol sign) = false) (tokens : List Token) :
    statementOf nested (.symbol sign :: tokens) = reader tokens := by
  refine (skipNewlines_bind _ _).trans ?_
  rw [afterNewlines, dropWhile_cons_of_neg (Bool.eq_false_iff.mp word)]
  exact atStatement_word begins tokens

/-- A counted loop around a program is read as the loop with the statements of the program. -/
theorem parse_countedLoop (count : Printable) (passage : Passage body)
    (read : parse (body ++ [.symbol .endOfText]) = .ok program) :
    parse (.symbol .repeatWord :: (count.tokens ++ .symbol .timesWord :: .symbol .newline ::
        (body ++ [.symbol .newline, .symbol .endWord, .symbol .endOfText]))) =
      .ok [.repeatTimes count.1 program] := by
  generalize whole : count.tokens ++ .symbol .timesWord :: .symbol .newline ::
    (body ++ [.symbol .newline, .symbol .endWord, .symbol .endOfText]) = tokens
  have room : body.length + 2 ≤ (Token.symbol .repeatWord :: tokens).length := by
    rw [← whole]
    simp only [length_cons, length_append]
    omega
  have loop : statement (.symbol .repeatWord :: tokens) =
      .ok (some (.repeatTimes count.1 program), [.symbol .endOfText]) := by
    have begins : tokens.head?.any (isAmong [.forever, .untilWord]) = false :=
      whole ▸ count.any_isAmong _ (by decide)
    refine orStall_eq_ok.mpr ⟨(statementOf_sign rfl rfl tokens).trans (bind_ok ?_), nofun⟩
    rw [Sentence.loop_expression begins]
    have counted := count.reads .timesWord rfl (.symbol .newline ::
      (body ++ [.symbol .newline, .symbol .endWord, .symbol .endOfText]))
    rw [whole] at counted
    refine (bind_ok counted).trans ((ifSees_pos rfl).trans ?_)
    rw [advance_bind]
    have block := block_enclosed (by decide : _ ∈ [Symbol.endWord]) passage read
      (fun _ _ _ _ _ => ne_end_of_statement) room
    exact bind_ok ((bind_ok (block _)).trans (expect_bind .endWord _ _))
  refine parse_eq_ok.mpr ⟨[some (.repeatTimes count.1 program)], [.symbol .endOfText], ?_, rfl⟩
  exact (linesWithin_going rfl).mpr ⟨_, _, _, loop, linesWithin_closed rfl _ _, rfl⟩

/-- A loop is not read where `times` is dropped. -/
theorem parse_without_times (rest : List Token) (program : List Stmt) :
    parse (.symbol .repeatWord :: (count.printable.tokens ++
      .symbol .timesOperator :: .symbol .newline :: rest)) ≠ .ok program := by
  intro read
  obtain ⟨values, last, lines, -⟩ := parse_eq_ok.mp read
  obtain ⟨first, between, others, item, -, -⟩ := (linesWithin_going rfl).mp lines
  obtain ⟨loop, -⟩ := orStall_eq_ok.mp item
  obtain ⟨read, left, counted, -⟩ := ok_of_bind ((statementOf_sign rfl rfl _).symm.trans loop)
  rw [Sentence.loop_expression (count.printable.any_isAmong _ (by decide))] at counted
  cases ((bind_ok (expression_times count rest)).trans (ifSees_neg rfl)).symm.trans counted

end Parse

/-- Whether a count seems to stand before `times`: apart from white space, the last characters
before it end in a digit or in `repeat`. -/
def Count.shows (count : Count) (gap space : Gap) : Bool :=
  Text.endsInCount (Text.trimBoth Text.isBlank
    (Text.lowercaseChars ((count.head gap space).reverse.take lookBehind).reverse))

theorem Count.tokens_loop_eq (count : Count) (gap space : Gap) (body : String) :
    tokens (count.loop gap space body) = tokensFrom [] (count.head gap space ++
      ("times".toList ++ '\n' :: (body.toList ++ '\n' :: "end".toList))) := by
  have split : (count.loop gap space body).toList = count.head gap space ++
      ("times".toList ++ '\n' :: (body.toList ++ '\n' :: "end".toList)) := by
    simp [loop]
  rw [← split]
  rfl

/-- The tokens of a loop around a program. -/
theorem Count.tokens_loop {count : Count} (fits : count.fits = true) (gap space : Gap)
    (cut : tokensFrom [] body.toList = .ok (found ++ [.symbol .endOfText]))
    (read : parse (found ++ [.symbol .endOfText]) = .ok program)
    (closes : closesStrings body.toList = true) :
    tokens (count.loop gap space body) = .ok (.symbol .repeatWord :: (count.printable.tokens ++
      .symbol (if count.shows gap space then .timesWord else .timesOperator) :: .symbol .newline ::
          (found ++ [.symbol .newline, .symbol .endWord, .symbol .endOfText]))) := by
  rw [tokens_loop_eq, tokensFrom_head fits, tokensFrom_times, tokensFrom_enclosed cut read closes,
    followsCount_eq]
  rfl

/-- A counted loop around a program that closes its strings and does not end in `using` is read
exactly if a count seems to stand before `times`, and has no more digits than a number can have. -/
theorem counted_loop_is_read_after_count (count : Count) (gap space : Gap) {body : String}
    {program : List Stmt} (read : program? body = some program)
    (closes : closesStrings body.toList = true) (last : endsInUsing body = false) :
    program? (count.loop gap space body) =
      if count.fits && count.shows gap space then some [.repeatTimes count.expression program]
      else none := by
  obtain ⟨found, cut, passage, parsed⟩ := exists_passage read last
  cases fits : count.fits with
  | false =>
    refine Option.eq_none_iff_forall_ne_some.mpr fun other whole => ?_
    obtain ⟨tokens, cutWhole, -⟩ := program?_eq_some.mp whole
    obtain ⟨failure, failed⟩ := Count.tokensFrom_head_long fits gap space _
    rw [Count.tokens_loop_eq, failed] at cutWhole
    cases cutWhole
  | true =>
    have cutLoop := Count.tokens_loop fits gap space cut parsed closes
    generalize count.shows gap space = result at cutLoop ⊢
    cases result with
    | true => exact program?_eq_some.mpr ⟨_, cutLoop, Parse.parse_countedLoop _ passage parsed⟩
    | false =>
      refine Option.eq_none_iff_forall_ne_some.mpr fun other whole => ?_
      obtain ⟨tokens, cutWhole, readWhole⟩ := program?_eq_some.mp whole
      cases cutLoop.symm.trans cutWhole
      exact Parse.parse_without_times count _ other readWhole

/-- A number, a property whose name ends in a digit after wide gaps, and an index as counts. -/
theorem counted_loop_is_read_after_digit :
    let body : List Stmt := [.say [.number (.int 1)]]
    program? "say 1" = some body ∧
      program? "repeat 30 times\nsay 1\nend" = some [.repeatTimes (.number (.int 30)) body] ∧
      program? "repeat \tBox.size2  times\nsay 1\nend" =
        some [.repeatTimes (.property (.identifier "box") "size2") body] ∧
      program? "repeat Box[size2] times\nsay 1\nend" = none := by
  intro body
  let number : Count := .simple
    (.numeral ⟨['3', '0'], none, by decide, all_eq_true.mp (by decide), nofun⟩)
  let box : Name := ⟨"Box".toList, by decide, by decide⟩
  let size : Name := ⟨"size2".toList, by decide, by decide⟩
  let wide : Gap := ⟨[' ', '\t'], by decide, by decide⟩
  let double : Gap := ⟨[' ', ' '], by decide, by decide⟩
  have cut : (tokens "say 1").toOption =
      some [.symbol .say, .number (.int 1), .symbol .endOfText] := by decide +kernel
  have read : program? "say 1" = some body := by
    rw [program?, cut]
    rfl
  have ends : endsInUsing "say 1" = false := by rw [endsInUsing, cut]; rfl
  have loop (count : Count) (gap space : Gap) :=
    counted_loop_is_read_after_count count gap space read (by decide +kernel) ends
  exact ⟨read, loop number .single .single, loop (.property box size) wide double,
    loop (.index box (.ofName size)) .single .single⟩

/-- A loop whose count is a name is not read. -/
theorem counted_loop_is_not_read_after_name : program? "repeat n times\nsay 1\nend" = none := by
  decide +kernel

end Parlance
