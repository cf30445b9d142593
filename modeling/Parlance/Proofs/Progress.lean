import Parlance.Proofs.Abreast

/-!
Reading moves on. Every rule that gives an expression or a statement has taken a token, and no rule
ever takes the mark for the end of the text.
-/

namespace Parlance

open Parse

variable {α : Type}

/-! ### The same text -/

/-- Whether two lists of tokens are the same up to the first mark for the end of the text. -/
def SameText (tokens others : List Token) : Prop := throughEnd tokens = throughEnd others

theorem throughEnd_afterNewlines (tokens : List Token) :
    throughEnd (afterNewlines tokens) = afterNewlines (throughEnd tokens) := by
  induction tokens with
  | nil => rfl
  | cons token rest ih =>
    cases newline : token.isNewline with
    | true =>
      obtain rfl := Token.eq_newline newline
      exact ih
    | false =>
      rw [afterNewlines_word newline, throughEnd]
      split <;> rw [afterNewlines_word newline]

/-- Readers cannot tell what comes after the end of the text. -/
theorem parallel_sameText : Parallel SameText where
  head_eq {tokens others} same := by
    rw [← head?_throughEnd tokens, same, head?_throughEnd]
  tail {token rest left} word same := by
    have other : token.isEndOfText = false :=
      Token.isEndOfText_eq_false fun isEnd => word (isEnd ▸ .endOfText)
    rw [SameText, throughEnd, throughEnd, other] at same
    exact List.tail_eq_of_cons_eq same
  afterNewlines {tokens others} same := by
    rw [SameText, throughEnd_afterNewlines, same, throughEnd_afterNewlines]
  wordsAhead_eq {tokens others} same := by
    rw [wordsAhead, same, wordsAhead]

theorem LeftOf.exists_append {before after rest : List Token} (going : .symbol .endOfText ∉ before)
    (left : LeftOf (before ++ .symbol .endOfText :: after) rest) :
    ∃ still, .symbol .endOfText ∉ still ∧ rest = still ++ .symbol .endOfText :: after := by
  obtain ⟨taken, goingOn, split⟩ := left
  rcases List.append_eq_append_iff.mp split with ⟨more, rfl, more_eq⟩ | ⟨more, rfl, rfl⟩
  · cases more with
    | nil => exact ⟨[], List.not_mem_nil, more_eq.symm⟩
    | cons token more =>
      obtain ⟨rfl, -⟩ := List.cons.inj more_eq
      exact absurd (List.mem_append_right before List.mem_cons_self) goingOn
  · exact ⟨more, fun member => going (List.mem_append_right taken member), rfl⟩

/-- Whether a reader never takes the mark for the end of the text: what it makes of the tokens up to
that mark does not depend on what comes after it, and what it leaves begins before it. -/
def Parse.LeavesEnd (reader : Parse α) : Prop :=
  ∀ before, .symbol .endOfText ∉ before →
    (∃ failure, ∀ after, reader (before ++ .symbol .endOfText :: after) = .error failure) ∨
    ∃ value left, .symbol .endOfText ∉ left ∧ ∀ after,
      reader (before ++ .symbol .endOfText :: after) =
        .ok (value, left ++ .symbol .endOfText :: after)

namespace Parse

section

variable {reader : Parse α} {taking : Taking}
  (related : ∀ depth, abreast SameText silent depth .anywhere taking α reader reader)

include related

theorem leftOf_of_abreast {tokens rest : List Token} {value : α}
    (read : reader tokens = .ok (value, rest)) :
    LeftOf tokens rest ∧ taking.Shrinks tokens rest := by
  have abreast := related _ tokens tokens rfl (Nat.lt_succ_self _) trivial
  rw [read] at abreast
  cases abreast with
  | read _ _ left _ shrinks => exact ⟨left, shrinks⟩

theorem leavesEnd_of_abreast : LeavesEnd reader := by
  intro before going
  have abreast (after : List Token) := related _ (before ++ [.symbol .endOfText])
    (before ++ .symbol .endOfText :: after)
    (by rw [SameText, throughEnd_append going, throughEnd_append going]; rfl)
    (Nat.lt_succ_self _) trivial
  cases found : reader (before ++ [.symbol .endOfText]) with
  | error failure =>
    refine .inl ⟨failure, fun after => ?_⟩
    have abreast := abreast after
    rw [found] at abreast
    generalize reader _ = another at abreast ⊢
    cases abreast <;> rfl
  | ok result =>
    obtain ⟨value, rest⟩ := result
    obtain ⟨left, goingOn, rfl⟩ := (leftOf_of_abreast related found).1.exists_append going
    refine .inr ⟨value, left, goingOn, fun after => ?_⟩
    have abreast := abreast after
    rw [found] at abreast
    generalize reader (before ++ .symbol .endOfText :: after) = another at abreast ⊢
    cases abreast with
    | @read _ _ rest same _ further _ =>
      obtain ⟨still, goingStill, rfl⟩ := further.exists_append going
      rw [SameText, throughEnd_append goingOn, throughEnd_append goingStill] at same
      rw [List.append_cancel_right (show left ++ [.symbol .endOfText] = still ++ _ from same)]

end

/-! ### Rules for expressions -/

def formAt (sign : Symbol) : Parse Expr := do
  if ← seesAny [sign] then wordForm expression sign
  else fail (.expected sign.name (← current?))

inductive IsExpressionRule : Parse Expr → Prop
  | expression : IsExpressionRule expression
  | disjunction : IsExpressionRule (disjunction expression)
  | conjunction : IsExpressionRule (conjunction expression)
  | negation : IsExpressionRule (negation expression)
  | comparison : IsExpressionRule (comparison expression)
  | arithmetic : IsExpressionRule (arithmetic expression)
  | term : IsExpressionRule (term expression)
  | factor : IsExpressionRule (factor expression)
  | form {sign : Symbol} : OnlyWords (isAmong [sign]) → IsExpressionRule (formAt sign)

theorem IsExpressionRule.abreast {reader : Parse Expr} (rule : IsExpressionRule reader)
    {same : List Token → List Token → Prop} (parallel : Parallel same)
    (alarm : List Token → ParseFailure) (depth : Nat) :
    abreast same alarm depth .anywhere .surely Expr reader reader := by
  have law := readCongruence_abreast alarm depth parallel
  have expressions := abreast_expression alarm depth parallel
  cases rule with
  | expression => exact expressions
  | disjunction => exact law.descent.disjunction expressions
  | conjunction => exact law.descent.conjunction expressions
  | negation => exact law.descent.negation expressions
  | comparison => exact law.descent.comparison expressions
  | arithmetic => exact law.descent.arithmetic expressions
  | term => exact law.descent.term expressions
  | factor => exact law.descent.factor expressions
  | @form sign word =>
    refine law.branch word (law.descent.wordForm expressions sign) ?_
    exact law.lookOrFail (.expected sign.name) (fun _ _ => law.atWord (law.fail _))
      rfl rfl

/-- Expressions are always read to an end: there is no alarm to be raised. -/
theorem IsExpressionRule.ne_stalled {reader : Parse Expr} (rule : IsExpressionRule reader)
    (tokens : List Token) : reader tokens ≠ .error .stalled := by
  intro stalled
  have abreast := rule.abreast parallel_sameText (fun _ => .error (.unexpected none))
    (wordsAhead tokens + 1) tokens tokens rfl (Nat.lt_succ_self _) trivial
  generalize found : reader tokens = result at stalled abreast
  subst stalled
  cases abreast

/-! ### Rules for statements -/

inductive IsStatementRule : Parse (Option Stmt) → Prop
  | statement : IsStatementRule (statementOf statement)
  | name : IsStatementRule do return some (← nameStatement)
  | word {sign : Symbol} {rest : Parse (Option Stmt)} : afterWord? statement sign = some rest →
      IsStatementRule do
        expect sign
        rest

section

variable (depth : Nat)

theorem abreast_expression_silent :
    abreast SameText silent depth .anywhere .surely Expr expression expression :=
  abreast_expression silent depth parallel_sameText

theorem abreast_statement_silent :
    abreast SameText silent depth .atWord .surely _ statement statement := by
  have related := abreast_statement silent depth parallel_sameText
  rwa [watched_silent] at related

theorem refusal_statement : refusal SameText silent (Option Stmt) statement statement := by
  intro tokens others same ended
  have stalls {tokens : List Token} (ended : AtEnd tokens) :
      statement tokens = .error .stalled := orAlarm_of_stuck (stuck_atEnd ended) silent _
  have endedToo := parallel_sameText.atEnd same ended
  rw [stalls ended, stalls endedToo]
  exact .stalled (.refl others) (stuck_atEnd endedToo)

/-- A statement is read in the same way, whatever comes after the end of the text. -/
theorem abreast_statementOf_silent :
    abreast SameText silent depth .anywhere .perhaps _ (statementOf statement)
      (statementOf statement) := by
  have law := readCongruence_abreast silent depth parallel_sameText
  refine abreast_skipNewlines parallel_sameText (law.atStatement (abreast_expression_silent depth)
    (abreast_statement_silent depth) refusal_statement) fun tokens others same _ ended => ?_
  have there (tokens : List Token) (ended : AtEnd tokens) :
      atStatement statement tokens = .ok (none, tokens) := by
    rcases ended with rfl | ⟨rest, rfl⟩ <;> rfl
  rw [there tokens ended, there others (parallel_sameText.atEnd same ended)]
  exact .read none same (.refl _) (.refl _) trivial

end

variable {reader : Parse (Option Stmt)} {tokens rest : List Token}

/-- A rule for a statement that begins with a certain token takes that token. -/
theorem IsStatementRule.abreast (rule : IsStatementRule reader) :
    reader = statementOf Parse.statement ∨
      ∀ depth, abreast SameText silent depth .anywhere .surely _ reader reader := by
  cases rule with
  | statement => exact .inl rfl
  | name =>
    refine .inr fun depth => ?_
    have law := readCongruence_abreast silent depth parallel_sameText
    exact law.bind (law.nameStatement (abreast_expression_silent depth)) fun _ => law.pure _
  | @word sign rest begins =>
    refine .inr fun depth => ?_
    have law := readCongruence_abreast silent depth parallel_sameText
    have isWord : OnlyWords (isAmong [sign]) := by
      rw [onlyWords_isAmong, List.mem_singleton, List.mem_singleton]
      constructor
      all_goals
        rintro rfl
        cases begins
    have later := law.afterWord (abreast_expression_silent depth) (abreast_statement_silent depth)
      refusal_statement sign
    rw [begins] at later
    cases later with
    | some later => exact law.bind (law.expect isWord) fun _ => later

theorem IsStatementRule.leavesEnd (rule : IsStatementRule reader) : LeavesEnd reader := by
  rcases rule.abreast with rfl | related
  · exact leavesEnd_of_abreast abreast_statementOf_silent
  · exact leavesEnd_of_abreast related

/-- A statement that is given has taken a word. -/
theorem shrinks_of_statementOf {node : Stmt}
    (read : statementOf statement tokens = .ok (some node, rest)) :
    wordsAhead rest < wordsAhead tokens := by
  have passed := (LeftOf.afterNewlines tokens).wordsAhead_le
  rw [statementOf, skipNewlines_bind] at read
  rcases atWord_or_atEnd tokens with ⟨token, left, found, word⟩ | ended
  · rw [found] at passed read
    refine Nat.lt_of_lt_of_le ?_ passed
    have expressions := abreast_expression_silent (wordsAhead (token :: left) + 1)
    have law := readCongruence_abreast silent (wordsAhead (token :: left) + 1) parallel_sameText
    have begun := law.descent.statementFrom expressions expressions (abreast_statement_silent _)
      refusal_statement token
    rw [atStatement_eq] at read
    change (statementFrom? statement token).getD (pure none) (token :: left) = _ at read
    generalize statementFrom? statement token = result at read begun ⊢
    cases result with
    | none => cases read
    | some reader =>
      change reader (token :: left) = _ at read
      cases begun with
      | some begun =>
        have abreast := begun _ _ rfl (Nat.lt_succ_self _) ⟨token, left, rfl, word⟩
        rw [read] at abreast
        cases abreast with
        | read _ _ _ _ shrinks => exact shrinks
  · rcases ended with ended | ⟨left, ended⟩
    all_goals
      rw [ended] at read
      cases read

theorem IsStatementRule.leftOf (rule : IsStatementRule reader) {given : Option Stmt}
    (read : reader tokens = .ok (given, rest)) :
    LeftOf tokens rest ∧ (given.isSome → rest ≠ tokens) := by
  rcases rule.abreast with rfl | related
  · refine ⟨(leftOf_of_abreast abreast_statementOf_silent read).1, fun isSome => ?_⟩
    obtain ⟨node, rfl⟩ := Option.isSome_iff_exists.mp isSome
    rintro rfl
    exact Nat.lt_irrefl _ (shrinks_of_statementOf read)
  · obtain ⟨left, shrinks⟩ := leftOf_of_abreast related read
    refine ⟨left, fun _ => ?_⟩
    rintro rfl
    exact Nat.lt_irrefl _ shrinks

/-! ### Where no statement is given -/

/-- Whether a reader gives a statement whenever it succeeds. -/
def AlwaysGives (reader : Parse (Option Stmt)) : Prop :=
  ∀ tokens rest, reader tokens ≠ .ok (none, rest)

theorem alwaysGives_pure (given : Stmt) : AlwaysGives (pure (some given)) := by
  rintro tokens rest ⟨⟩

theorem alwaysGives_bind {reader : Parse α} {next : α → Parse (Option Stmt)}
    (gives : ∀ value, AlwaysGives (next value)) : AlwaysGives (reader >>= next) := by
  intro tokens rest read
  obtain ⟨value, between, -, later⟩ := ok_of_bind read
  exact gives value between rest later

theorem alwaysGives_ite {condition : Prop} [Decidable condition] {yes no : Parse (Option Stmt)}
    (first : AlwaysGives yes) (second : AlwaysGives no) :
    AlwaysGives (if condition then yes else no) := by
  split
  · exact first
  · exact second

/-- Every statement but a drawing is given once its word is taken, unless there is an error. -/
theorem alwaysGives_afterWord {nested : Parse (Option Stmt)} {sign : Symbol}
    (begins : afterWord? nested sign = some reader) (other : sign ≠ .draw) :
    AlwaysGives reader := by
  unfold afterWord? at begins
  split at begins
  case h_21 => exact absurd rfl other
  case h_31 => cases begins
  all_goals
    obtain rfl := Option.some.inj begins
    repeat' first
      | exact alwaysGives_pure _
      | refine alwaysGives_ite ?_ ?_
      | refine alwaysGives_bind fun _ => ?_

end Parse

def Token.beginsShape : Token → Bool := isAmong [.circle, .rectangle, .line, .text]

namespace Parse

variable {tokens rest : List Token}

/-- A drawing is not given where no shape is named, and then nothing is taken. -/
theorem shape_eq_none_iff :
    shape tokens = .ok (none, rest) ↔
      tokens.head?.any Token.beginsShape = false ∧ rest = tokens := by
  rw [shape, bind_ok (show current? tokens = .ok (tokens.head?, tokens) from rfl)]
  generalize tokens.head? = found
  split
  case h_5 others =>
    have none : found.any Token.beginsShape = false := by
      cases found with
      | none => rfl
      | some token =>
        cases token with
        | symbol sign => simp_all [Token.beginsShape, isAmong]
        | _ => rfl
    refine ⟨?_, ?_⟩
    · rintro ⟨⟩
      exact ⟨none, rfl⟩
    · rintro ⟨-, rfl⟩
      rfl
  all_goals
    refine iff_of_false ?_ ?_
    · exact alwaysGives_bind (fun _ => by
        repeat' first
          | exact alwaysGives_pure _
          | refine alwaysGives_bind fun _ => ?_) tokens rest
    · rintro ⟨⟨⟩, -⟩

/-- No statement is given exactly if none begins after the line ends, and then only these are taken,
or if `draw` is there and no shape after it, and then `draw` is taken as well. -/
theorem statementOf_eq_none_iff {nested : Parse (Option Stmt)} :
    statementOf nested tokens = .ok (none, rest) ↔
      (rest = afterNewlines tokens ∧
        (afterNewlines tokens).head?.any Token.beginsStatement = false) ∨
      afterNewlines tokens = .symbol .draw :: rest ∧ rest.head?.any Token.beginsShape = false := by
  rw [statementOf, skipNewlines_bind]
  cases afterNewlines tokens with
  | nil =>
    constructor
    · rintro ⟨⟩
      exact .inl ⟨rfl, rfl⟩
    · rintro (⟨rfl, -⟩ | ⟨⟨⟩, -⟩)
      rfl
  | cons token left =>
    rw [atStatement_eq]
    change (statementFrom? nested token).getD (pure none) (token :: left) = _ ↔
      (_ ∧ token.beginsStatement = false) ∨ _
    rw [← isSome_statementFrom? nested token]
    cases begins : statementFrom? nested token with
    | none =>
      constructor
      · rintro ⟨⟩
        exact .inl ⟨rfl, rfl⟩
      · rintro (⟨rfl, -⟩ | ⟨same, -⟩)
        · rfl
        · cases same
          cases begins
    | some reader =>
      rw [or_iff_right (by rintro ⟨-, ⟨⟩⟩)]
      by_cases drawing : token = .symbol .draw
      · subst drawing
        cases begins
        refine shape_eq_none_iff.trans ⟨?_, ?_⟩
        · rintro ⟨none, rfl⟩
          exact ⟨rfl, none⟩
        · rintro ⟨⟨⟩, none⟩
          exact ⟨none, rfl⟩
      · refine iff_of_false ?_ fun both => drawing (List.cons.inj both.1).1
        cases token with
        | identifier name =>
          cases begins
          exact alwaysGives_bind (fun _ => alwaysGives_pure _) _ rest
        | symbol sign =>
          obtain ⟨later, isLater, rfl⟩ := Option.map_eq_some_iff.mp begins
          have gives := alwaysGives_afterWord isLater fun same => drawing (congrArg _ same)
          exact alwaysGives_bind (fun _ => gives) _ rest
        | number value | string value => cases begins

end Parse

/-- Reading moves on. A rule for expressions or for statements never takes the mark for the end of
the text, and it has taken a token if it gives an expression or a statement; a rule for expressions
never stalls. A statement that is due is not given exactly if no statement begins after the line
ends, which alone are taken then, or if `draw` is there without a shape, and then it is taken. So of
all tokens a program is read, or there is an error, or reading stalls. In that case it has come to a
place where a statement is due, none is given and nothing is taken, as a reader shows that raises an
alarm there and nowhere else. -/
theorem reading_moves_on_or_comes_to_a_stop :
    (∀ reader, Parse.IsExpressionRule reader → Parse.LeavesEnd reader ∧ ∀ tokens,
      reader tokens ≠ .error .stalled ∧ ∀ node rest, reader tokens = .ok (node, rest) →
        LeftOf tokens rest ∧ rest ≠ tokens) ∧
    (∀ reader, Parse.IsStatementRule reader → Parse.LeavesEnd reader ∧ ∀ tokens given rest,
      reader tokens = .ok (given, rest) → LeftOf tokens rest ∧ (given.isSome → rest ≠ tokens)) ∧
    (∀ tokens rest, statementOf statement tokens = .ok (none, rest) ↔
      (rest = afterNewlines tokens ∧
        (afterNewlines tokens).head?.any Token.beginsStatement = false) ∨
      afterNewlines tokens = .symbol .draw :: rest ∧
        rest.head?.any Token.beginsShape = false) ∧
    ∀ alarm tokens,
      (∃ program, parse tokens = .ok program ∧ parseWatched alarm tokens = .ok program) ∨
      (∃ cause, parse tokens = .error (.error cause) ∧
        parseWatched alarm tokens = .error (.error cause)) ∨
      parse tokens = .error .stalled ∧ ∃ place, LeftOf tokens place ∧
        statementOf statement place = .ok (none, place) ∧
        parseWatched alarm tokens = .error (alarm place) := by
  refine ⟨fun reader rule => ?_, fun reader rule => ⟨rule.leavesEnd, fun _ _ _ => rule.leftOf⟩,
    fun _ _ => statementOf_eq_none_iff, fun alarm tokens => ?_⟩
  · have related := rule.abreast parallel_sameText silent
    refine ⟨leavesEnd_of_abreast related, fun tokens => ⟨rule.ne_stalled tokens, ?_⟩⟩
    intro node rest read
    obtain ⟨left, shrinks⟩ := leftOf_of_abreast related read
    refine ⟨left, ?_⟩
    rintro rfl
    exact Nat.lt_irrefl _ shrinks
  · rcases parallel_sameText.parse alarm (Eq.refl (throughEnd tokens)) with
      read | failed | ⟨stalled, place, left, stuck, alarmed⟩
    · exact .inl read
    · exact .inr (.inl failed)
    · exact .inr (.inr ⟨stalled, place, left, stuck _, alarmed⟩)

end Parlance
