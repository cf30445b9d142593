import Parlance.Proofs.Printing
import Parlance.Proofs.Reading

/-!
Expressions are read back from their tokens. An expression of any layer is read from its own tokens
and no others, as long as what follows cannot go on with an expression of that layer.
-/

namespace Parlance

open Parlance.Expr Parse List Layer

variable {α : Type}

namespace Parse

/-! ### Items -/

/-- Items that are read one after another. Each begins at a token that satisfies the test and takes
tokens. -/
inductive Items (test : Token → Bool) (item : Parse α) :
    List Token → List α → List Token → Prop where
  | none (tokens : List Token) : Items test item tokens [] tokens
  | more {token : Token} {tokens between rest : List Token} {value : α} {values : List α} :
    test token = true → item (token :: tokens) = .ok (value, between) →
      between.length ≤ tokens.length → Items test item between values rest →
        Items test item (token :: tokens) (value :: values) rest

namespace Items

variable {test : Token → Bool} {item : Parse α} {tokens between rest : List Token}
  {values others : List α}

theorem append (first : Items test item tokens values between)
    (later : Items test item between others rest) :
    Items test item tokens (values ++ others) rest := by
  induction first with
  | none => exact later
  | more holds read shorter _ ih =>
    exact .more holds read shorter (ih later)

/-- Before items stands a token that satisfies the test, unless there are none. -/
theorem head (items : Items test item tokens values rest) {other : Token → Bool}
    (ended : rest.head?.any other = false)
    (apart : ∀ token, test token = true → other token = false) :
    tokens.head?.any other = false := by
  cases items with
  | none => exact ended
  | more holds => exact apart _ holds

theorem whileSees (items : Items test item tokens values rest)
    (ended : rest.head?.any test = false) {bound : Bound} (fits : tokens.length < bound.length) :
    whileSees test item bound tokens = .ok (values, rest) := by
  induction items generalizing bound with
  | none tokens =>
    obtain ⟨_, bound, rfl⟩ := exists_cons_of_length_pos (Nat.zero_lt_of_lt fits)
    show (if tokens.head?.any test = true then _ else _ : Parse (List α)) _ = _
    rw [ended]
    rfl
  | @more token tokens between rest value values holds read shorter _ ih =>
    obtain ⟨_, bound, rfl⟩ := exists_cons_of_length_pos (Nat.zero_lt_of_lt fits)
    have later := ih ended (Nat.lt_of_le_of_lt shorter (Nat.lt_of_succ_lt_succ fits))
    show (if test token = true then _ else _ : Parse (List α)) _ = _
    rw [holds]
    exact (bind_ok read).trans (bind_ok later)

theorem manyWhile (items : Items test item tokens values rest)
    (ended : rest.head?.any test = false) : manyWhile test item tokens = .ok (values, rest) :=
  items.whileSees ended (Nat.lt_succ_self _)

end Items

/-! ### Chains -/

/-- The tokens of a chain have been read, and reading stands where the chain could go on. -/
def Chains (operator : Parse (Option BinaryOperator)) (operand : Parse Expr) (expression : Expr)
    (tokens rest : List Token) : Prop :=
  ∃ bound : Bound, rest.length < bound.length ∧
    chain operator operand (tokens ++ rest) = chainFrom operator operand bound expression rest

namespace Chains

variable {operator : Parse (Option BinaryOperator)} {operand : Parse Expr}
  {expression left right : Expr} {symbol : BinaryOperator} {tokens joint further rest : List Token}

theorem one (read : operand (tokens ++ rest) = .ok (expression, rest)) :
    Chains operator operand expression tokens rest :=
  ⟨Bound.ofTokens rest, Nat.lt_succ_self _, bind_ok read⟩

theorem more (chained : Chains operator operand left tokens (joint ++ (further ++ rest)))
    (joined : operator (joint ++ (further ++ rest)) = .ok (some symbol, further ++ rest))
    (read : operand (further ++ rest) = .ok (right, rest)) (taken : joint ≠ []) :
    Chains operator operand (.binary left symbol right) (tokens ++ (joint ++ further)) rest := by
  obtain ⟨bound, fits, same⟩ := chained
  obtain ⟨_, bound, rfl⟩ := exists_cons_of_length_pos (Nat.zero_lt_of_lt fits)
  refine ⟨bound, ?_, ?_⟩
  · have := length_pos_iff.mpr taken
    simp only [length_append, length_cons] at fits
    omega
  · rw [append_assoc, append_assoc, same]
    exact (bind_ok joined).trans (bind_ok read)

theorem stop (chained : Chains operator operand expression tokens rest)
    (stopped : operator rest = .ok (none, rest)) :
    chain operator operand (tokens ++ rest) = .ok (expression, rest) := by
  obtain ⟨bound, fits, same⟩ := chained
  obtain ⟨_, bound, rfl⟩ := exists_cons_of_length_pos (Nat.zero_lt_of_lt fits)
  rw [same]
  exact bind_ok stopped

end Chains

/-! ### Operators -/

theorem current_eq (tokens : List Token) : current? tokens = .ok (tokens.head?, tokens) := rfl

variable {tokens rest : List Token} {operator : BinaryOperator}

theorem unlessLineEnds_word (going : tokens.head?.any (isAmong lineEnds) = false)
    (operator : BinaryOperator) : unlessLineEnds operator tokens = .ok (some operator, tokens) := by
  show (if tokens.head?.any (isAmong lineEnds) = true then _ else _ :
    Parse (Option BinaryOperator)) _ = _
  rw [going]
  rfl

theorem multiplicativeOperator_reads (going : tokens.head?.any (isAmong lineEnds) = false)
    (known : operator ∈ [.times, .dividedBy]) :
    multiplicativeOperator? (operator.tokens ++ tokens) = .ok (some operator, tokens) := by
  simp only [mem_cons, not_mem_nil, or_false] at known
  rcases known with rfl | rfl <;> exact unlessLineEnds_word going _

theorem additiveOperator_reads (going : tokens.head?.any (isAmong lineEnds) = false)
    (known : operator ∈ [.plus, .minus]) :
    additiveOperator? (operator.tokens ++ tokens) = .ok (some operator, tokens) := by
  simp only [mem_cons, not_mem_nil, or_false] at known
  rcases known with rfl | rfl <;> exact unlessLineEnds_word going _

theorem multiplicativeOperator_stops
    (ended : rest.head?.any (isAmong [.timesOperator, .divided]) = false) :
    multiplicativeOperator? rest = .ok (none, rest) := by
  refine (bind_ok (current_eq rest)).trans ?_
  generalize rest.head? = found at ended ⊢
  split
  · cases ended
  · cases ended
  · rfl

theorem additiveOperator_stops (ended : rest.head?.any (isAmong [.plus, .minus]) = false) :
    additiveOperator? rest = .ok (none, rest) := by
  refine (bind_ok (current_eq rest)).trans ?_
  generalize rest.head? = found at ended ⊢
  split
  · cases ended
  · cases ended
  · rfl

theorem comparisonOperator_stops
    (ended : rest.head?.any (isAmong [.equals, .doesNotEqual, .isGreaterThan, .isLessThan,
      .isAtLeast, .isAtMost]) = false) : comparisonOperator? rest = .ok (none, rest) := by
  refine (bind_ok (current_eq rest)).trans ?_
  generalize rest.head? = found at ended ⊢
  split
  · rename_i sign
    have other : comparisonOf? sign = none := by
      unfold comparisonOf?
      split
      case h_7 => rfl
      all_goals cases ended
    rw [other]
    rfl
  · rfl

theorem comparisonOperator_reads
    (known : operator ∈ [.equals, .doesNotEqual, .isGreaterThan, .isLessThan, .isAtLeast,
      .isAtMost]) (rest : List Token) :
    comparisonOperator? (operator.tokens ++ rest) = .ok (some operator, rest) := by
  simp only [mem_cons, not_mem_nil, or_false] at known
  rcases known with rfl | rfl | rfl | rfl | rfl | rfl <;> rfl

theorem operatorAt_stops {symbol : Symbol} (ended : rest.head?.any (isAmong [symbol]) = false)
    (operator : BinaryOperator) : operatorAt symbol operator rest = .ok (none, rest) := by
  show (if rest.head?.any (isAmong [symbol]) = true then _ else _ :
    Parse (Option BinaryOperator)) rest = _
  rw [ended]
  rfl

end Parse

/-! ### What is read back -/

open Parse in
/-- Whether an expression of a layer is read back from its tokens, if the bound for what is nested
in it is this one. For a name, the steps that follow it are read as items; for the layers with
chains, reading stands where the chain could go on. -/
def Expr.IsReadWithin (bound : Bound) (expression : Expr) : Layer → Prop
  | .place => ∃ name tail steps, expression.tokens = .identifier name :: tail ∧
      steps.foldl (fun owner step => step owner) (.identifier name) = expression ∧
      ∀ rest, Items beginsAccess (access (expressionAt bound)) (tail ++ rest) steps rest
  | .factor => ∀ rest, factor.EndsBefore rest →
      factor (expressionAt bound) (expression.tokens ++ rest) = .ok (expression, rest)
  | .term => ∀ rest, factor.EndsBefore rest →
      Chains multiplicativeOperator? (factor (expressionAt bound)) expression expression.tokens rest
  | .sum => ∀ rest, term.EndsBefore rest →
      Chains additiveOperator? (term (expressionAt bound)) expression expression.tokens rest
  | .comparison => ∀ rest, comparison.EndsBefore rest →
      comparison (expressionAt bound) (expression.tokens ++ rest) = .ok (expression, rest)
  | .negation => ∀ rest, negation.EndsBefore rest →
      negation (expressionAt bound) (expression.tokens ++ rest) = .ok (expression, rest)
  | .conjunction => ∀ rest, negation.EndsBefore rest →
      Chains (operatorAt .andWord .and) (negation (expressionAt bound)) expression
        expression.tokens rest
  | .disjunction => ∀ rest, conjunction.EndsBefore rest →
      Chains (operatorAt .orWord .or) (conjunction (expressionAt bound)) expression
        expression.tokens rest

/-- Whether an expression is read back if the bound is not too small. -/
def Expr.IsRead (layer : Layer) (expression : Expr) : Prop :=
  ∀ bound : Parse.Bound, expression.tokens.length ≤ bound.length →
    expression.IsReadWithin bound layer

namespace Expr.IsRead

variable {expression : Expr} {bound : Parse.Bound} {rest : List Token}

/-! ### Whole chains -/

theorem term (read : IsRead .term expression) (fits : expression.tokens.length ≤ bound.length)
    (ends : term.EndsBefore rest) :
    term (expressionAt bound) (expression.tokens ++ rest) = .ok (expression, rest) :=
  (read bound fits rest (ends.of_subset (by decide))).stop
    (multiplicativeOperator_stops (ends.any_isAmong (by decide)))

theorem sum (read : IsRead .sum expression) (fits : expression.tokens.length ≤ bound.length)
    (ends : sum.EndsBefore rest) :
    arithmetic (expressionAt bound) (expression.tokens ++ rest) =
      .ok (expression, rest) :=
  (read bound fits rest (ends.of_subset (by decide))).stop
    (additiveOperator_stops (ends.any_isAmong (by decide)))

theorem conjunction (read : IsRead .conjunction expression)
    (fits : expression.tokens.length ≤ bound.length) (ends : conjunction.EndsBefore rest) :
    conjunction (expressionAt bound) (expression.tokens ++ rest) =
      .ok (expression, rest) :=
  (read bound fits rest (ends.of_subset (by decide))).stop
    (operatorAt_stops (ends.any_isAmong (by decide)) .and)

theorem nested (read : IsRead .disjunction expression)
    (fits : expression.tokens.length < bound.length) (ends : disjunction.EndsBefore rest) :
    expressionAt bound (expression.tokens ++ rest) = .ok (expression, rest) := by
  obtain ⟨_, bound, rfl⟩ := exists_cons_of_length_pos (Nat.zero_lt_of_lt fits)
  exact (read bound (Nat.le_of_lt_succ fits) rest (ends.of_subset (by decide))).stop
    (operatorAt_stops (ends.any_isAmong (by decide)) .or)

/-! ### Names -/

theorem identifier (name : String) : IsRead .place (.identifier name) :=
  fun _ _ => ⟨name, [], [], rfl, rfl, Parse.Items.none⟩

variable {owner left right : Expr} {operator : BinaryOperator}

/-- One more step after a name. -/
theorem step (read : IsRead .place owner) (fits : owner.tokens.length ≤ bound.length)
    {wrap : Expr → Expr} {token : Token} {tokens : List Token}
    (begins : beginsAccess token = true)
    (taken : ∀ rest, access (expressionAt bound) (token :: tokens ++ rest) =
      .ok (wrap, rest)) :
    ∃ name tail steps, owner.tokens ++ token :: tokens = .identifier name :: tail ∧
      steps.foldl (fun owner step => step owner) (.identifier name) = wrap owner ∧
      ∀ rest, Parse.Items beginsAccess (access (expressionAt bound)) (tail ++ rest) steps rest := by
  obtain ⟨name, tail, steps, printed, same, items⟩ := read bound fits
  refine ⟨name, tail ++ token :: tokens, steps ++ [wrap], ?_, ?_, fun rest => ?_⟩
  · rw [printed]
    rfl
  · rw [foldl_append, same]
    rfl
  · have last : Parse.Items beginsAccess (access (expressionAt bound))
        (token :: tokens ++ rest) [wrap] rest :=
      .more begins (taken rest) (by simp) (.none rest)
    rw [append_assoc]
    exact (items _).append last

theorem property (read : IsRead .place owner) (name : String) :
    IsRead .place (.property owner name) := by
  intro bound fits
  rw [tokens, length_append] at fits
  rw [IsReadWithin, tokens]
  have taken (rest : List Token) : access (expressionAt bound)
      ([.symbol .dot, .identifier name] ++ rest) =
        .ok (fun owner => .property owner name, rest) := rfl
  exact read.step (Nat.le_of_add_right_le fits) rfl taken

theorem index {position : Expr} (read : IsRead .place owner)
    (inside : IsRead .disjunction position) : IsRead .place (.index owner position) := by
  intro bound fits
  rw [tokens, length_append, length_cons, length_append] at fits
  rw [IsReadWithin, tokens]
  have taken (rest : List Token) : access (expressionAt bound)
      (.symbol .leftBracket :: (position.tokens ++ [.symbol .rightBracket]) ++ rest) =
        .ok (fun owner => .index owner position, rest) := by
    have read : expressionAt bound (position.tokens ++ .symbol .rightBracket :: rest) =
        .ok (position, .symbol .rightBracket :: rest) :=
      inside.nested (by omega) (by rintro _ ⟨⟩; rfl)
    rw [cons_append, append_assoc]
    show (expressionAt bound >>= fun index => do
      expect .rightBracket
      return fun owner : Expr => Expr.index owner index) _ = _
    exact bind_ok read
  exact read.step (Nat.le_of_add_right_le fits) rfl taken

/-- A name with its steps is an operand: what follows is no argument. -/
theorem place (read : IsRead .place expression) : IsRead .factor expression := by
  intro bound fits rest ends
  obtain ⟨name, tail, steps, printed, same, items⟩ := read bound fits
  have noArgument : (tail ++ rest).head?.any beginsArgument = false :=
    (items rest).head (ends.any_beginsArgument) fun token begins => by
      obtain ⟨sign, member, rfl⟩ := isAmong_iff.mp begins
      revert sign
      decide
  rw [printed]
  show (if (tail ++ rest).head?.any beginsArgument = true then _ else _ : Parse Expr) _ = _
  rw [noArgument, ← same]
  exact bind_ok ((items rest).manyWhile ends.any_beginsAccess)

/-! ### Lists -/

theorem endsBefore_tokensAfterCommas (others : List Expr) (rest : List Token) :
    disjunction.EndsBefore (tokensAfterCommas others ++ .symbol .rightBracket :: rest) := by
  cases others <;> (rintro _ ⟨⟩; rfl)

theorem elements {elements : List Expr} (read : ∀ element ∈ elements, IsRead .disjunction element)
    (fits : (tokensAfterCommas elements).length ≤ bound.length) (rest : List Token) :
    Parse.Items (isAmong [.comma]) (advance >>= fun _ => expressionAt bound)
      (tokensAfterCommas elements ++ .symbol .rightBracket :: rest) elements
      (.symbol .rightBracket :: rest) := by
  induction elements with
  | nil => exact .none _
  | cons element others ih =>
    rw [tokensAfterCommas, length_cons, length_append] at fits
    have taken := (read element mem_cons_self).nested (by omega : _ < bound.length)
      (endsBefore_tokensAfterCommas others rest)
    have later := ih (fun other member => read other (mem_cons_of_mem _ member)) (by omega)
    rw [tokensAfterCommas, cons_append, append_assoc]
    exact .more rfl taken (by simp) later

/-- All elements are read up to the bracket. -/
theorem elementsBefore {first : Expr} {others : List Expr}
    (printable : IsPrintable .disjunction first)
    (read : ∀ element ∈ first :: others, IsRead .disjunction element)
    (fits : (first.tokens ++ tokensAfterCommas others).length < bound.length)
    (rest : List Token) :
    elementsBefore (expressionAt bound)
      (first.tokens ++ (tokensAfterCommas others ++ .symbol .rightBracket :: rest)) =
        .ok (first :: others, .symbol .rightBracket :: rest) := by
  rw [length_append] at fits
  have taken := (read first mem_cons_self).nested (by omega : _ < bound.length)
    (endsBefore_tokensAfterCommas others rest)
  have items := elements (fun element member => read element (mem_cons_of_mem _ member))
    (by omega : _ ≤ bound.length) rest
  have separated : separated (expressionAt bound)
      (first.tokens ++ (tokensAfterCommas others ++ .symbol .rightBracket :: rest)) =
        .ok (first :: others, .symbol .rightBracket :: rest) :=
    (bind_ok taken).trans (bind_ok (items.manyWhile rfl))
  show (if (first.tokens ++ _).head?.any (isAmong [.rightBracket]) = true then _ else _ :
    Parse (List Expr)) _ = _
  rw [printable.any_isAmong (by decide)]
  exact separated

theorem list {elements : List Expr}
    (printable : ∀ element ∈ elements, IsPrintable .disjunction element)
    (read : ∀ element ∈ elements, IsRead .disjunction element) :
    IsRead .factor (.list elements) := by
  intro bound fits rest _
  cases elements with
  | nil => rfl
  | cons first others =>
    rw [tokens, ← append_assoc, length_cons, length_append] at fits
    have taken := elementsBefore (printable first mem_cons_self) read
      (by omega : _ < bound.length) rest
    have whole : listElements (expressionAt bound) (.symbol .leftBracket ::
        (first.tokens ++ (tokensAfterCommas others ++ .symbol .rightBracket :: rest))) =
          .ok (first :: others, rest) := by
      show (Parse.elementsBefore (Parse.expressionAt bound) >>= fun elements => do
        Parse.expect .rightBracket
        return elements) _ = _
      exact bind_ok taken
    rw [tokens, cons_append, append_assoc, append_assoc]
    show (listElements (expressionAt bound) >>= fun elements =>
      return Expr.list elements) _ = _
    exact bind_ok whole

/-! ### Operators -/

theorem product (known : operator ∈ [.times, .dividedBy]) (printable : IsPrintable .factor right)
    (first : IsRead .term left) (second : IsRead .factor right) :
    IsRead .term (.binary left operator right) := by
  intro bound fits rest ends
  rw [tokens, length_append, length_append] at fits
  obtain ⟨stands, taken⟩ := (by decide : ∀ operator ∈ [.times, .dividedBy],
    factor.EndsBefore operator.tokens ∧ operator.tokens ≠ []) operator known
  -- an operator before a line end would be dropped, but no operand begins with one
  have joined := multiplicativeOperator_reads (printable.any_isAmong (by decide) rest) known
  exact (first bound (by omega) _ (stands.append taken _)).more joined
    (second bound (by omega) rest ends) taken

theorem addition (known : operator ∈ [.plus, .minus]) (printable : IsPrintable .term right)
    (first : IsRead .sum left) (second : IsRead .term right) :
    IsRead .sum (.binary left operator right) := by
  intro bound fits rest ends
  rw [tokens, length_append, length_append] at fits
  obtain ⟨stands, taken⟩ := (by decide : ∀ operator ∈ [.plus, .minus],
    Layer.term.EndsBefore operator.tokens ∧ operator.tokens ≠ []) operator known
  have joined := additiveOperator_reads (printable.any_isAmong (by decide) rest) known
  exact (first bound (by omega) _ (stands.append taken _)).more joined
    (second.term (by omega) ends) taken

theorem arithmetic (read : IsRead .sum expression) : IsRead .comparison expression := by
  intro bound fits rest ends
  have left := read.sum fits (ends.of_subset (by decide))
  have stopped := comparisonOperator_stops (ends.any_isAmong (by decide))
  exact (bind_ok left).trans (bind_ok stopped)

theorem comparison
    (known : operator ∈ [.equals, .doesNotEqual, .isGreaterThan, .isLessThan, .isAtLeast,
      .isAtMost]) (first : IsRead .sum left) (second : IsRead .sum right) :
    IsRead .comparison (.binary left operator right) := by
  intro bound fits rest ends
  rw [tokens, length_append, length_append] at fits
  obtain ⟨stands, taken⟩ := (by decide : ∀ operator ∈ [.equals, .doesNotEqual, .isGreaterThan,
    .isLessThan, .isAtLeast, .isAtMost], Layer.sum.EndsBefore operator.tokens ∧
      operator.tokens ≠ []) operator known
  have before := first.sum (by omega : _ ≤ bound.length)
    (stands.append taken (right.tokens ++ rest))
  have joined := comparisonOperator_reads known (right.tokens ++ rest)
  have after := second.sum (by omega : _ ≤ bound.length) (ends.of_subset (by decide))
  rw [tokens, append_assoc, append_assoc]
  exact (bind_ok before).trans ((bind_ok joined).trans (bind_ok after))

theorem affirmation (printable : IsPrintable .comparison expression)
    (read : IsRead .comparison expression) : IsRead .negation expression := by
  intro bound fits rest ends
  show (if (expression.tokens ++ rest).head?.any (isAmong [.notWord]) = true then _ else _ :
    Parse Expr) _ = _
  rw [printable.any_isAmong (by decide)]
  exact read bound fits rest (ends.of_subset (by decide))

theorem negation (read : IsRead .comparison expression) :
    IsRead .negation (.unary .not expression) := by
  intro bound fits rest ends
  have operand := read bound (Nat.le_of_succ_le fits) rest (ends.of_subset (by decide))
  rw [tokens, cons_append]
  show (Parse.comparison (Parse.expressionAt bound) >>= fun operand =>
    return unary .not operand) _ = _
  exact bind_ok operand

theorem conjunctionOf (first : IsRead .conjunction left) (second : IsRead .negation right) :
    IsRead .conjunction (.binary left .and right) := by
  intro bound fits rest ends
  rw [tokens, length_append, length_append] at fits
  have stands : Layer.negation.EndsBefore BinaryOperator.and.tokens := by decide
  exact (first bound (by omega) _ (stands.append (by decide) _)).more rfl
    (second bound (by omega) rest ends) (by decide)

theorem disjunctionOf (first : IsRead .disjunction left) (second : IsRead .conjunction right) :
    IsRead .disjunction (.binary left .or right) := by
  intro bound fits rest ends
  rw [tokens, length_append, length_append] at fits
  have stands : Layer.conjunction.EndsBefore BinaryOperator.or.tokens := by decide
  exact (first bound (by omega) _ (stands.append (by decide) _)).more rfl
    (second.conjunction (by omega) ends) (by decide)

end Expr.IsRead

/-! ### All layers -/

theorem Expr.IsPrintable.isRead {layer : Layer} {expression : Expr}
    (printable : IsPrintable layer expression) : IsRead layer expression := by
  -- a chain grows at its right end, so the hypothesis for its left part speaks of a chain that may
  -- go on, and a layer is closed only where a looser one takes it as an operand
  induction printable with
  | identifier name => exact .identifier name
  | property name _ owner => exact owner.property name
  | index _ _ owner position => exact owner.index position
  | place _ read => exact read.place
  | number | string | nothing | pi => exact fun _ _ _ _ => rfl
  | boolean value => cases value <;> exact fun _ _ _ _ => rfl
  | list printable read => exact .list printable read
  | factor _ read => exact fun bound fits rest ends => .one (read bound fits rest ends)
  | product known _ printable left right => exact .product known printable left right
  | term _ read => exact fun bound fits rest ends => .one (read.term fits ends)
  | sum known _ printable left right => exact .addition known printable left right
  | arithmetic _ read => exact read.arithmetic
  | comparison known _ _ left right => exact .comparison known left right
  | affirmation printable read => exact .affirmation printable read
  | negation _ read => exact read.negation
  | single _ read => exact fun bound fits rest ends => .one (read bound fits rest ends)
  | conjunction _ _ left right => exact left.conjunctionOf right
  | only _ read => exact fun bound fits rest ends => .one (read.conjunction fits ends)
  | disjunction _ _ left right => exact left.disjunctionOf right

/-- Every printed expression of any size is read back from its tokens, and reading stops at what
follows, if that cannot go on with an expression. -/
theorem expression_of_tokens {expression : Expr} (printable : expression.IsPrintable .disjunction)
    {following : List Token} (ends : Layer.disjunction.EndsBefore following) :
    Parse.expression (expression.tokens ++ following) = .ok (expression, following) := by
  have fits : expression.tokens.length <
      (Parse.Bound.ofTokens (expression.tokens ++ following)).length := by
    rw [Parse.Bound.ofTokens, length_cons, length_append]
    omega
  exact printable.isRead.nested fits ends

/-- A negated comparison of a product with a list, before the `then` of a condition. The index of
the first factor is a sum, and an element of the list is a list. -/
theorem expression_of_tokens_before_then :
    let position : Expr := .binary (.number (.int 1)) .plus (.property (.identifier "row") "size")
    let product : Expr := .binary (.index (.identifier "total") position) .dividedBy .pi
    let denied : Expr := .unary .not (.binary product .equals (.list [.nothing, .list []]))
    let both : Expr := .binary (.identifier "ready") .and (.boolean true)
    let following : List Token := [.symbol .thenWord, .symbol .newline]
    (binary denied .or both).IsPrintable .disjunction ∧
      Layer.disjunction.EndsBefore following ∧
      expression [.symbol .notWord, .identifier "total", .symbol .leftBracket,
        .number (.int 1), .symbol .plus, .identifier "row", .symbol .dot, .identifier "size",
        .symbol .rightBracket, .symbol .divided, .symbol .byWord, .symbol .pi, .symbol .equals,
        .symbol .leftBracket, .symbol .nothing, .symbol .comma, .symbol .leftBracket,
        .symbol .rightBracket, .symbol .rightBracket, .symbol .orWord, .identifier "ready",
        .symbol .andWord, .symbol .trueWord, .symbol .thenWord, .symbol .newline] =
          .ok (.binary denied .or both, following) := by
  intro position product denied both following
  have index : position.IsPrintable .disjunction :=
    .only (.single (.affirmation (.arithmetic (.sum (by decide) (.term (.factor (.number _)))
      (.factor (.place (.property _ (.identifier _))))))))
  have divided : product.IsPrintable .sum :=
    .term (.product (by decide) (.factor (.place (.index (.identifier _) index))) .pi)
  have list : (list [.nothing, .list []]).IsPrintable .factor :=
    .list fun element member => by
      simp only [mem_cons, not_mem_nil, or_false] at member
      rcases member with rfl | rfl
      · exact .ofFactor .nothing
      · exact .ofFactor (.list (by simp))
  have negated : denied.IsPrintable .disjunction :=
    .only (.single (.negation (.comparison (by decide) divided (.term (.factor list)))))
  have joined : both.IsPrintable .conjunction :=
    .conjunction (.single (.affirmation (.arithmetic (.term (.factor (.place (.identifier _)))))))
      (.affirmation (.arithmetic (.term (.factor (.boolean _)))))
  have printable : (binary denied .or both).IsPrintable .disjunction :=
    .disjunction negated joined
  have ends : Layer.disjunction.EndsBefore following := by decide
  exact ⟨printable, ends, expression_of_tokens printable ends⟩

end Parlance
