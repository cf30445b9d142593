import Parlance.Parse.Expression

/-!
The tokens of an expression, and the expressions that tokens can be read back from. These are
layered as reading layers them. Chains of operators nest to the left, and nothing is put into
brackets but indices and lists.
-/

namespace Parlance

open Parse

/-! ### Tokens of expressions -/

def BinaryOperator.tokens : BinaryOperator → List Token
  | .plus => [.symbol .plus]
  | .minus => [.symbol .minus]
  | .times => [.symbol .timesOperator]
  | .dividedBy => [.symbol .divided, .symbol .byWord]
  | .equals => [.symbol .equals]
  | .doesNotEqual => [.symbol .doesNotEqual]
  | .isGreaterThan => [.symbol .isGreaterThan]
  | .isLessThan => [.symbol .isLessThan]
  | .isAtLeast => [.symbol .isAtLeast]
  | .isAtMost => [.symbol .isAtMost]
  | .and => [.symbol .andWord]
  | .or => [.symbol .orWord]
  | .unknown _ => []

mutual

/-- The tokens of an expression. Forms that are not printed have none. -/
def Expr.tokens : Expr → List Token
  | .number value => [.number value]
  | .string value => [.string value]
  | .boolean value => [.symbol (if value then .trueWord else .falseWord)]
  | .nothing => [.symbol .nothing]
  | .pi => [.symbol .pi]
  | .identifier name => [.identifier name]
  | .property owner name => owner.tokens ++ [.symbol .dot, .identifier name]
  | .index owner position =>
    owner.tokens ++ .symbol .leftBracket :: (position.tokens ++ [.symbol .rightBracket])
  | .list [] => [.symbol .leftBracket, .symbol .rightBracket]
  | .list (first :: rest) =>
    .symbol .leftBracket ::
      (first.tokens ++ (Expr.tokensAfterCommas rest ++ [.symbol .rightBracket]))
  | .unary .not operand => .symbol .notWord :: operand.tokens
  | .binary left operator right => left.tokens ++ (operator.tokens ++ right.tokens)
  | _ => []

def Expr.tokensAfterCommas : List Expr → List Token
  | [] => []
  | expression :: rest => .symbol .comma :: (expression.tokens ++ Expr.tokensAfterCommas rest)

end

/-! ### Layers -/

/-- The layers of expressions, tightest first. -/
inductive Layer where
  /-- A name with properties and indices. -/
  | place
  | factor | term | sum | comparison | negation | conjunction | disjunction
deriving Repr, DecidableEq

/-- The expressions of each layer that are printed. -/
inductive Expr.IsPrintable : Layer → Expr → Prop where
  | identifier (name : String) : IsPrintable .place (.identifier name)
  | property {owner : Expr} (name : String) : IsPrintable .place owner →
    IsPrintable .place (.property owner name)
  | index {owner position : Expr} : IsPrintable .place owner →
    IsPrintable .disjunction position → IsPrintable .place (.index owner position)
  | place {expression : Expr} : IsPrintable .place expression → IsPrintable .factor expression
  | number (value : Number) : IsPrintable .factor (.number value)
  | string (value : String) : IsPrintable .factor (.string value)
  | boolean (value : Bool) : IsPrintable .factor (.boolean value)
  | nothing : IsPrintable .factor .nothing
  | pi : IsPrintable .factor .pi
  | list {elements : List Expr} : (∀ element ∈ elements, IsPrintable .disjunction element) →
    IsPrintable .factor (.list elements)
  | factor {expression : Expr} : IsPrintable .factor expression → IsPrintable .term expression
  | product {left right : Expr} {operator : BinaryOperator} :
    operator ∈ [.times, .dividedBy] → IsPrintable .term left → IsPrintable .factor right →
      IsPrintable .term (.binary left operator right)
  | term {expression : Expr} : IsPrintable .term expression → IsPrintable .sum expression
  | sum {left right : Expr} {operator : BinaryOperator} :
    operator ∈ [.plus, .minus] → IsPrintable .sum left → IsPrintable .term right →
      IsPrintable .sum (.binary left operator right)
  | arithmetic {expression : Expr} : IsPrintable .sum expression →
    IsPrintable .comparison expression
  | comparison {left right : Expr} {operator : BinaryOperator} :
    operator ∈ [.equals, .doesNotEqual, .isGreaterThan, .isLessThan, .isAtLeast, .isAtMost] →
      IsPrintable .sum left → IsPrintable .sum right →
        IsPrintable .comparison (.binary left operator right)
  | affirmation {expression : Expr} : IsPrintable .comparison expression →
    IsPrintable .negation expression
  | negation {expression : Expr} : IsPrintable .comparison expression →
    IsPrintable .negation (.unary .not expression)
  | single {expression : Expr} : IsPrintable .negation expression →
    IsPrintable .conjunction expression
  | conjunction {left right : Expr} : IsPrintable .conjunction left → IsPrintable .negation right →
    IsPrintable .conjunction (.binary left .and right)
  | only {expression : Expr} : IsPrintable .conjunction expression →
    IsPrintable .disjunction expression
  | disjunction {left right : Expr} : IsPrintable .disjunction left →
    IsPrintable .conjunction right → IsPrintable .disjunction (.binary left .or right)

variable {symbols : List Symbol} {layer : Layer} {expression : Expr}

/-- Names, literals and lists are printed. -/
theorem Expr.IsPrintable.ofFactor (printable : IsPrintable .factor expression) :
    IsPrintable .disjunction expression :=
  .only (.single (.affirmation (.arithmetic (.term (.factor printable)))))

theorem Parse.isAmong_iff {token : Token} :
    isAmong symbols token = true ↔ ∃ sign ∈ symbols, token = .symbol sign := by
  cases token <;> simp [isAmong]

namespace Layer

def operators : Layer → List Symbol
  | .place | .factor => []
  | .term => [.timesOperator, .divided]
  | .sum => [.timesOperator, .divided, .plus, .minus]
  | .comparison | .negation =>
    [.timesOperator, .divided, .plus, .minus, .equals, .doesNotEqual, .isGreaterThan, .isLessThan,
     .isAtLeast, .isAtMost]
  | .conjunction =>
    [.timesOperator, .divided, .plus, .minus, .equals, .doesNotEqual, .isGreaterThan, .isLessThan,
     .isAtLeast, .isAtMost, .andWord]
  | .disjunction =>
    [.timesOperator, .divided, .plus, .minus, .equals, .doesNotEqual, .isGreaterThan, .isLessThan,
     .isAtLeast, .isAtMost, .andWord, .orWord]

/-- Whether a token can go on with an expression of a layer: it is an operator, or it follows a name
as an argument, a property or an index. -/
def continues (layer : Layer) (token : Token) : Bool :=
  beginsArgument token || beginsAccess token || isAmong layer.operators token

variable {token : Token} {symbols : List Symbol}

theorem continues_eq_false_iff {layer : Layer} :
    layer.continues token = false ↔ beginsArgument token = false ∧
      beginsAccess token = false ∧ isAmong layer.operators token = false := by
  rw [continues, Bool.or_eq_false_iff, Bool.or_eq_false_iff, and_assoc]

def EndsBefore (layer : Layer) (tokens : List Token) : Prop :=
  ∀ token ∈ tokens.head?, layer.continues token = false

instance (layer : Layer) (tokens : List Token) : Decidable (layer.EndsBefore tokens) :=
  inferInstanceAs (Decidable (∀ token ∈ tokens.head?, layer.continues token = false))

/-- What ends a line, a condition, an element and an index ends an expression. -/
example : ∀ sign ∈ [.newline, .endOfText, .thenWord, .comma, .rightBracket],
    disjunction.EndsBefore [.symbol sign] := by
  decide

variable {tighter looser : Layer} {tokens : List Token}

theorem EndsBefore.append (ends : looser.EndsBefore tokens) (some : tokens ≠ [])
    (rest : List Token) : looser.EndsBefore (tokens ++ rest) := by
  obtain ⟨token, tail, rfl⟩ := List.exists_cons_of_ne_nil some
  exact ends

/-- No argument of a call is next. -/
theorem EndsBefore.any_beginsArgument (ends : looser.EndsBefore tokens) :
    tokens.head?.any beginsArgument = false := by
  cases tokens with
  | nil => rfl
  | cons token rest => exact (continues_eq_false_iff.mp (ends token rfl)).1

/-- No property or index is next. -/
theorem EndsBefore.any_beginsAccess (ends : looser.EndsBefore tokens) :
    tokens.head?.any beginsAccess = false := by
  cases tokens with
  | nil => rfl
  | cons token rest => exact (continues_eq_false_iff.mp (ends token rfl)).2.1

/-- No operator of the layer is next. -/
theorem EndsBefore.isAmong_eq_false (ends : looser.EndsBefore tokens) (head : token ∈ tokens.head?)
    (fewer : symbols ⊆ looser.operators) : isAmong symbols token = false := by
  have stops := (continues_eq_false_iff.mp (ends token head)).2.2
  refine Bool.eq_false_iff.mpr fun among => Bool.eq_false_iff.mp stops ?_
  obtain ⟨sign, member, rfl⟩ := isAmong_iff.mp among
  exact isAmong_iff.mpr ⟨sign, fewer member, rfl⟩

theorem EndsBefore.any_isAmong (ends : looser.EndsBefore tokens)
    (fewer : symbols ⊆ looser.operators) : tokens.head?.any (isAmong symbols) = false := by
  cases tokens with
  | nil => rfl
  | cons token rest => exact ends.isAmong_eq_false rfl fewer

/-- What ends an expression of a looser layer ends one of a tighter layer. -/
theorem EndsBefore.of_subset (ends : looser.EndsBefore tokens)
    (fewer : tighter.operators ⊆ looser.operators) : tighter.EndsBefore tokens := by
  intro token head
  obtain ⟨noArgument, noAccess, _⟩ := continues_eq_false_iff.mp (ends token head)
  exact continues_eq_false_iff.mpr ⟨noArgument, noAccess, ends.isAmong_eq_false head fewer⟩

end Layer

/-! ### First tokens -/

def beginsOperand : Token → Bool
  | .number _ | .string _ | .identifier _ => true
  | .symbol sign => [.trueWord, .falseWord, .nothing, .pi, .leftBracket].contains sign

def Layer.begins : Layer → Token → Bool
  | .negation, token | .conjunction, token | .disjunction, token =>
    beginsOperand token || isAmong [.notWord] token
  | _, token => beginsOperand token

theorem Expr.IsPrintable.head (printable : IsPrintable layer expression) :
    ∃ token rest, expression.tokens = token :: rest ∧ layer.begins token = true := by
  induction printable with
  | identifier | number | string | nothing | pi | negation =>
    exact ⟨_, _, rfl, rfl⟩
  | boolean value => cases value <;> exact ⟨_, _, rfl, rfl⟩
  | @list elements => cases elements <;> exact ⟨_, _, rfl, rfl⟩
  | place _ ih | factor _ ih | term _ ih
  | arithmetic _ ih | single _ ih
  | only _ ih => exact ih
  | affirmation _ ih =>
    obtain ⟨token, rest, tokens, begins⟩ := ih
    exact ⟨token, rest, tokens, Bool.or_eq_true_iff.mpr (.inl begins)⟩
  | property _ _ ih | index _ _ ih
  | product _ _ _ ih | sum _ _ _ ih
  | comparison _ _ _ ih | conjunction _ _ ih
  | disjunction _ _ ih =>
    obtain ⟨token, rest, tokens, begins⟩ := ih
    exact ⟨token, _, by rw [Expr.tokens, tokens]; rfl, begins⟩

/-- The first token of a printed expression is none of the symbols that begin no expression. -/
theorem Expr.IsPrintable.any_isAmong (printable : IsPrintable layer expression)
    (others : ∀ sign ∈ symbols, layer.begins (.symbol sign) = false) (rest : List Token) :
    (expression.tokens ++ rest).head?.any (isAmong symbols) = false := by
  obtain ⟨token, tail, printed, begins⟩ := printable.head
  rw [printed]
  refine Bool.eq_false_iff.mpr fun among => ?_
  obtain ⟨sign, member, rfl⟩ := isAmong_iff.mp among
  rw [others sign member] at begins
  cases begins

end Parlance
