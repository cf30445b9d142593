import Parlance.Proofs.Formation
import Parlance.Proofs.LineTokens

/-!
What no text can say. Some symbols are looked for where they cannot be found, and no text is read
into them; nodes that are formed from them only are in no program that is read from a text.
-/

namespace Parlance

/-! ### Symbols -/

/-- The symbols that no text is read into. -/
def Symbol.unwritten : List Symbol :=
  [.doesNotEqual, .isAtMost, .joinWith, .toFile, .getUsing, .byOperator]

namespace Lexer

/-- All tokens of a text but the last are read from its pieces. -/
theorem notMem_unwritten_of_tokensFrom {before cs : List Char} {found : List Token}
    (cut : tokensFrom before cs = .ok found) : Parse.OnlyMeet (· ∉ Symbol.unwritten) found := by
  have pieces : ((marks.map Prod.snd ++ wordSymbols).all fun sign =>
      sign ∉ Symbol.unwritten) = true := by decide
  induction cs using piecewise generalizing before found with
  | nil =>
    rw [tokensFrom_nil] at cut
    cases cut
    intro sign member
    cases List.mem_singleton.mp member
    decide
  | cons c rest ih =>
    obtain ⟨first, later, next, rfl, others⟩ := tokensFrom_cons cut
    intro sign member
    rcases List.mem_append.mp member with here | there
    · have listed := mem_symbols_of_token_piece next (Option.mem_toList.mp here)
      exact of_decide_eq_true (List.all_eq_true.mp pieces sign listed)
    · exact ih _ others sign there

end Lexer

/-- The tokens of a text are those that are scanned from its beginning. -/
theorem onlyMeet_of_tokens {text : String} {found : List Token} (cut : tokens text = .ok found) :
    Parse.OnlyMeet (· ∉ Symbol.unwritten) found :=
  Lexer.notMem_unwritten_of_tokensFrom cut

/-! ### Nodes -/

/-- Whether an operator is written with a symbol that no text is read into. -/
def BinaryOperator.isUnwritten : BinaryOperator → Bool
  | .doesNotEqual | .isAtMost => true
  | _ => false

/-- Whether an expression is one that no text forms, whatever is inside it. -/
def Expr.isUnwritten : Expr → Bool
  | .join _ _ | .contains _ _ | .slice _ _ _ => true
  | .binary _ operator _ => operator.isUnwritten
  | _ => false

/-- Whether a statement is one that no text forms, whatever is inside it. -/
def Stmt.isUnwritten : Stmt → Bool
  | .writeFile _ _ | .stopJob _ | .drawCircle _ _ _ _ | .drawText _ _ _ _ _ => true
  | .say parts => parts.length ≠ 1
  | _ => false

/-- Whether a statement is in a program, at any depth. -/
inductive Stmt.Within (program : List Stmt) : Stmt → Prop
  | top {statement : Stmt} : statement ∈ program → statement.Within program
  | inside {outer statement : Stmt} {body : List Stmt} : outer.Within program →
    body ∈ outer.blocks → statement ∈ body → statement.Within program

/-- Whether an expression is in a program, at any depth. -/
inductive Expr.Within (program : List Stmt) : Expr → Prop
  | top {statement : Stmt} {expression : Expr} : statement.Within program →
    expression ∈ statement.expressions → expression.Within program
  | inside {outer expression : Expr} : outer.Within program → expression ∈ outer.parts →
    expression.Within program

variable {met : Symbol → Prop} {program : List Stmt} {statement : Stmt} {expression : Expr}

theorem Stmt.Within.grown (within : statement.Within program) (grown : Stmt.AllGrown met program) :
    statement.Grown met := by
  induction within with
  | top member => exact grown _ member
  | inside _ block member ih =>
    cases ih with
    | intro _ _ inside => exact inside _ block _ member

theorem Expr.Within.grown (within : expression.Within program) (grown : Stmt.AllGrown met program) :
    expression.Grown met := by
  induction within with
  | top statement member =>
    cases statement.grown grown with
    | intro _ parts _ => exact parts _ member
  | inside _ member ih =>
    cases ih with
    | intro _ parts => exact parts _ member

theorem Expr.isUnwritten_of_isFormed (formed : expression.IsFormed (· ∉ Symbol.unwritten)) :
    expression.isUnwritten = false := by
  cases expression with
  | binary left operator right =>
    cases operator with
    | doesNotEqual => exact absurd (by decide) formed
    | isAtMost => exact absurd (by decide) formed
    | _ => rfl
  | join => exact absurd (by decide) formed
  | contains | slice => exact formed.elim
  | _ => rfl

theorem Stmt.isUnwritten_of_isFormed (formed : statement.IsFormed (· ∉ Symbol.unwritten)) :
    statement.isUnwritten = false := by
  cases statement with
  | say parts => exact decide_eq_false (not_not_intro formed)
  | writeFile => exact absurd (by decide) formed
  | stopJob | drawCircle | drawText => exact formed.elim
  | _ => rfl

/-! ### Texts -/

/-- A text is not read into the unwritten symbols, and no program that is read from it has an
unwritten node at any depth. -/
theorem unwritten_absent_of_text (text : String) : (∀ lexemes, lex text = .ok lexemes →
      ∀ lexeme ∈ lexemes, ∀ sign ∈ Symbol.unwritten, lexeme.token ≠ .symbol sign) ∧
    (∀ found program, tokens text = .ok found → parse found = .ok program →
      (∀ statement : Stmt, statement.Within program → statement.isUnwritten = false) ∧
      (∀ expression : Expr, expression.Within program → expression.isUnwritten = false)) := by
  constructor
  · intro lexemes cut lexeme member sign listed means
    have found : tokens text = .ok (lexemes.map Lexeme.token) := congrArg (Except.map _) cut
    refine onlyMeet_of_tokens found sign ?_ listed
    exact List.mem_map.mpr ⟨lexeme, member, means⟩
  · intro found program cut read
    have grown := Stmt.allGrown_of_parse (onlyMeet_of_tokens cut) read
    constructor
    · intro statement within
      cases within.grown grown with
      | intro formed _ _ => exact Stmt.isUnwritten_of_isFormed formed
    · intro expression within
      cases within.grown grown with
      | intro formed _ => exact Expr.isUnwritten_of_isFormed formed

theorem unwritten_absent_in_loop :
    let text := "do say a until b"
    let inner := Stmt.say [.identifier "a"]
    let program := [Stmt.doUntil [inner] (.identifier "b")]
    let found : List Token := [.symbol .doWord, .symbol .say, .identifier "a", .symbol .untilWord,
      .identifier "b", .symbol .endOfText]
    tokens text = .ok found ∧ parse found = .ok program ∧ inner.Within program ∧
      inner.isUnwritten = false := by
  intro text inner program found
  have cut : tokens text = .ok found := by decide +kernel
  have read : parse found = .ok program := rfl
  have within : inner.Within program :=
    .inside (.top List.mem_cons_self) List.mem_cons_self List.mem_cons_self
  exact ⟨cut, read, within,
    ((unwritten_absent_of_text text).2 found program cut read).1 inner within⟩

end Parlance
