import Parlance.Proofs.Reading

/-!
Statements are read in related ways if expressions and the statements inside them are.
-/

namespace Parlance.ReadCongruence

variable {related : ReadRelation} {ends : Option Token → Option Token → Prop}
  {refuses : RefusalRelation} (law : ReadCongruence related ends refuses)
  (expressions : related .anywhere .surely Expr Parse.expression Parse.expression)

include law

/-! ### Parts of statements -/

theorem headerNames : related .anywhere .perhaps _ Parse.headerNames Parse.headerNames := by
  refine law.lookOr (fun token _ => law.atWord ?_) (law.pure []) rfl rfl
  split
  · exact law.perhaps (law.separated law.expectString)
  · exact law.pure []

theorem headers : related .anywhere .perhaps _ Parse.headers Parse.headers :=
  law.past rfl (law.bind law.headerNames fun _ => law.past rfl (law.pure _))

theorem answerKind : related .anywhere .perhaps _ Parse.answerKind Parse.answerKind := by
  refine law.lookOr (fun token _ => ?_) (law.pure AnswerKind.string) rfl rfl
  split
  · refine law.perhaps (law.taking (law.branch ⟨rfl, rfl⟩ ?_ (law.pure _)))
    exact law.perhaps (law.taking (law.pure _))
  · refine law.perhaps (law.taking ?_)
    exact law.giving (law.expectAll ⟨rfl, rfl⟩)
  · exact law.atWord (law.pure _)

theorem routeMethod : related .anywhere .perhaps _ Parse.routeMethod Parse.routeMethod := by
  refine law.lookOr (fun token _ => ?_) (law.pure "GET") rfl rfl
  split
  · exact law.perhaps (law.taking (law.pure _))
  · exact law.perhaps (law.taking (law.pure _))
  · exact law.atWord (law.pure _)

theorem color : related .anywhere .perhaps _ Parse.color Parse.color :=
  law.past rfl (law.perhaps law.expectString)

/-! ### Statements without statements inside -/

section

include expressions

theorem point : related .anywhere .perhaps _ Parse.point Parse.point := by
  refine law.andThen expressions fun _ => law.past rfl ?_
  exact law.lastly expressions

theorem caseEnd (low : Expr) :
    related .anywhere .perhaps _ (Parse.caseEnd low) (Parse.caseEnd low) :=
  law.branch ⟨rfl, rfl⟩ (law.perhaps (law.taking (law.perhaps expressions))) (law.pure low)

theorem assigned : related .anywhere .surely _ Parse.assigned Parse.assigned := by
  refine law.lookOr (fun token _ => ?_) expressions rfl rfl
  split
  · refine law.taking (law.past rfl (law.andThen law.expectString fun _ => ?_))
    exact law.giving (law.requestParameters expressions)
  · exact law.atWord (law.descent.dictionary expressions)
  · exact law.atWord (law.descent.object expressions)
  · exact law.atWord expressions

theorem nameStatement : related .anywhere .surely _ Parse.nameStatement Parse.nameStatement := by
  refine law.bind law.expectIdentifier fun name => ?_
  refine law.bind (law.manyWhile ⟨rfl, rfl⟩ (law.access expressions)) fun accesses => ?_
  have words : OnlyWords Parse.beginsStatementArgument := ⟨rfl, rfl⟩
  have call := law.bind (law.manyWhile words (law.atWord expressions)) fun arguments =>
    law.pure (Stmt.call name arguments)
  refine law.lookOr (fun token _ => ?_) call rfl rfl
  split
  · exact law.perhaps (law.taking (law.lastly (law.assigned expressions)))
  · exact law.perhaps (law.taking (law.lastly expressions))
  · refine law.perhaps (law.taking (law.past rfl ?_))
    exact law.lastly expressions
  · refine law.perhaps (law.taking (law.past rfl ?_))
    exact law.lastly expressions
  · exact law.atWord call

theorem shape : related .anywhere .perhaps _ Parse.shape Parse.shape := by
  refine law.lookOr (fun token _ => ?_) (law.pure none) rfl rfl
  split
  · refine law.perhaps (law.taking (law.past rfl ?_))
    refine law.bind (law.point expressions) fun _ => ?_
    refine law.pastAll rfl (law.andThen expressions fun _ => ?_)
    exact law.past rfl (law.giving law.color)
  iterate 2
    · refine law.perhaps (law.taking (law.past rfl ?_))
      refine law.bind (law.point expressions) fun _ => law.past rfl ?_
      refine law.bind (law.point expressions) fun _ => law.past rfl ?_
      exact law.giving law.color
  · refine law.perhaps (law.taking (law.andThen expressions fun _ => law.past rfl ?_))
    refine law.bind (law.point expressions) fun _ => ?_
    refine law.pastAll rfl (law.andThen expressions fun _ => ?_)
    exact law.past rfl (law.giving law.color)
  · exact law.atWord (law.pure none)

end

/-! ### Statements with statements inside -/

section

variable {nested inner : Parse (Option Stmt)} (same : related .atWord .surely _ nested inner)
  (refused : refuses (Option Stmt) nested inner)

include same refused

theorem block {closers : List Symbol} (words : OnlyWords (Parse.isAmong closers)) :
    related .anywhere .perhaps _ (Parse.block closers nested) (Parse.block closers inner) :=
  law.giving (law.lines words refused same)

theorem blockToEnd :
    related .anywhere .perhaps _ (Parse.blockToEnd nested) (Parse.blockToEnd inner) :=
  law.bind (law.block same refused ⟨rfl, rfl⟩) fun _ => law.past rfl (law.pure _)

theorem otherwiseBlock :
    related .anywhere .perhaps _ (Parse.otherwiseBlock nested) (Parse.otherwiseBlock inner) := by
  refine law.branch ⟨rfl, rfl⟩ (law.perhaps (law.taking ?_)) (law.pure none)
  exact law.giving (law.block same refused ⟨rfl, rfl⟩)

theorem route : related .anywhere .surely _ (Parse.route nested) (Parse.route inner) := by
  refine law.bind (law.expect ⟨rfl, rfl⟩) fun _ => law.bind law.routeMethod fun method => ?_
  refine law.andThen law.expectString fun path => ?_
  exact law.giving (law.block same refused ⟨rfl, rfl⟩)

include expressions

theorem choiceCase :
    related .anywhere .surely _ (Parse.choiceCase nested) (Parse.choiceCase inner) := by
  refine law.bind (law.expect ⟨rfl, rfl⟩) fun _ => law.andThen expressions fun low => ?_
  refine law.bind (law.caseEnd expressions low) fun high => ?_
  exact law.giving (law.block same refused ⟨rfl, rfl⟩)

theorem countedLoop :
    related .anywhere .surely _ (Parse.countedLoop nested) (Parse.countedLoop inner) := by
  refine law.bind expressions fun count => law.branch ⟨rfl, rfl⟩ ?_ ?_
  · refine law.perhaps (law.taking ?_)
    exact law.giving (law.blockToEnd same refused)
  · refine law.perhaps (law.lookOrFail .expectedTimes (fun _ _ => ?_) rfl rfl)
    exact law.atWord (law.fail _)

theorem loop : related .anywhere .surely _ (Parse.loop nested) (Parse.loop inner) := by
  refine law.lookOr (fun token _ => ?_) (law.countedLoop expressions same refused)
    rfl rfl
  split
  · exact law.taking (law.giving (law.blockToEnd same refused))
  · refine law.taking (law.andThen expressions fun _ => ?_)
    exact law.giving (law.blockToEnd same refused)
  · exact law.atWord (law.countedLoop expressions same refused)

theorem timed : related .anywhere .perhaps _ (Parse.timed nested) (Parse.timed inner) := by
  refine law.andThen expressions fun _ => law.pastAll rfl ?_
  exact law.giving (law.blockToEnd same refused)

/-- What follows the word of a statement. The cases are in the order of the words there. -/
theorem afterWord (sign : Symbol) : Option.Rel (related .anywhere .perhaps (Option Stmt))
    (Parse.afterWord? nested sign) (Parse.afterWord? inner sign) := by
  unfold Parse.afterWord?
  split
  case h_31 => exact .none
  all_goals refine .some ?_
  · refine law.andThen expressions fun _ => law.giving (law.manyWhile ⟨rfl, rfl⟩ ?_)
    exact law.taking (law.perhaps expressions)
  · exact law.lastly expressions
  · exact law.past rfl (law.pure _)
  · refine law.pastAll rfl (law.bind law.headers fun _ => ?_)
    exact law.pastAll rfl (law.lastly expressions)
  · refine law.bind law.answerKind fun _ => law.andThen law.expectString fun _ => ?_
    exact law.past rfl (law.lastly law.expectIdentifier)
  · refine law.andThen expressions fun _ => law.past rfl ?_
    refine law.bind (law.block same refused ⟨rfl, rfl⟩) fun _ => ?_
    exact law.bind (law.otherwiseBlock same refused) fun _ => law.past rfl (law.pure _)
  · exact law.lastly (law.loop expressions same refused)
  · refine law.bind (law.block same refused ⟨rfl, rfl⟩) fun _ => law.past rfl ?_
    exact law.lastly expressions
  · exact law.pure _
  · exact law.pure _
  · exact law.pure _
  · refine law.andThen law.expectIdentifier fun _ => law.past rfl ?_
    refine law.bind (law.manyWhile ⟨rfl, rfl⟩ (law.atWord law.expectIdentifier)) fun _ => ?_
    exact law.giving (law.blockToEnd same refused)
  · refine law.branchAtLineEnd fun seen => ?_
    split
    · exact law.pure _
    · exact law.lastly expressions
  · refine law.andThen expressions fun _ => law.bind (law.lines ⟨rfl, rfl⟩ ?_ ?_) fun _ =>
      law.past rfl (law.pure _)
    · exact law.refuseBind law.refuseWhen
    · exact law.atWord (law.choiceCase expressions same refused)
  · refine law.andThen expressions fun _ => law.past rfl ?_
    exact law.lastly expressions
  · refine law.branch ⟨rfl, rfl⟩ (law.perhaps (law.taking ?_)) ?_
    · refine law.andThen expressions fun _ => law.past rfl ?_
      exact law.lastly expressions
    · refine law.andThen expressions fun _ => law.past rfl ?_
      exact law.lastly expressions
  · exact law.lastly expressions
  · exact law.lastly expressions
  · exact law.lastly expressions
  · refine law.andThen expressions fun _ => law.pastAll rfl ?_
    exact law.lastly law.expectString
  · exact law.shape expressions
  · refine law.pastAll rfl (law.andThen expressions fun _ => ?_)
    exact law.giving (law.blockToEnd same refused)
  · exact law.andThen expressions fun _ => law.past rfl (law.pure _)
  · exact law.giving (law.timed expressions same refused)
  · exact law.giving (law.timed expressions same refused)
  · refine law.branch ⟨rfl, rfl⟩ (law.perhaps (law.taking ?_)) ?_
    · exact law.lastly law.expectString
    · exact law.lastly law.expectString
  · exact law.lastly law.expectString
  · refine law.pastAll rfl (law.andThen expressions fun _ => ?_)
    refine law.bind (law.lines ⟨rfl, rfl⟩ ?_ ?_) fun _ => law.past rfl (law.pure _)
    · exact law.refuseBind law.refuseWhen
    · exact law.atWord (law.route same refused)
  · refine law.andThen law.expectString fun _ => law.past rfl ?_
    exact law.giving (law.timed expressions same refused)
  · refine law.andThen law.expectString fun _ => ?_
    exact law.giving (law.blockToEnd same refused)

end

end Parlance.ReadCongruence

namespace Parlance

/-- The reader of the statement that a token begins; nothing if it begins none. -/
def Parse.statementFrom? (nested : Parse (Option Stmt)) : Token → Option (Parse (Option Stmt))
  | .identifier _ => some do return some (← nameStatement)
  | .symbol sign => (afterWord? nested sign).map fun rest => do
    advance
    rest
  | _ => none

theorem Parse.atStatement_eq (nested : Parse (Option Stmt)) : atStatement nested =
      current? >>= fun found => (found.bind (statementFrom? nested)).getD (Pure.pure none) := by
  refine congrArg (current? >>= ·) (funext fun found => ?_)
  cases found with
  | none => rfl
  | some token =>
    cases token with
    | symbol sign =>
      dsimp only
      show _ = ((afterWord? nested sign).map fun rest => advance >>= fun _ => rest).getD _
      cases afterWord? nested sign <;> rfl
    | _ => rfl

section

variable {related later : ReadRelation} {ends : Option Token → Option Token → Prop}
  {refuses : RefusalRelation}
  (outer : related .anywhere .surely Expr Parse.expression Parse.expression)
  (expressions : later .anywhere .surely Expr Parse.expression Parse.expression)
  {nested inner : Parse (Option Stmt)}

include outer expressions

/-- What begins with a token is read in related ways, and takes that token. -/
theorem ReadDescent.statementFrom (link : ReadDescent related later ends refuses)
    (same : later .atWord .surely _ nested inner) (refused : refuses (Option Stmt) nested inner)
    (token : Token) : Option.Rel (related .atWord .surely (Option Stmt))
      (Parse.statementFrom? nested token) (Parse.statementFrom? inner token) := by
  cases token with
  | number value => exact .none
  | string value => exact .none
  | identifier name =>
    exact .some (link.law.atWord (link.law.giving (link.law.nameStatement outer)))
  | symbol sign =>
    have rest := link.lower.afterWord expressions same refused sign
    show Option.Rel _ ((Parse.afterWord? nested sign).map _) ((Parse.afterWord? inner sign).map _)
    revert rest
    cases Parse.afterWord? nested sign <;> cases Parse.afterWord? inner sign <;> rintro (_ | _)
    · exact .none
    · rename_i rest
      exact .some (link.taking rest)

end

theorem ReadCongruence.atStatement {related : ReadRelation}
    {ends : Option Token → Option Token → Prop} {refuses : RefusalRelation}
    (law : ReadCongruence related ends refuses)
    (expressions : related .anywhere .surely Expr Parse.expression Parse.expression)
    {nested inner : Parse (Option Stmt)} (same : related .atWord .surely _ nested inner)
    (refused : refuses (Option Stmt) nested inner) :
    related .atWord .perhaps _ (Parse.atStatement nested) (Parse.atStatement inner) := by
  rw [Parse.atStatement_eq, Parse.atStatement_eq]
  refine law.look fun token _ => ?_
  have begun := law.descent.statementFrom expressions expressions same refused token
  revert begun
  show Option.Rel _ (Parse.statementFrom? nested token) (Parse.statementFrom? inner token) →
    related .atWord .perhaps _ ((Parse.statementFrom? nested token).getD (pure none))
      ((Parse.statementFrom? inner token).getD (pure none))
  cases Parse.statementFrom? nested token <;> cases Parse.statementFrom? inner token <;>
    rintro (_ | _)
  · exact law.atWord (law.pure none)
  · rename_i begun
    exact law.perhaps begun

/-! ### Statements that are not there -/

namespace Parse

/-- The alarm that is a stall as well. -/
def silent (_ : List Token) : ParseFailure := .stalled

/-- Raises an alarm if the reader gave nothing and took nothing. -/
def orAlarm (alarm : List Token → ParseFailure) (reader : Parse (Option Stmt)) :
    Parse (Option Stmt) := do
  let before ← get
  let statement ← reader
  let after ← get
  if statement.isNone && after.length = before.length then throw (alarm before)
  else return statement

theorem orAlarm_apply (alarm : List Token → ParseFailure) (reader : Parse (Option Stmt))
    (tokens : List Token) :
    orAlarm alarm reader tokens = (reader tokens).bind fun found =>
      if found.1.isNone && found.2.length = tokens.length then .error (alarm tokens)
      else .ok found := by
  show (reader tokens).bind (fun found =>
    (if found.1.isNone && found.2.length = tokens.length then throw (alarm tokens)
      else pure found.1 : Parse (Option Stmt)) found.2) = _
  refine congrArg (Except.bind (reader tokens)) (funext fun found => ?_)
  split <;> rfl

end Parse

end Parlance
