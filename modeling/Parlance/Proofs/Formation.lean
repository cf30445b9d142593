import Parlance.Proofs.Reading

/-!
What readers form. Some nodes are never formed: a reader that asks for `and` after an expression
waits in vain, because the expression has taken every `and` that follows. A reader leads from some
places to others if it gives only values with a property whenever it begins at one of the former,
and stops at one of the latter then.
-/

namespace Parlance

open List

variable {α β : Type}

/-! ### Parts and blocks -/

@[simp] def Expr.parts : Expr → List Expr
  | .binary left _ right => [left, right]
  | .unary _ operand => [operand]
  | .property owner _ => [owner]
  | .index owner place => [owner, place]
  | .list elements => elements
  | .dictionary pairs | .object pairs | .get _ pairs | .post _ pairs => pairs.map Prod.snd
  | .call _ arguments | .foreignCall _ arguments => arguments
  | .find value container => [value, container]
  | .filter items condition => [items, condition]
  | .map items transform => [items, transform]
  | .split subject _ | .join subject _ | .replace subject _ _ | .contains subject _ => [subject]
  | .slice subject start stop => [subject, start, stop]
  | .createCanvas width height => [width, height]
  | _ => []

/-- The expressions of a statement, apart from those of its blocks. -/
@[simp] def Stmt.expressions : Stmt → List Expr
  | .assign target value => [target, value]
  | .change target _ value => target :: value.toList
  | .say parts | .call _ parts => parts
  | .print value | .showTable _ value | .writeFile value _ | .branch value _ _
  | .repeatTimes value _ | .repeatUntil value _ | .doUntil _ value | .sort value | .reverse value
  | .shuffle value | .whenMouseClicks value _ | .wait value | .after _ value _ | .every value _
  | .server value _ | .job _ value _ => [value]
  | .giveBack value => value.toList
  | .choose subject cases => subject :: cases.flatMap fun case => [case.low, case.high]
  | .add list value => [list, value]
  | .remove list value place => list :: (value.toList ++ place.toList)
  | .drawCircle x y size _ => [x, y, size]
  | .drawRectangle x₁ y₁ x₂ y₂ _ | .drawLine x₁ y₁ x₂ y₂ _ => [x₁, y₁, x₂, y₂]
  | .drawText content x y size _ => [content, x, y, size]
  | _ => []

@[simp] def Stmt.blocks : Stmt → List (List Stmt)
  | .branch _ yes no => yes :: no.toList
  | .repeatForever body | .repeatTimes _ body | .repeatUntil _ body | .doUntil body _
  | .define _ _ body | .whenMouseClicks _ body | .after _ _ body | .every _ body | .job _ _ body
  | .cron _ body => [body]
  | .choose _ cases => cases.map Case.body
  | .server _ routes => routes.map Route.body
  | _ => []

/-! ### What is formed -/

/-- Whether an operator is formed by readers that meet such symbols. -/
@[simp] def BinaryOperator.IsFormed (met : Symbol → Prop) : BinaryOperator → Prop
  | .doesNotEqual => met .doesNotEqual
  | .isAtMost => met .isAtMost
  | .unknown _ => False
  | _ => True

/-- Whether an expression can stand on the left of an assignment. -/
def Expr.IsTarget : Expr → Prop
  | .identifier _ | .property _ _ | .index _ _ => True
  | _ => False

/-- Whether a node is formed by readers that meet such symbols, whatever is inside it. -/
@[simp] def Expr.IsFormed (met : Symbol → Prop) : Expr → Prop
  | .binary _ operator _ => operator.IsFormed met
  | .unary operator _ => operator = .not
  | .join _ _ => met .joinWith
  | .undefined _ | .contains _ _ | .slice _ _ _ | .misplaced _ | .absent => False
  | _ => True

/-- Whether a node is formed by readers that meet such symbols, whatever is inside it. -/
@[simp] def Stmt.IsFormed (met : Symbol → Prop) : Stmt → Prop
  | .assign target _ => target.IsTarget
  | .change target _ value => target.IsTarget ∧ value.isSome = true
  | .say parts => parts.length = 1
  | .remove _ value place => value.isSome = true ∨ place.isSome = true
  | .writeFile _ _ => met .toFile
  | .drawCircle _ _ _ _ | .drawText _ _ _ _ _ | .stopJob _ | .misplaced _ | .absent => False
  | _ => True

/-- Whether an expression and everything inside it are formed. -/
inductive Expr.Grown (met : Symbol → Prop) : Expr → Prop
  | intro {expression : Expr} : expression.IsFormed met →
    (∀ part ∈ expression.parts, part.Grown met) → expression.Grown met

/-- Whether a statement and everything inside it are formed. -/
inductive Stmt.Grown (met : Symbol → Prop) : Stmt → Prop
  | intro {statement : Stmt} : statement.IsFormed met →
    (∀ expression ∈ statement.expressions, expression.Grown met) →
    (∀ body ∈ statement.blocks, ∀ inner ∈ body, inner.Grown met) → statement.Grown met

/-- Whether all statements of a block have grown. -/
def Stmt.AllGrown (met : Symbol → Prop) (body : List Stmt) : Prop :=
  ∀ statement ∈ body, statement.Grown met

/-- What is formed of grown parts has grown. -/
theorem Stmt.Grown.of {met : Symbol → Prop} {statement : Stmt}
    (formed : statement.IsFormed met ∧ (∀ part ∈ statement.expressions, part.Grown met) ∧
      ∀ body ∈ statement.blocks, AllGrown met body) : statement.Grown met :=
  .intro formed.1 formed.2.1 formed.2.2

namespace Parse

/-! ### Places and values -/

/-- Whether a reader that begins where the first condition holds gives only values with the property
and stops where the second condition holds. -/
def Leads (before after : List Token → Prop) (given : α → Prop) (reader : Parse α) : Prop :=
  ∀ tokens, before tokens → ∀ value rest, reader tokens = .ok (value, rest) →
    given value ∧ after rest

/-- Whether all symbols among the tokens are such that they can be met. -/
def OnlyMeet (met : Symbol → Prop) (tokens : List Token) : Prop :=
  ∀ sign, .symbol sign ∈ tokens → met sign

/-- Whether all values that a reader gives have the property, as long as it meets such symbols. -/
def Gives (met : Symbol → Prop) (given : α → Prop) (reader : Parse α) : Prop :=
  Leads (OnlyMeet met) (OnlyMeet met) given reader

section

variable {before between after : List Token → Prop} {given : α → Prop} {wanted : β → Prop}

theorem leads_bind {reader : Parse α} {next : α → Parse β}
    (head : Leads before between given reader)
    (tail : ∀ value, given value → Leads between after wanted (next value)) :
    Leads before after wanted (reader >>= next) := by
  intro tokens start value rest read
  obtain ⟨first, left, succeeded, goesOn⟩ := ok_of_bind read
  obtain ⟨holds, reached⟩ := head tokens start first left succeeded
  exact tail first holds left reached value rest goesOn

theorem leads_pure {value : α} (holds : given value) : Leads before before given (pure value) := by
  intro tokens start other rest read
  cases read
  exact ⟨holds, start⟩

theorem leads_fail (cause : ParseError) : Leads before after given (fail cause : Parse α) := nofun

theorem leads_throw (failure : ParseFailure) :
    Leads before after given (throw failure : Parse α) := nofun

end

variable {met : Symbol → Prop} {given : α → Prop} {wanted : β → Prop}

theorem OnlyMeet.of_suffix {tokens rest : List Token} (only : OnlyMeet met tokens)
    (suffix : rest <:+ tokens) : OnlyMeet met rest :=
  fun sign member => only sign (suffix.subset member)

/-! ### The current token -/

theorem gives_advance : Gives met (fun _ => True) advance := by
  intro tokens only value rest read
  cases read
  exact ⟨trivial, only.of_suffix (tail_suffix tokens)⟩

theorem gives_skipNewlines : Gives met (fun _ => True) skipNewlines := by
  intro tokens only value rest read
  cases read
  exact ⟨trivial, only.of_suffix (dropWhile_suffix _)⟩

theorem Gives.forget {reader : Parse α} (gives : Gives met given reader) :
    Gives met (fun _ => True) reader :=
  fun tokens only value rest read => ⟨trivial, (gives tokens only value rest read).2⟩

theorem Gives.of_map {reader : Parse α} (gives : Gives met given reader) {tokens : List Token}
    {value : α} (only : OnlyMeet met tokens)
    (read : (reader tokens).map Prod.fst = .ok value) : given value := by
  cases ended : reader tokens with
  | error failure =>
    rw [ended] at read
    cases read
  | ok result =>
    rw [ended] at read
    cases read
    exact (gives tokens only result.1 result.2 ended).1

/-- Where nothing has to be known of what the first reader gives. -/
theorem gives_then {reader : Parse α} {next : α → Parse β}
    (head : Gives met (fun _ => True) reader) (tail : ∀ value, Gives met wanted (next value)) :
    Gives met wanted (reader >>= next) :=
  leads_bind head fun value _ => tail value

/-- A reader that has its token, and what is read then. -/
theorem gives_taking {next : Parse β} (tail : Gives met wanted next) :
    Gives met wanted (advance >>= fun _ => next) :=
  gives_then gives_advance fun _ => tail

/-- What the current token decides. -/
theorem gives_look {next : Option Token → Parse β}
    (tail : ∀ found, (∀ sign, found = some (.symbol sign) → met sign) →
      Gives met wanted (next found)) : Gives met wanted (current? >>= next) := by
  intro tokens only value rest read
  rw [bind_ok (rfl : current? tokens = .ok (tokens.head?, tokens))] at read
  refine tail tokens.head? (fun sign same => ?_) tokens only value rest read
  exact only sign (mem_of_head? same)

/-- What a test of the current token decides. -/
theorem gives_branch {test : Token → Bool} {next : Bool → Parse β}
    (tail : ∀ seen, Gives met wanted (next seen)) : Gives met wanted (sees test >>= next) :=
  gives_look fun found _ => tail (found.any test)

theorem gives_if {test : Token → Bool} {yes no : Parse β} (there : Gives met wanted yes)
    (otherwise : Gives met wanted no) :
    Gives met wanted (do if ← sees test then yes else no) := by
  refine gives_branch fun seen => ?_
  cases seen with
  | true => exact there
  | false => exact otherwise

variable (symbol : Symbol) (test : Token → Bool) (closers : List Symbol)

theorem gives_expect : Gives met (fun _ => met symbol) (expect symbol) := by
  refine gives_look fun found meets => ?_
  split
  · split
    · rename_i sign same
      subst same
      exact fun tokens only value rest read =>
        ⟨meets sign rfl, (gives_advance tokens only value rest read).2⟩
    · exact leads_fail _
  · exact leads_fail _

/-- What is read after a symbol that is due. -/
theorem gives_past {symbol : Symbol} {next : Parse β} (tail : met symbol → Gives met wanted next) :
    Gives met wanted (expect symbol >>= fun _ => next) :=
  leads_bind (gives_expect symbol) fun _ meets => tail meets

/-- What is read after symbols that are due. -/
theorem gives_pastAll {symbols : List Symbol} {next : Parse β}
    (tail : (∀ symbol ∈ symbols, met symbol) → Gives met wanted next) :
    Gives met wanted (expectAll symbols >>= fun _ => next) := by
  have all (listed : List Symbol) :
      Gives met (fun _ => ∀ symbol ∈ listed, met symbol) (expectAll listed) := by
    induction listed with
    | nil => exact leads_pure (forall_mem_nil _)
    | cons symbol rest ih =>
      refine leads_bind (gives_expect symbol) fun _ meets => ?_
      intro tokens only value left read
      obtain ⟨others, reached⟩ := ih tokens only value left read
      exact ⟨forall_mem_cons.mpr ⟨meets, others⟩, reached⟩
  exact leads_bind (all symbols) fun _ meets => tail meets

theorem gives_expectString : Gives met (fun _ => True) expectString := by
  refine gives_look fun found _ => ?_
  split
  · exact gives_taking (leads_pure trivial)
  · exact leads_fail _

theorem gives_expectIdentifier : Gives met (fun _ => True) expectIdentifier := by
  refine gives_look fun found _ => ?_
  split
  · exact gives_taking (leads_pure trivial)
  · exact leads_fail _

/-! ### Loops -/

variable {item : Parse α}

theorem gives_whileSees (each : Gives met given item) (bound : Bound) :
    Gives met (fun values => ∀ value ∈ values, given value) (whileSees test item bound) := by
  induction bound with
  | nil => exact leads_throw _
  | cons _ bound ih =>
    refine gives_if ?_ (leads_pure (forall_mem_nil _))
    refine leads_bind each fun first firstHolds => ?_
    refine leads_bind ih fun rest restHold => leads_pure ?_
    exact forall_mem_cons.mpr ⟨firstHolds, restHold⟩

theorem gives_manyWhile (each : Gives met given item) :
    Gives met (fun values => ∀ value ∈ values, given value) (manyWhile test item) :=
  fun tokens => gives_whileSees test each (Bound.ofTokens tokens) tokens

theorem gives_linesWithin (each : Gives met given item) (bound : Bound) :
    Gives met (fun values => ∀ value ∈ values, given value) (linesWithin closers item bound) := by
  induction bound with
  | nil => exact leads_throw _
  | cons _ bound ih =>
    refine gives_if (leads_pure (forall_mem_nil _)) ?_
    refine leads_bind each fun first firstHolds => gives_then gives_skipNewlines fun _ => ?_
    refine leads_bind ih fun rest restHold => leads_pure ?_
    exact forall_mem_cons.mpr ⟨firstHolds, restHold⟩

theorem gives_lines (each : Gives met given item) :
    Gives met (fun values => ∀ value ∈ values, given value) (lines closers item) :=
  gives_then gives_skipNewlines fun _ tokens =>
    gives_linesWithin closers each (Bound.ofTokens tokens) tokens

theorem gives_separated (each : Gives met given item) :
    Gives met (fun values => ∀ value ∈ values, given value) (separated item) := by
  refine leads_bind each fun first firstHolds => ?_
  refine leads_bind (gives_manyWhile _ (gives_taking each)) fun rest restHold => ?_
  exact leads_pure (forall_mem_cons.mpr ⟨firstHolds, restHold⟩)

/-- A loop whose test fails at once reads nothing. -/
theorem manyWhile_of_not_sees {test : Token → Bool} (item : Parse α) {tokens : List Token}
    (fails : tokens.head?.any test = false) : manyWhile test item tokens = .ok ([], tokens) := by
  have seen : sees test tokens = .ok (false, tokens) := by rw [sees, fails]
  exact bind_ok seen

/-- A symbol that is due and does not follow is missed. -/
theorem expect_of_not_sees {symbol : Symbol} {tokens : List Token}
    (fails : tokens.head?.any (isAmong [symbol]) = false) :
    ∃ failure, expect symbol tokens = .error failure := by
  rw [expect, bind_ok (rfl : current? tokens = .ok (tokens.head?, tokens))]
  generalize tokens.head? = current at fails
  split
  · rename_i sign
    have other : sign ≠ symbol := by simpa [isAmong] using fails
    exact ⟨_, by rw [if_neg other]; rfl⟩
  · exact ⟨_, rfl⟩

/-! ### Where expressions stop -/

/-- Whether an expression can stop at the tokens: they do not go on with `and` or `or`. -/
def IsStop (tokens : List Token) : Prop :=
  tokens.head?.any (isAmong [.andWord]) = false ∧ tokens.head?.any (isAmong [.orWord]) = false

theorem leads_chain {symbol : Symbol} {operator : BinaryOperator} {operand : Parse Expr}
    {after : List Token → Prop} (stops : Leads (fun _ => True) after (fun _ => True) operand) :
    Leads (fun _ => True)
      (fun rest => after rest ∧ rest.head?.any (isAmong [symbol]) = false) (fun _ => True)
      (chain (operatorAt symbol operator) operand) := by
  have onward (bound : Bound) : ∀ left, Leads after
      (fun rest => after rest ∧ rest.head?.any (isAmong [symbol]) = false) (fun _ => True)
      (chainFrom (operatorAt symbol operator) operand bound left) := by
    induction bound with
    | nil => exact fun _ => leads_throw _
    | cons _ bound ih =>
      intro left tokens start value rest read
      obtain ⟨found, reached, looked, goesOn⟩ := ok_of_bind read
      obtain ⟨seen, same, tested, taken⟩ := ok_of_bind looked
      cases tested
      cases follows : tokens.head?.any (isAmong [symbol]) with
      | false =>
        rw [follows] at taken
        cases taken
        cases goesOn
        exact ⟨trivial, start, follows⟩
      | true =>
        rw [follows] at taken
        cases taken
        have later := leads_bind stops fun right _ =>
          ih (.binary left operator right)
        exact later tokens.tail trivial value rest goesOn
  exact leads_bind stops fun left _ tokens => onward (Bound.ofTokens tokens) left tokens

/-- An expression takes every `and` and every `or` that goes on with it. -/
theorem leads_expression : Leads (fun _ => True) IsStop (fun _ => True) expression := by
  have within (bound : Bound) : Leads (fun _ => True) IsStop (fun _ => True)
      (expressionAt bound) := by
    cases bound with
    | nil => exact leads_throw _
    | cons _ bound =>
      have operands : Leads (fun _ => True) (fun _ => True) (fun _ => True)
          (negation (expressionAt bound)) := fun _ _ _ _ _ => ⟨trivial, trivial⟩
      have conjunctions := @leads_chain .andWord .and _ _ operands
      have disjunctions := @leads_chain .orWord .or _ _ conjunctions
      intro tokens start value rest read
      obtain ⟨_, ⟨_, noAnd⟩, noOr⟩ := disjunctions tokens start value rest read
      exact ⟨trivial, noAnd, noOr⟩
  exact fun tokens => within (Bound.ofTokens tokens) tokens

/-! ### Expressions -/

theorem gives_chain {operator? : Parse (Option BinaryOperator)} {operand : Parse Expr}
    (formed : Gives met (fun found => ∀ operator ∈ found, operator.IsFormed met) operator?)
    (grown : Gives met (Expr.Grown met) operand) :
    Gives met (Expr.Grown met) (chain operator? operand) := by
  have onward (bound : Bound) : ∀ left : Expr, left.Grown met →
      Gives met (Expr.Grown met) (chainFrom operator? operand bound left) := by
    induction bound with
    | nil => exact fun _ _ => leads_throw _
    | cons _ bound ih =>
      intro left leftGrown
      refine leads_bind formed fun found operatorFormed => ?_
      cases found with
      | none => exact leads_pure leftGrown
      | some operator =>
        exact leads_bind grown fun right rightGrown =>
          ih _ (.intro (operatorFormed operator rfl) (by simp [*]))
  exact leads_bind grown fun left leftGrown tokens =>
    onward (Bound.ofTokens tokens) left leftGrown tokens

def FindsOperator (met : Symbol → Prop) (reader : Parse (Option BinaryOperator)) : Prop :=
  Gives met (fun found => ∀ operator ∈ found, operator.IsFormed met) reader

theorem finds_some {operator : BinaryOperator} (formed : operator.IsFormed met) :
    FindsOperator met (pure (some operator)) :=
  leads_pure fun _ same => Option.some.inj same ▸ formed

theorem finds_operatorAt {operator : BinaryOperator} (formed : operator.IsFormed met) :
    FindsOperator met (operatorAt symbol operator) :=
  gives_if (gives_taking (finds_some formed)) (leads_pure nofun)

theorem finds_unlessLineEnds {operator : BinaryOperator} (formed : operator.IsFormed met) :
    FindsOperator met (unlessLineEnds operator) :=
  gives_if (leads_pure nofun) (finds_some formed)

theorem finds_additive : FindsOperator met additiveOperator? := by
  refine gives_look fun found _ => ?_
  split
  · exact gives_taking (finds_unlessLineEnds trivial)
  · exact gives_taking (finds_unlessLineEnds trivial)
  · exact leads_pure nofun

theorem finds_multiplicative : FindsOperator met multiplicativeOperator? := by
  refine gives_look fun found _ => ?_
  split
  · exact gives_taking (finds_unlessLineEnds trivial)
  · exact gives_taking (gives_past fun _ => finds_unlessLineEnds trivial)
  · exact leads_pure nofun

theorem isFormed_comparisonOf? {symbol : Symbol} {operator : BinaryOperator} (meets : met symbol)
    (found : comparisonOf? symbol = some operator) : operator.IsFormed met := by
  unfold comparisonOf? at found
  split at found <;> cases found
  case h_2 => exact meets
  case h_6 => exact meets
  all_goals exact trivial

theorem finds_comparison : FindsOperator met comparisonOperator? := by
  refine gives_look fun found meets => ?_
  split
  · rename_i sign
    split
    · rename_i operator compared
      exact gives_taking (finds_some (isFormed_comparisonOf? (meets sign rfl) compared))
    · exact leads_pure nofun
  · exact leads_pure nofun

/-- Whether something that has grown can be assigned to. -/
def IsGrownTarget (met : Symbol → Prop) (target : Expr) : Prop := target.Grown met ∧ target.IsTarget

/-- Whether expressions that have grown are made into targets. -/
def MakesTargets (met : Symbol → Prop) (step : Expr → Expr) : Prop :=
  ∀ owner : Expr, owner.Grown met → IsGrownTarget met (step owner)

theorem isGrownTarget_accesses (name : String) {accesses : List (Expr → Expr)}
    (each : ∀ step ∈ accesses, MakesTargets met step) :
    IsGrownTarget met (accesses.foldl (fun owner step => step owner) (.identifier name)) := by
  have onward : ∀ owner : Expr, IsGrownTarget met owner →
      IsGrownTarget met (accesses.foldl (fun owner step => step owner) owner) := by
    induction accesses with
    | nil => exact fun _ holds => holds
    | cons step rest ih =>
      obtain ⟨first, others⟩ := forall_mem_cons.mp each
      exact fun owner holds => ih others _ (first owner holds.1)
  exact onward _ ⟨.intro trivial (forall_mem_nil _), trivial⟩

/-- Entries keep what holds of their values, when the last value of each name is taken. -/
theorem forall_lastValues {known : Expr → Prop} {pairs : List (String × Expr)}
    (each : ∀ pair ∈ pairs, known pair.2) : ∀ pair ∈ lastValues pairs, known pair.2 := by
  have onward : ∀ table : Table Expr, (∀ pair ∈ table, known pair.2) →
      ∀ pair ∈ pairs.foldl (fun table pair => table.insert pair.1 pair.2) table, known pair.2 := by
    induction pairs with
    | nil => exact fun _ holds => holds
    | cons first rest ih =>
      obtain ⟨firstHolds, others⟩ := forall_mem_cons.mp each
      refine fun table holds => ih others _ fun pair member => ?_
      rcases Table.mem_insert member with old | new
      · exact holds pair old
      · rw [new]
        exact firstHolds
  exact onward [] (forall_mem_nil _)

section

variable {nested : Parse Expr} (grown : Gives met (Expr.Grown met) nested)

include grown

theorem gives_access : Gives met (MakesTargets met) (access nested) := by
  have place (index : Expr) (indexGrown : index.Grown met) :
      MakesTargets met fun owner => .index owner index :=
    fun _ _ => ⟨.intro trivial (by simp [*]), trivial⟩
  refine gives_look fun found _ => ?_
  split
  · refine gives_taking (gives_then gives_expectIdentifier fun name => leads_pure ?_)
    exact fun _ _ => ⟨.intro trivial (by simp [*]), trivial⟩
  · exact gives_taking (leads_bind grown fun index indexGrown =>
      gives_past fun _ => leads_pure (place index indexGrown))
  · exact gives_taking (leads_bind grown fun index indexGrown =>
      leads_pure (place index indexGrown))

theorem gives_afterName (name : String) : Gives met (Expr.Grown met) (afterName nested name) := by
  refine gives_if ?_ ?_
  · exact leads_bind (gives_manyWhile _ grown) fun arguments each =>
      leads_pure (.intro trivial each)
  · exact leads_bind (gives_manyWhile _ (gives_access grown)) fun accesses each =>
      leads_pure (isGrownTarget_accesses name each).1

theorem gives_listElements :
    Gives met (fun elements => ∀ element ∈ elements, element.Grown met) (listElements nested) := by
  have before : Gives met (fun elements => ∀ element ∈ elements, element.Grown met)
      (elementsBefore nested) :=
    gives_if (leads_pure (forall_mem_nil _)) (gives_separated grown)
  refine gives_past fun _ => leads_bind before fun elements each => ?_
  exact gives_past fun _ => leads_pure each

theorem gives_entry {name : Parse String} (named : Gives met (fun _ => True) name) :
    Gives met (fun pair => pair.2.Grown met) (entry name nested) := by
  refine gives_then named fun key => gives_past fun _ => ?_
  exact leads_bind grown fun value valueGrown => leads_pure valueGrown

theorem gives_entries {name : Parse String} (named : Gives met (fun _ => True) name) :
    Gives met (fun pairs => ∀ pair ∈ pairs, pair.2.Grown met) (entries name nested) := by
  refine leads_bind (gives_lines _ (gives_entry grown named)) fun pairs each => ?_
  exact gives_past fun _ => leads_pure each

theorem gives_dictionary : Gives met (Expr.Grown met) (dictionary nested) := by
  refine gives_past fun _ => leads_bind (gives_entries grown gives_expectString) fun _ each => ?_
  exact leads_pure (.intro trivial (forall_mem_map.mpr each))

theorem gives_object : Gives met (Expr.Grown met) (object nested) := by
  refine gives_past fun _ =>
    leads_bind (gives_entries grown gives_expectIdentifier) fun _ each => ?_
  exact leads_pure (.intro trivial (forall_mem_map.mpr each))

omit grown in
theorem gives_afterUsing {onSameLine onLines otherwise : Parse α}
    (same : Gives met given onSameLine) (apart : Gives met given onLines)
    (other : Gives met given otherwise) :
    Gives met given (afterUsing onSameLine onLines otherwise) :=
  gives_if (gives_taking (gives_if same (gives_if apart other))) other

theorem gives_requestParameters :
    Gives met (fun pairs => ∀ pair ∈ pairs, pair.2.Grown met) (requestParameters nested) := by
  have sameLine := gives_manyWhile isIdentifier (gives_entry grown gives_expectIdentifier)
  have ownLines := gives_entries grown gives_expectIdentifier
  refine leads_bind (gives_afterUsing sameLine ownLines (leads_pure (forall_mem_nil _)))
    fun pairs each => ?_
  exact leads_pure (forall_lastValues each)

theorem gives_pair (between : Symbol) {build : Expr → Expr → Expr}
    (built : ∀ first second, (build first second).IsFormed met ∧
      (build first second).parts = [first, second]) :
    Gives met (Expr.Grown met) (do
      let first ← nested
      expect between
      return build first (← nested)) := by
  refine leads_bind grown fun first _ => gives_past fun _ => ?_
  refine leads_bind grown fun second _ => leads_pure (.intro (built first second).1 ?_)
  rw [(built first second).2]
  simp [*]

theorem gives_wordForm (symbol : Symbol) : Gives met (Expr.Grown met) (wordForm nested symbol) := by
  unfold wordForm
  split
  · exact leads_bind (gives_listElements grown) fun _ each => leads_pure (.intro trivial each)
  · exact gives_dictionary grown
  · exact gives_object grown
  iterate 3
    · exact gives_taking (gives_pair grown _ fun _ _ => ⟨trivial, rfl⟩)
  -- texts that are split, joined and replaced
  iterate 2
    · refine gives_taking (leads_bind grown fun _ _ => gives_past fun _ => ?_)
      exact gives_then gives_expectString fun _ => leads_pure (.intro (by simp [*]) (by simp [*]))
  · refine gives_taking (gives_then gives_expectString fun _ => gives_past fun _ => ?_)
    refine gives_then gives_expectString fun _ => gives_past fun _ => ?_
    exact leads_bind grown fun _ _ => leads_pure (.intro trivial (by simp [*]))
  -- what is asked for outside
  · refine gives_taking (gives_then gives_expectString fun _ => ?_)
    exact leads_bind (gives_requestParameters grown) fun _ each =>
      leads_pure (.intro trivial (forall_mem_map.mpr each))
  · refine gives_taking (gives_past fun _ => gives_then gives_expectString fun _ => ?_)
    exact leads_pure (.intro trivial (forall_mem_nil _))
  · exact gives_taking (gives_past fun _ => gives_pair grown _ fun _ _ => ⟨trivial, rfl⟩)
  · refine gives_taking (gives_past fun _ => gives_then gives_expectString fun _ => ?_)
    refine gives_past fun _ => leads_bind (gives_separated grown) fun _ each => ?_
    exact leads_pure (.intro trivial each)
  · exact leads_fail _

theorem gives_factor : Gives met (Expr.Grown met) (factor nested) := by
  refine gives_look fun found _ => ?_
  split
  case h_3 name _ => exact gives_taking (gives_afterName grown name)
  case h_9 sign _ _ _ _ _ _ => exact gives_wordForm grown sign
  case h_10 => exact leads_fail _
  all_goals exact gives_taking (leads_pure (.intro trivial (forall_mem_nil _)))

theorem gives_arithmetic : Gives met (Expr.Grown met) (arithmetic nested) :=
  gives_chain finds_additive (gives_chain finds_multiplicative (gives_factor grown))

theorem gives_comparison : Gives met (Expr.Grown met) (comparison nested) := by
  refine leads_bind (gives_arithmetic grown) fun left leftGrown => ?_
  refine leads_bind finds_comparison fun found formed => ?_
  cases found with
  | none => exact leads_pure leftGrown
  | some operator =>
    exact leads_bind (gives_arithmetic grown) fun right _ =>
      leads_pure (.intro (formed operator rfl) (by simp [*]))

theorem gives_negation : Gives met (Expr.Grown met) (negation nested) := by
  refine gives_if (gives_taking ?_) (gives_comparison grown)
  exact leads_bind (gives_comparison grown) fun operand _ => leads_pure (.intro rfl (by simp [*]))

theorem gives_disjunction : Gives met (Expr.Grown met) (disjunction nested) := by
  have conjunctions : Gives met (Expr.Grown met) (conjunction nested) :=
    gives_chain (finds_operatorAt _ trivial) (gives_negation grown)
  exact gives_chain (finds_operatorAt _ trivial) conjunctions

end

theorem gives_expression : Gives met (Expr.Grown met) expression := by
  have within (bound : Bound) : Gives met (Expr.Grown met) (expressionAt bound) := by
    induction bound with
    | nil => exact leads_throw _
    | cons _ bound ih => exact gives_disjunction ih
  exact fun tokens => within (Bound.ofTokens tokens) tokens

/-- What is read after an expression begins where an expression can stop. -/
theorem gives_afterExpression {next : Expr → Parse β} (tail : ∀ value : Expr, value.Grown met →
      Leads (fun tokens => OnlyMeet met tokens ∧ IsStop tokens) (OnlyMeet met) wanted
        (next value)) : Gives met wanted (expression >>= next) := by
  have both : Leads (OnlyMeet met) (fun tokens => OnlyMeet met tokens ∧ IsStop tokens)
      (Expr.Grown met) expression := by
    intro tokens only value rest read
    obtain ⟨grown, reached⟩ := gives_expression tokens only value rest read
    exact ⟨grown, reached, (leads_expression tokens trivial value rest read).2⟩
  exact leads_bind both tail

/-! ### Statements -/

theorem gives_assigned : Gives met (Expr.Grown met) assigned := by
  refine gives_look fun found _ => ?_
  split
  · refine gives_taking (gives_past fun _ => gives_then gives_expectString fun _ => ?_)
    exact leads_bind (gives_requestParameters gives_expression) fun _ each =>
      leads_pure (.intro trivial (forall_mem_map.mpr each))
  · exact gives_dictionary gives_expression
  · exact gives_object gives_expression
  · exact gives_expression

theorem gives_nameStatement : Gives met (Stmt.Grown met) nameStatement := by
  refine gives_then gives_expectIdentifier fun name => ?_
  refine leads_bind (gives_manyWhile _ (gives_access gives_expression)) fun accesses each => ?_
  obtain ⟨targetGrown, isTarget⟩ := isGrownTarget_accesses name each
  refine gives_look fun found _ => ?_
  split
  · exact gives_taking (leads_bind gives_assigned fun _ _ => leads_pure (.of (by simp [*])))
  · exact gives_taking (leads_bind gives_expression fun _ _ => leads_pure (.of (by simp [*])))
  iterate 2
    · exact gives_taking (gives_past fun _ => leads_bind gives_expression fun _ _ =>
        leads_pure (.of (by simp [*])))
  · exact leads_bind (gives_manyWhile _ gives_expression) fun _ each =>
      leads_pure (.of (by simpa using each))

def GrownIfAny (met : Symbol → Prop) (found : Option Stmt) : Prop :=
  ∀ statement ∈ found, statement.Grown met

theorem gives_some {statement : Stmt} (grown : statement.Grown met) :
    Gives met (GrownIfAny met) (pure (some statement)) :=
  leads_pure fun _ same => Option.some.inj same ▸ grown

theorem gives_point : Gives met (fun place => place.1.Grown met ∧ place.2.Grown met) point := by
  refine leads_bind gives_expression fun _ first => gives_past fun _ => ?_
  exact leads_bind gives_expression fun _ second => leads_pure ⟨first, second⟩

theorem gives_color : Gives met (fun _ => True) color :=
  gives_past fun _ => gives_expectString

/-- `and` is never found after an expression. -/
theorem gives_sized {next : Expr → Parse β} :
    Gives met wanted (expression >>= fun size => expect .andWord >>= fun _ => next size) := by
  refine gives_afterExpression fun size _ tokens start value rest read => ?_
  obtain ⟨_, _, taken, _⟩ := ok_of_bind read
  obtain ⟨failure, missed⟩ := expect_of_not_sees start.2.1
  rw [missed] at taken
  cases taken

theorem gives_shape : Gives met (GrownIfAny met) shape := by
  refine gives_look fun found _ => ?_
  split
  · refine gives_taking (gives_past fun _ => leads_bind gives_point fun _ _ => ?_)
    exact gives_pastAll fun _ => gives_sized
  iterate 2
    · refine gives_taking (gives_past fun _ => leads_bind gives_point fun _ _ => ?_)
      refine gives_past fun _ => leads_bind gives_point fun _ _ => gives_past fun _ => ?_
      exact gives_then gives_color fun _ => gives_some (.of (by simp [*]))
  · refine gives_taking (leads_bind gives_expression fun _ _ => gives_past fun _ => ?_)
    refine leads_bind gives_point fun _ _ => gives_pastAll fun _ => gives_sized
  · exact leads_pure nofun

theorem gives_headers : Gives met (fun _ => True) headers := by
  refine gives_past fun _ => gives_then (gives_look fun found _ => ?_) fun _ =>
    gives_past fun _ => leads_pure trivial
  split
  · exact (gives_separated gives_expectString).forget
  · exact leads_pure trivial

theorem gives_answerKind : Gives met (fun _ => True) answerKind := by
  refine gives_look fun found _ => ?_
  split
  · exact gives_taking (gives_if (gives_taking (leads_pure trivial)) (leads_pure trivial))
  · exact gives_taking (gives_pastAll fun _ => leads_pure trivial)
  · exact leads_pure trivial

theorem gives_routeMethod : Gives met (fun _ => True) routeMethod := by
  refine gives_look fun found _ => ?_
  split
  · exact gives_taking (leads_pure trivial)
  · exact gives_taking (leads_pure trivial)
  · exact leads_pure trivial

section

variable {nested : Parse (Option Stmt)} (grown : Gives met (GrownIfAny met) nested)

include grown

theorem gives_block (closers : List Symbol) :
    Gives met (Stmt.AllGrown met) (block closers nested) := by
  refine leads_bind (gives_lines closers grown) fun found each => leads_pure ?_
  intro statement member
  obtain ⟨read, listed, same⟩ := mem_filterMap.mp member
  exact each read listed statement same

theorem gives_blockToEnd : Gives met (Stmt.AllGrown met) (blockToEnd nested) := by
  refine leads_bind (gives_block grown _) fun body inside => ?_
  exact gives_past fun _ => leads_pure inside

theorem gives_loop : Gives met (Stmt.Grown met) (loop nested) := by
  refine gives_look fun found _ => ?_
  split
  · exact gives_taking (leads_bind (gives_blockToEnd grown) fun _ _ =>
      leads_pure (.of (by simp [*])))
  · refine gives_taking (leads_bind gives_expression fun condition _ => ?_)
    exact leads_bind (gives_blockToEnd grown) fun _ _ => leads_pure (.of (by simp [*]))
  · refine leads_bind gives_expression fun count _ =>
      gives_if (gives_taking ?_) (gives_look fun _ _ => leads_fail _)
    exact leads_bind (gives_blockToEnd grown) fun _ _ => leads_pure (.of (by simp [*]))

theorem gives_otherwiseBlock :
    Gives met (fun no => ∀ body ∈ no, Stmt.AllGrown met body) (otherwiseBlock nested) := by
  refine gives_if (gives_taking ?_) (leads_pure nofun)
  exact leads_bind (gives_block grown _) fun body inside =>
    leads_pure fun _ same => Option.some.inj same ▸ inside

theorem gives_choiceCase : Gives met (fun case => (case.low.Grown met ∧ case.high.Grown met) ∧
    Stmt.AllGrown met case.body) (choiceCase nested) := by
  have upTo {low : Expr} (lowGrown : low.Grown met) : Gives met (Expr.Grown met) (caseEnd low) :=
    gives_if (gives_taking gives_expression) (leads_pure lowGrown)
  refine gives_past fun _ => leads_bind gives_expression fun low lowGrown => ?_
  refine leads_bind (upTo lowGrown) fun high highGrown => ?_
  exact leads_bind (gives_block grown _) fun body inside =>
    leads_pure ⟨⟨lowGrown, highGrown⟩, inside⟩

theorem gives_route : Gives met (fun route => Stmt.AllGrown met route.body) (route nested) := by
  refine gives_past fun _ => gives_then gives_routeMethod fun method => ?_
  refine gives_then gives_expectString fun path => ?_
  exact leads_bind (gives_block grown _) fun body inside => leads_pure inside

theorem gives_timed :
    Gives met (fun timed => timed.1.Grown met ∧ Stmt.AllGrown met timed.2) (timed nested) := by
  refine leads_bind gives_expression fun seconds secondsGrown => gives_pastAll fun _ => ?_
  exact leads_bind (gives_blockToEnd grown) fun body inside => leads_pure ⟨secondsGrown, inside⟩

/-- What follows the word of a statement. The cases are in the order of the words there. -/
theorem gives_afterWord {symbol : Symbol} {rest : Parse (Option Stmt)}
    (begun : afterWord? nested symbol = some rest) : Gives met (GrownIfAny met) rest := by
  have evaluating {build : Expr → Stmt} (built : ∀ value : Expr, value.Grown met →
      (build value).Grown met) :
      Gives met (GrownIfAny met) (do return some (build (← expression))) :=
    leads_bind gives_expression fun value valueGrown => gives_some (built value valueGrown)
  have enclosing {build : List Stmt → Stmt} (built : ∀ body, Stmt.AllGrown met body →
      (build body).Grown met) :
      Gives met (GrownIfAny met) (do return some (build (← blockToEnd nested))) :=
    leads_bind (gives_blockToEnd grown) fun body inside => gives_some (built body inside)
  unfold afterWord? at begun
  split at begun <;> cases begun
  -- what is written and asked for
  · refine gives_afterExpression fun first firstGrown tokens start value left read => ?_
    rw [bind_ok (manyWhile_of_not_sees _ start.2.1)] at read
    have said : (Stmt.say [first]).Grown met := .of (by simp [*])
    exact gives_some said tokens start.1 value left read
  · exact evaluating fun _ _ => .of (by simp [*])
  · exact gives_past fun _ => gives_some (.of (by simp))
  · refine gives_pastAll fun _ => gives_then gives_headers fun _ => gives_pastAll fun _ => ?_
    exact evaluating fun _ _ => .of (by simp [*])
  · refine gives_then gives_answerKind fun _ => gives_then gives_expectString fun _ => ?_
    exact gives_past fun _ => gives_then gives_expectIdentifier fun _ =>
      gives_some (.of (by simp))
  -- branches and loops
  · refine leads_bind gives_expression fun condition _ => gives_past fun _ => ?_
    refine leads_bind (gives_block grown _) fun yes _ => ?_
    refine leads_bind (gives_otherwiseBlock grown) fun no noGrown => gives_past fun _ => ?_
    exact gives_some (.of (by simpa [*] using noGrown))
  · exact leads_bind (gives_loop grown) fun statement => gives_some
  · refine leads_bind (gives_block grown _) fun body _ => gives_past fun _ => ?_
    exact evaluating fun _ _ => .of (by simp [*])
  iterate 3
    · exact gives_some (.of (by simp))
  -- functions and choices
  · refine gives_then gives_expectIdentifier fun name => gives_past fun _ => ?_
    refine gives_then (gives_manyWhile _ gives_expectIdentifier).forget fun parameters => ?_
    exact enclosing fun _ _ => .of (by simp [*])
  · exact gives_if (gives_some (.of (by simp))) (evaluating fun _ _ => .of (by simp [*]))
  · refine leads_bind gives_expression fun subject subjectGrown => ?_
    refine leads_bind (gives_lines _ (gives_choiceCase grown)) fun cases each => ?_
    have ends : ∀ part ∈ cases.flatMap fun case => [case.low, case.high], part.Grown met :=
      forall_mem_flatMap.mpr fun case member => by simp [each case member]
    refine gives_past fun _ => gives_some (.of ⟨trivial, ?_, by simp_all⟩)
    exact forall_mem_cons.mpr ⟨subjectGrown, ends⟩
  -- lists
  · refine leads_bind gives_expression fun value _ => gives_past fun _ => ?_
    exact evaluating fun _ _ => .of (by simp [*])
  · refine gives_if (gives_taking ?_) ?_
    all_goals
      refine leads_bind gives_expression fun value _ => gives_past fun _ => ?_
      exact evaluating fun _ _ => .of (by simp [*])
  iterate 3
    · exact evaluating fun _ _ => .of (by simp [*])
  -- files, drawings and clicks
  · refine leads_bind gives_expression fun content _ => gives_pastAll fun meets => ?_
    have file := meets .toFile mem_cons_self
    exact gives_then gives_expectString fun _ => gives_some (.of (by simp [*]))
  · exact gives_shape
  · refine gives_pastAll fun _ => leads_bind gives_expression fun canvas _ => ?_
    exact enclosing fun _ _ => .of (by simp [*])
  -- what waits for its time
  · refine leads_bind gives_expression fun seconds _ => gives_past fun _ => ?_
    exact gives_some (.of (by simp [*]))
  iterate 2
    · exact leads_bind (gives_timed grown) fun _ _ => gives_some (.of (by simp [*]))
  -- packages, libraries and servers
  · refine gives_if (gives_taking ?_) ?_
    all_goals exact gives_then gives_expectString fun _ => gives_some (.of (by simp))
  · exact gives_then gives_expectString fun _ => gives_some (.of (by simp))
  · refine gives_pastAll fun _ => leads_bind gives_expression fun port _ => ?_
    refine leads_bind (gives_lines _ (gives_route grown)) fun routes each => gives_past fun _ => ?_
    exact gives_some (.of (by simpa [*] using each))
  · refine gives_then gives_expectString fun name => gives_past fun _ => ?_
    exact leads_bind (gives_timed grown) fun _ _ => gives_some (.of (by simp [*]))
  · refine gives_then gives_expectString fun schedule => ?_
    exact enclosing fun _ _ => .of (by simp [*])

theorem gives_statementOf : Gives met (GrownIfAny met) (statementOf nested) := by
  refine gives_then gives_skipNewlines fun _ => gives_look fun found _ => ?_
  split
  · exact leads_bind gives_nameStatement fun statement => gives_some
  · split
    · rename_i rest begun
      exact gives_taking (gives_afterWord grown begun)
    · exact leads_pure nofun
  · exact leads_pure nofun

omit grown in
theorem gives_orStall {reader : Parse (Option Stmt)} (grown : Gives met (GrownIfAny met) reader) :
    Gives met (GrownIfAny met) (orStall reader) := by
  have looking : Gives met (fun _ => True) (get : Parse (List Token)) := by
    intro tokens only value rest read
    cases read
    exact ⟨trivial, only⟩
  refine gives_then looking fun before => leads_bind grown fun found each => ?_
  refine gives_then looking fun after => ?_
  split
  · exact leads_throw _
  · exact leads_pure each

end

theorem gives_statement : Gives met (GrownIfAny met) statement := by
  have within (bound : Bound) : Gives met (GrownIfAny met) (statementAt bound) := by
    induction bound with
    | nil => exact leads_throw _
    | cons _ bound ih =>
      exact gives_orStall (gives_statementOf ih)
  exact fun tokens => within (Bound.ofTokens tokens) tokens

end Parse

theorem Stmt.allGrown_of_parse {met : Symbol → Prop} {tokens : List Token} {program : List Stmt}
    (only : Parse.OnlyMeet met tokens) (read : parse tokens = .ok program) :
    Stmt.AllGrown met program :=
  (Parse.gives_block Parse.gives_statement _).of_map only read

theorem Expr.grown_of_parseExpression {met : Symbol → Prop} {tokens : List Token}
    {expression : Expr} (only : Parse.OnlyMeet met tokens)
    (read : parseExpression tokens = .ok expression) : expression.Grown met :=
  Parse.gives_expression.of_map only read

end Parlance
