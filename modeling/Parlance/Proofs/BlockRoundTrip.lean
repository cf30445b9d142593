import Parlance.Proofs.Lines
import Parlance.Proofs.RoundTrip
import Parlance.Proofs.Sentences

/-!
Blocks are read back from their lines. Reading a block stops at the first of its closing words that
begins a line.
-/

namespace Parlance

open Sentence List WrittenRoute

variable {α : Type}

namespace Parse

/-! ### Items on lines -/

/-- Items that are read one after another, each followed by line ends or by the next item, up to a
closing word. -/
inductive LineItems (closers : List Symbol) (item : Parse α) :
    List Token → List α → List Token → Prop where
  | none {tokens : List Token} : tokens.head?.any (isAmong closers) = true →
    LineItems closers item tokens [] tokens
  | more {tokens between rest : List Token} {value : α} {values : List α} :
    tokens.head?.any (isAmong closers) = false → item tokens = .ok (value, between) →
      (afterNewlines between).length < tokens.length →
        LineItems closers item (afterNewlines between) values rest →
          LineItems closers item tokens (value :: values) rest

namespace LineItems

variable {closers : List Symbol} {item : Parse α} {tokens rest : List Token} {values : List α}

theorem linesWithin (items : LineItems closers item tokens values rest) {bound : Bound}
    (fits : tokens.length < bound.length) :
    linesWithin closers item bound tokens = .ok (values, rest) := by
  induction items generalizing bound with
  | none closed =>
    obtain ⟨mark, bound, rfl⟩ := exists_cons_of_length_pos (Nat.zero_lt_of_lt fits)
    exact linesWithin_closed closed mark bound
  | more going read shorter _ ih =>
    obtain ⟨mark, bound, rfl⟩ := exists_cons_of_length_pos (Nat.zero_lt_of_lt fits)
    have later := ih
      (Nat.lt_of_lt_of_le shorter (Nat.le_of_lt_succ fits) : _ < bound.length)
    exact (linesWithin_going going).mpr ⟨_, _, _, read, later, rfl⟩

theorem lines (before : List Token) (items : LineItems closers item tokens values rest)
    (begun : afterNewlines before = tokens) :
    lines closers item before = .ok (values, rest) := by
  subst begun
  exact items.linesWithin (Nat.lt_succ_self _)

end LineItems

end Parse

/-! ### Expressions -/

variable (printable : Printable)

/-- An expression that is printed is read up to a symbol that cannot go on with it. -/
theorem Printable.reads (sign : Symbol)
    (stops : Layer.disjunction.continues (.symbol sign) = false) (rest : List Token) :
    Parse.expression (printable.tokens ++ .symbol sign :: rest) =
      .ok (printable.1, .symbol sign :: rest) := by
  have ends : Layer.disjunction.EndsBefore (.symbol sign :: rest) := by
    rintro _ ⟨⟩
    exact stops
  refine printable.2.isRead.nested ?_ ends
  rw [Parse.Bound.ofTokens, length_cons, Printable.tokens, length_append]
  omega

/-- The first token of an expression that is printed is none of the symbols that begin none. -/
theorem Printable.any_isAmong {symbols : List Symbol} (rest : List Token)
    (others : ∀ sign ∈ symbols, Layer.disjunction.begins (.symbol sign) = false) :
    (printable.tokens ++ rest).head?.any (Parse.isAmong symbols) = false :=
  printable.2.any_isAmong others rest

namespace Parse

/-! ### What the current token decides -/

section Sees

variable {symbols : List Symbol} {yes no : Parse α} {tokens : List Token}

theorem ifSees_pos (seen : tokens.head?.any (isAmong symbols) = true) :
    (do if ← seesAny symbols then yes else no) tokens = yes tokens :=
  congrFun (if_pos seen) tokens

theorem ifSees_neg (other : tokens.head?.any (isAmong symbols) = false) :
    (do if ← seesAny symbols then yes else no) tokens = no tokens :=
  congrFun (if_neg (Bool.eq_false_iff.mp other)) tokens

end Sees

theorem advance_bind (next : Unit → Parse α) (token : Token) (tokens : List Token) :
    (advance >>= next) (token :: tokens) = next () tokens := rfl

theorem expect_bind (symbol : Symbol) (next : Unit → Parse α) (tokens : List Token) :
    (expect symbol >>= next) (.symbol symbol :: tokens) = next () tokens := by
  refine bind_ok ?_
  refine (bind_ok (current_eq _)).trans ?_
  dsimp only [List.head?_cons]
  rw [if_pos rfl]
  rfl

theorem expectAll_bind (symbols : List Symbol) (next : Unit → Parse α) (tokens : List Token) :
    (expectAll symbols >>= next) (symbols.map Token.symbol ++ tokens) = next () tokens := by
  refine bind_ok ?_
  induction symbols with
  | nil => rfl
  | cons symbol others ih =>
    exact (expect_bind symbol _ _).trans ih

theorem expectString_bind (value : String) (next : String → Parse α) (tokens : List Token) :
    (expectString >>= next) (.string value :: tokens) = next value tokens := rfl

theorem expectIdentifier_bind (name : String) (next : String → Parse α) (tokens : List Token) :
    (expectIdentifier >>= next) (.identifier name :: tokens) = next name tokens := rfl

theorem atStatement_word {nested reader : Parse (Option Stmt)} {sign : Symbol}
    (begins : afterWord? nested sign = some reader) (tokens : List Token) :
    atStatement nested (.symbol sign :: tokens) = reader tokens := by
  refine (bind_ok (current_eq _)).trans ?_
  dsimp only [List.head?_cons]
  rw [begins]
  rfl

variable {tokens : List Token}

theorem atStatement_name {nested : Parse (Option Stmt)} {name : String} {rest : List Token}
    {statement : Stmt} (read : nameStatement (.identifier name :: tokens) = .ok (statement, rest)) :
    atStatement nested (.identifier name :: tokens) = .ok (some statement, rest) :=
  (bind_ok (current_eq _)).trans (bind_ok read)

theorem assigned_expression
    (begins : tokens.head?.any (isAmong [.add, .dictionary, .object]) = false) :
    assigned tokens = expression tokens := by
  refine (bind_ok (current_eq tokens)).trans ?_
  generalize tokens.head? = found at begins ⊢
  split
  · cases begins
  · cases begins
  · cases begins
  · rfl

end Parse

namespace Leaf

open Parse

/-- Every sentence without blocks is read back at the end of its line. -/
theorem reads (sentence : Leaf) (nested : Parse (Option Stmt)) (rest : List Token) :
    atStatement nested (sentence.opening :: (sentence.remaining ++ .symbol .newline :: rest)) =
      .ok (some sentence.statement, .symbol .newline :: rest) := by
  cases sentence with
  | say value | print value | sort value | reverse value =>
    refine (atStatement_word rfl _).trans ?_
    exact bind_ok (value.reads .newline rfl rest)
  | clearScreen | breakLoop | continueLoop | stop | giveBack => rfl
  | assign name value =>
    have read := value.reads .newline rfl rest
    rw [← assigned_expression (value.any_isAmong _ (by decide))] at read
    refine atStatement_name ?_
    show (assigned >>= fun value => pure (Stmt.assign (.identifier name) value)) _ = _
    exact bind_ok read
  | becomes name value =>
    refine atStatement_name ?_
    show (expression >>= fun value =>
      pure (Stmt.change (.identifier name) .becomes (some value))) _ = _
    exact bind_ok (value.reads .newline rfl rest)
  | increase name amount =>
    refine atStatement_name ?_
    show (expression >>= fun value =>
      pure (Stmt.change (.identifier name) .increase (some value))) _ = _
    exact bind_ok (amount.reads .newline rfl rest)
  | decrease name amount =>
    refine atStatement_name ?_
    show (expression >>= fun value =>
      pure (Stmt.change (.identifier name) .decrease (some value))) _ = _
    exact bind_ok (amount.reads .newline rfl rest)
  | giveBackValue value =>
    refine (atStatement_word rfl _).trans ?_
    refine (ifSees_neg (value.any_isAmong _ (by decide))).trans ?_
    exact bind_ok (value.reads .newline rfl rest)
  | add value list =>
    rw [remaining, append_assoc, cons_append]
    refine (atStatement_word rfl _).trans ((bind_ok (value.reads .toWord rfl _)).trans ?_)
    rw [expect_bind]
    exact bind_ok (list.reads .newline rfl rest)
  | remove value list =>
    rw [remaining, append_assoc, cons_append]
    refine (atStatement_word rfl _).trans ((ifSees_neg (value.any_isAmong _ (by decide))).trans ?_)
    refine (bind_ok (value.reads .fromWord rfl _)).trans ?_
    rw [expect_bind]
    exact bind_ok (list.reads .newline rfl rest)
  | removeAt place list =>
    rw [remaining, cons_append, append_assoc, cons_append]
    refine (atStatement_word rfl _).trans ((ifSees_pos rfl).trans ?_)
    rw [advance_bind]
    refine (bind_ok (place.reads .fromWord rfl _)).trans ?_
    rw [expect_bind]
    exact bind_ok (list.reads .newline rfl rest)

end Leaf

/-! ### Blocks -/

/-- The words and marks that close blocks, and no sentence begins with. -/
def closingWords : List Symbol := [.newline, .otherwise, .endWord, .untilWord, .endOfText]

namespace Sentence

open Parse

/-- Whether a reader reads a sentence back at the end of its line. -/
def IsReadBy (nested : Parse (Option Stmt)) (sentence : Sentence) : Prop :=
  ∀ rest, nested (sentence.opening :: (sentence.remaining ++ .symbol .newline :: rest)) =
    .ok (some sentence.statement, .symbol .newline :: rest)

theorem isAmong_opening {closers : List Symbol} (closing : closers ⊆ closingWords)
    (sentence : Sentence) : isAmong closers sentence.opening = false := by
  have apart : isAmong closingWords sentence.opening = false := by
    cases sentence with
    | leaf sentence => cases sentence <;> rfl
    | _ => rfl
  refine Bool.eq_false_iff.mpr fun among => Bool.eq_false_iff.mp apart ?_
  obtain ⟨sign, member, same⟩ := isAmong_iff.mp among
  exact isAmong_iff.mpr ⟨sign, closing member, same⟩

/-- Among the words that end a case or a route, a sentence can begin with one only if it keeps a
block for mouse clicks. -/
theorem isAmong_opening_clause (sentence : Sentence) :
    isAmong [.when, .endWord] sentence.opening = sentence.isClickHandler := by
  cases sentence with
  | leaf sentence => cases sentence <;> rfl
  | _ => rfl

variable (body : List Sentence)

theorem statements_eq_map : statements body = body.map statement := by
  induction body with
  | nil => rfl
  | cons sentence rest ih =>
    rw [statements, ih, map_cons]

theorem afterNewlines_lines {closer : Symbol} (word : closer ≠ .newline) (rest : List Token) :
    afterNewlines (lines body ++ .symbol closer :: rest) =
      lines body ++ .symbol closer :: rest := by
  cases body with
  | nil => exact dropWhile_cons_of_neg (by simpa [isAmong] using word)
  | cons sentence others =>
    refine dropWhile_cons_of_neg ?_
    rw [isAmong_opening (by decide)]
    exact Bool.false_ne_true

section

variable {nested : Parse (Option Stmt)} {body : List Sentence} {closers : List Symbol}
  {closer : Symbol} (read : ∀ sentence ∈ body, sentence.IsReadBy nested)

include read

/-- The sentences of a block are read one after another, up to a closing word that none of them
begins with. -/
theorem lineItems (apart : ∀ sentence ∈ body, isAmong closers sentence.opening = false)
    (closes : closer ∈ closers) (word : closer ≠ .newline) (rest : List Token) :
    LineItems closers nested (lines body ++ .symbol closer :: rest)
      (body.map fun sentence => some sentence.statement) (.symbol closer :: rest) := by
  induction body with
  | nil => exact .none (isAmong_iff.mpr ⟨closer, closes, rfl⟩)
  | cons sentence others ih =>
    have later := ih
      (fun other member => read other (mem_cons_of_mem _ member))
      (fun other member => apart other (mem_cons_of_mem _ member))
    have begun : afterNewlines (.symbol .newline :: (lines others ++ .symbol closer :: rest)) =
        lines others ++ .symbol closer :: rest := afterNewlines_lines others word rest
    rw [lines, cons_append, append_assoc, cons_append]
    refine .more (apart sentence mem_cons_self) (read sentence mem_cons_self _) ?_ ?_
    · rw [begun]
      simp only [length_cons, length_append]
      omega
    · rw [begun]
      exact later

/-- A block is read from the line end of its heading up to its closing word. -/
theorem block_reads (closers : List Symbol) (closer : Symbol)
    (apart : ∀ sentence ∈ body, isAmong closers sentence.opening = false)
    (closes : closer ∈ closers) (word : closer ≠ .newline) (rest : List Token) :
    block closers nested (.symbol .newline :: (lines body ++ .symbol closer :: rest)) =
      .ok (statements body, .symbol closer :: rest) := by
  have items := (lineItems read apart closes word rest).lines (.symbol .newline :: _)
    (afterNewlines_lines body word rest)
  refine (bind_ok items).trans ?_
  rw [filterMap_map, statements_eq_map, ← filterMap_eq_map]
  rfl

/-- A block whose closing words begin no sentence is read whatever stands in it. -/
theorem closed_reads (closers : List Symbol) (closer : Symbol)
    (closing : (decide (closers ⊆ closingWords) && decide (closer ∈ closers) &&
      decide (closer ≠ .newline)) = true) (rest : List Token) :
    block closers nested (.symbol .newline :: (lines body ++ .symbol closer :: rest)) =
      .ok (statements body, .symbol closer :: rest) := by
  simp only [Bool.and_eq_true, decide_eq_true_eq] at closing
  exact block_reads read closers closer (fun sentence _ => isAmong_opening closing.1.1 sentence)
    closing.1.2 closing.2 rest

theorem blockToEnd_reads (rest : List Token) :
    blockToEnd nested (.symbol .newline :: (lines body ++ .symbol .endWord :: rest)) =
      .ok (statements body, rest) := by
  refine (bind_ok (closed_reads read [.endWord] .endWord rfl rest)).trans ?_
  exact expect_bind .endWord _ rest

/-- The block of a case or a route is read up to the next one or to `end`. -/
theorem clause_reads (apart : ∀ sentence ∈ body, sentence.isClickHandler = false)
    (closes : closer ∈ [Symbol.when, .endWord]) (rest : List Token) :
    block [.when, .endWord] nested (.symbol .newline :: (lines body ++ .symbol closer :: rest)) =
      .ok (statements body, .symbol closer :: rest) := by
  refine block_reads read _ closer (fun sentence member => ?_) closes ?_ rest
  · exact (isAmong_opening_clause sentence).trans (apart sentence member)
  · rintro rfl
    simp at closes

theorem timed_reads (seconds : Printable) (rest : List Token) :
    timed nested (seconds.tokens ++ .symbol .seconds :: .symbol .doWord :: .symbol .newline ::
        (lines body ++ .symbol .endWord :: rest)) =
      .ok ((seconds.1, statements body), rest) := by
  refine (bind_ok (seconds.reads .seconds rfl _)).trans ?_
  refine (expectAll_bind [.seconds, .doWord] _ _).trans ?_
  exact bind_ok (blockToEnd_reads read rest)

end

/-- The parameters of a function are the names up to the line end. -/
theorem parameters_read (parameters : List String) (rest : List Token) :
    manyWhile isIdentifier expectIdentifier
        (parameters.map Token.identifier ++ .symbol .newline :: rest) =
      .ok (parameters, .symbol .newline :: rest) := by
  have items : Items isIdentifier expectIdentifier
      (parameters.map Token.identifier ++ .symbol .newline :: rest) parameters
      (.symbol .newline :: rest) := by
    induction parameters with
    | nil => exact .none _
    | cons parameter others ih =>
      exact .more rfl rfl (Nat.le_refl _) ih
  exact items.manyWhile rfl

end Sentence

/-! ### Cases and routes -/

/-- A case or a route is followed by the next one or by `end`, without a line end between them. -/
theorem Parse.LineItems.clause {item : Parse α} {tokens following rest : List Token}
    {value : α} {values : List α} {closer : Symbol} (closes : closer ∈ [Symbol.when, .endWord])
    (read : item (.symbol .when :: tokens) = .ok (value, .symbol closer :: following))
    (shorter : (.symbol closer :: following).length ≤ tokens.length)
    (later : LineItems [.endWord] item (.symbol closer :: following) values rest) :
    LineItems [.endWord] item (.symbol .when :: tokens) (value :: values) rest := by
  have begun : afterNewlines (.symbol closer :: following) = .symbol closer :: following := by
    refine dropWhile_cons_of_neg ?_
    rcases (by simpa using closes : closer = .when ∨ closer = .endWord) with rfl | rfl <;> decide
  refine .more rfl read ?_ ?_
  · rw [begun]
    exact Nat.lt_succ_of_le shorter
  · rw [begun]
    exact later

section Clauses

open Parse

variable {γ : Type} (head : γ → List Token) (body : γ → List Sentence)

/-- The tokens of cases or routes, each on a line of its own before the lines of its block. -/
def Sentence.clauseLines : List γ → List Token
  | [] => []
  | written :: rest => .symbol .when :: (head written ++ .symbol .newline ::
    (lines (body written) ++ clauseLines rest))

variable {head body} {clauses : List γ}

/-- After a case or a route stands the next one or `end`. -/
theorem exists_clauseLines_eq_cons (clauses : List γ) (rest : List Token) :
    ∃ closer ∈ [Symbol.when, .endWord], ∃ following,
      clauseLines head body clauses ++ .symbol .endWord :: rest = .symbol closer :: following := by
  cases clauses with
  | nil => exact ⟨.endWord, by decide, rest, rfl⟩
  | cons first others => exact ⟨.when, by decide, _, rfl⟩

/-- Cases and routes are read one after another, up to `end`. -/
theorem lines_clauses {item : Parse α} {value : γ → α}
    (read : ∀ written ∈ clauses, ∀ closer ∈ [Symbol.when, .endWord], ∀ rest,
      item (.symbol .when :: (head written ++ .symbol .newline ::
          (Sentence.lines (body written) ++ .symbol closer :: rest))) =
        .ok (value written, .symbol closer :: rest)) (rest : List Token) :
    Parse.lines [.endWord] item (.symbol .newline ::
        (clauseLines head body clauses ++ .symbol .endWord :: rest)) =
      .ok (clauses.map value, .symbol .endWord :: rest) := by
  suffices items : LineItems [.endWord] item
      (clauseLines head body clauses ++ .symbol .endWord :: rest) (clauses.map value)
      (.symbol .endWord :: rest) by
    refine items.lines (.symbol .newline :: _) ?_
    cases clauses <;> rfl
  induction clauses with
  | nil => exact .none rfl
  | cons first others ih =>
    have later := ih fun written member => read written (mem_cons_of_mem _ member)
    obtain ⟨closer, closes, following, next⟩ := exists_clauseLines_eq_cons others rest
    have here := read first mem_cons_self closer closes following
    simp only [clauseLines, cons_append, append_assoc]
    rw [next] at later ⊢
    refine .clause closes here ?_ later
    simp only [length_append, length_cons]
    omega

theorem length_clause_le {written : γ} (member : written ∈ clauses) :
    (Sentence.lines (body written)).length ≤ (clauseLines head body clauses).length := by
  induction clauses with
  | nil => cases member
  | cons first others ih =>
    simp only [clauseLines, length_cons, length_append]
    rcases mem_cons.mp member with rfl | later
    · omega
    · have := ih later
      omega

end Clauses

namespace WrittenCase

open Parse

variable {nested : Parse (Option Stmt)}

def head : WrittenCase → List Token
  | .mk low high _ => low.tokens ++ highTokens high

def case : WrittenCase → Case
  | .mk low high body => .mk low.1 (high.getD low).1 (Sentence.statements body)

theorem eq_clauses (cases : List WrittenCase) :
    lines cases = clauseLines head body cases ∧ WrittenCase.cases cases = cases.map case := by
  induction cases with
  | nil => exact ⟨rfl, rfl⟩
  | cons first others ih =>
    obtain ⟨low, high, body⟩ := first
    simp [lines, clauseLines, head, WrittenCase.body, WrittenCase.cases, case, ih]

theorem choiceCase_reads (written : WrittenCase)
    (read : ∀ sentence ∈ written.body, sentence.IsReadBy nested)
    (apart : ∀ sentence ∈ written.body, sentence.isClickHandler = false)
    {closer : Symbol} (closes : closer ∈ [Symbol.when, .endWord]) (rest : List Token) :
    choiceCase nested (.symbol .when :: (written.head ++ .symbol .newline ::
        (Sentence.lines written.body ++ .symbol closer :: rest))) =
      .ok (written.case, .symbol closer :: rest) := by
  have inside := clause_reads read apart closes rest
  obtain ⟨low, high, body⟩ := written
  rw [head, append_assoc]
  refine (expect_bind .when _ _).trans ?_
  cases high with
  | none =>
    refine (bind_ok (low.reads .newline rfl _)).trans ?_
    refine (bind_ok (ifSees_neg rfl : caseEnd low.1 _ = _)).trans ?_
    exact bind_ok inside
  | some high =>
    refine (bind_ok (low.reads .toWord rfl _)).trans ?_
    have last : caseEnd low.1 (.symbol .toWord :: (high.tokens ++ .symbol .newline ::
        (Sentence.lines body ++ .symbol closer :: rest))) = .ok (high.1, _) :=
      (ifSees_pos rfl).trans (high.reads .newline rfl _)
    refine (bind_ok last).trans ?_
    exact bind_ok inside

end WrittenCase

namespace WrittenRoute

open Parse

variable {nested : Parse (Option Stmt)}

def head : WrittenRoute → List Token
  | .mk word path _ => word.tokens ++ [.string path]

def route : WrittenRoute → Route
  | .mk word path body => .mk word.method path (Sentence.statements body)

theorem eq_clauses (routes : List WrittenRoute) :
    lines routes = clauseLines head body routes ∧ WrittenRoute.routes routes = routes.map route := by
  induction routes with
  | nil => exact ⟨rfl, rfl⟩
  | cons first others ih =>
    obtain ⟨word, path, body⟩ := first
    simp [lines, clauseLines, head, WrittenRoute.body, WrittenRoute.routes, route, ih]

theorem routeMethod_reads (word : RouteWord) (path : String) (tokens : List Token) :
    routeMethod (word.tokens ++ .string path :: tokens) =
      .ok (word.method, .string path :: tokens) := by
  cases word <;> rfl

theorem route_reads (written : WrittenRoute)
    (read : ∀ sentence ∈ written.body, sentence.IsReadBy nested)
    (apart : ∀ sentence ∈ written.body, sentence.isClickHandler = false)
    {closer : Symbol} (closes : closer ∈ [Symbol.when, .endWord]) (rest : List Token) :
    Parse.route nested (.symbol .when :: (written.head ++ .symbol .newline ::
        (Sentence.lines written.body ++ .symbol closer :: rest))) =
      .ok (written.route, .symbol closer :: rest) := by
  have inside := clause_reads read apart closes rest
  obtain ⟨word, path, body⟩ := written
  rw [head, append_assoc]
  refine (expect_bind .when _ _).trans ((bind_ok (routeMethod_reads word path _)).trans ?_)
  exact (expectString_bind path _ _).trans (bind_ok inside)

end WrittenRoute

/-! ### Sentences with blocks -/

namespace Sentence

open Parse

variable {nested : Parse (Option Stmt)}

/-- The block after `otherwise` is read up to `end`. -/
theorem otherwiseBlock_reads {no : List Sentence}
    (read : ∀ sentence ∈ no, sentence.IsReadBy nested) (rest : List Token) :
    otherwiseBlock nested (.symbol .otherwise :: .symbol .newline ::
        (lines no ++ .symbol .endWord :: rest)) =
      .ok (some (statements no), .symbol .endWord :: rest) := by
  refine (ifSees_pos rfl).trans ?_
  rw [advance_bind]
  exact bind_ok (closed_reads read [.endWord] .endWord rfl rest)

/-- A loop after `repeat` is counted if an expression begins it. -/
theorem loop_expression {tokens : List Token}
    (begins : tokens.head?.any (isAmong [.forever, .untilWord]) = false) :
    loop nested tokens = countedLoop nested tokens := by
  refine (bind_ok (current_eq tokens)).trans ?_
  generalize tokens.head? = found at begins ⊢
  split
  · cases begins
  · cases begins
  · rfl

variable {body : List Sentence} {sentence : Sentence}

theorem countedLoop_reads (count : Printable) (read : ∀ sentence ∈ body, sentence.IsReadBy nested)
    (rest : List Token) :
    countedLoop nested (count.tokens ++ .symbol .timesWord :: .symbol .newline ::
        (lines body ++ .symbol .endWord :: rest)) =
      .ok (.repeatTimes count.1 (statements body), rest) := by
  refine (bind_ok (count.reads .timesWord rfl _)).trans ((ifSees_pos rfl).trans ?_)
  rw [advance_bind]
  exact bind_ok (blockToEnd_reads read rest)

/-- A sentence is read back at the end of its line, if everything directly inside it is, and mouse
clicks do not stand where they would begin a case or a route. -/
theorem atStatement_reads (sentence : Sentence)
    (apart : ∀ block ∈ sentence.clauses, ∀ inside ∈ block, inside.isClickHandler = false)
    (read : ∀ block ∈ sentence.blocks, ∀ inside ∈ block, inside.IsReadBy nested) :
    sentence.IsReadBy (atStatement nested) := by
  intro rest
  have toEnd {body : List Sentence} (member : body ∈ sentence.blocks) :=
    blockToEnd_reads (read body member) (.symbol .newline :: rest)
  cases sentence
  case leaf sentence =>
    rw [opening, remaining, statement]
    exact sentence.reads nested rest
  all_goals
    simp only [opening, remaining, append_assoc, cons_append, nil_append, statement]
    refine (atStatement_word rfl _).trans ?_
  case branch condition yes =>
    have inside := closed_reads (read yes mem_cons_self) [.otherwise, .endWord] .endWord rfl
    refine (bind_ok (condition.reads .thenWord rfl _)).trans ?_
    rw [expect_bind]
    refine (bind_ok (inside _)).trans ?_
    refine (bind_ok (ifSees_neg rfl : otherwiseBlock nested _ = _)).trans ?_
    exact expect_bind .endWord _ _
  case branchOtherwise condition yes no =>
    have first := closed_reads (read yes mem_cons_self) [.otherwise, .endWord] .otherwise rfl
    have second := otherwiseBlock_reads (read no (mem_cons_of_mem _ mem_cons_self))
    refine (bind_ok (condition.reads .thenWord rfl _)).trans ?_
    rw [expect_bind]
    refine (bind_ok (first _)).trans ((bind_ok (second _)).trans ?_)
    exact expect_bind .endWord _ _
  case repeatForever body =>
    refine bind_ok ?_
    show (blockToEnd nested >>= fun body => pure (Stmt.repeatForever body)) _ = _
    exact bind_ok (toEnd mem_cons_self)
  case repeatTimes count body =>
    have inside := countedLoop_reads count (read body mem_cons_self) (.symbol .newline :: rest)
    rw [← loop_expression (count.any_isAmong _ (by decide))] at inside
    exact bind_ok inside
  case repeatUntil condition body =>
    refine bind_ok ?_
    show (expression >>= fun condition => blockToEnd nested >>= fun body =>
      pure (Stmt.repeatUntil condition body)) _ = _
    exact (bind_ok (condition.reads .newline rfl _)).trans (bind_ok (toEnd mem_cons_self))
  case doUntil body condition =>
    have inside := closed_reads (read body mem_cons_self) [.untilWord] .untilWord rfl
    refine (bind_ok (inside _)).trans ?_
    rw [expect_bind]
    exact bind_ok (condition.reads .newline rfl rest)
  case define name parameters body =>
    rw [expectIdentifier_bind, expect_bind]
    exact (bind_ok (parameters_read parameters _)).trans (bind_ok (toEnd mem_cons_self))
  case choose subject cases =>
    have inside := lines_clauses (fun written member _ closes =>
      WrittenCase.choiceCase_reads written (read _ (mem_map_of_mem member))
        (apart _ (mem_map_of_mem member)) closes) (.symbol .newline :: rest)
    obtain ⟨tokens, values⟩ := WrittenCase.eq_clauses cases
    rw [tokens, values]
    refine (bind_ok (subject.reads .newline rfl _)).trans ?_
    exact (bind_ok inside).trans (expect_bind .endWord _ _)
  case after seconds body | every seconds body =>
    exact bind_ok (timed_reads (read body mem_cons_self) seconds _)
  case job name seconds body =>
    rw [expectString_bind, expect_bind]
    exact bind_ok (timed_reads (read body mem_cons_self) seconds _)
  case cron schedule body =>
    rw [expectString_bind]
    exact bind_ok (toEnd mem_cons_self)
  case whenMouseClicks canvas body =>
    refine (expectAll_bind [.mouse, .clicks, .onWord] _ _).trans ?_
    exact (bind_ok (canvas.reads .newline rfl _)).trans (bind_ok (toEnd mem_cons_self))
  case server port routes =>
    have inside := lines_clauses (fun written member _ closes =>
      route_reads written (read _ (mem_map_of_mem member))
        (apart _ (mem_map_of_mem member)) closes) (.symbol .newline :: rest)
    obtain ⟨tokens, values⟩ := eq_clauses routes
    rw [tokens, values]
    refine (expectAll_bind [.onWord, .port] _ _).trans ?_
    refine (bind_ok (port.reads .newline rfl _)).trans ?_
    exact (bind_ok inside).trans (expect_bind .endWord _ _)

/-! ### Everything inside a sentence is shorter -/

theorem length_lines_of_mem {inside : Sentence} (member : inside ∈ body) :
    inside.remaining.length < (lines body).length := by
  induction body with
  | nil => cases member
  | cons first others ih =>
    rw [lines, length_cons, length_append, length_cons]
    rcases mem_cons.mp member with rfl | later
    · omega
    · have := ih later
      omega

theorem length_block_le {block : List Sentence} (member : block ∈ sentence.blocks) :
    (lines block).length ≤ sentence.remaining.length := by
  cases sentence
  case leaf sentence => cases member
  all_goals simp only [remaining, length_append, length_cons]
  case choose subject cases =>
    obtain ⟨written, among, rfl⟩ := mem_map.mp member
    have := @length_clause_le _ WrittenCase.head WrittenCase.body _ _ among
    rw [(WrittenCase.eq_clauses cases).1]
    omega
  case server port routes =>
    obtain ⟨written, among, rfl⟩ := mem_map.mp member
    have := @length_clause_le _ head body _ _ among
    rw [(eq_clauses routes).1]
    omega
  case branchOtherwise condition yes no =>
    rcases mem_cons.mp member with rfl | later
    · omega
    · rw [mem_singleton.mp later]
      omega
  all_goals
    rw [mem_singleton.mp member]
    omega

/-! ### Programs -/

theorem statementOf_opening (sentence : Sentence) (rest : List Token) :
    statementOf nested (sentence.opening :: rest) =
      atStatement nested (sentence.opening :: rest) := by
  refine (skipNewlines_bind _ _).trans ?_
  rw [afterNewlines, dropWhile_cons_of_neg]
  rw [isAmong_opening (by decide)]
  exact Bool.false_ne_true

/-- A sentence is read back within every bound that has room for its tokens. -/
theorem statementAt_reads (clear : sentence.IsClear) {bound : Bound}
    (fits : sentence.remaining.length < bound.length) : sentence.IsReadBy (statementAt bound) := by
  induction bound generalizing sentence with
  | nil => cases fits
  | cons mark bound ih =>
    obtain ⟨apart, inner⟩ := clear
    have read := atStatement_reads sentence apart fun block among inside member => by
      have shorter := length_lines_of_mem member
      have within := length_block_le among
      have : sentence.remaining.length ≤ bound.length := Nat.le_of_lt_succ fits
      exact ih (inner block among inside member) (by omega)
    intro rest
    refine orStall_eq_ok.mpr ⟨?_, nofun⟩
    rw [statementOf_opening]
    exact read rest

theorem statement_reads (clear : sentence.IsClear) : sentence.IsReadBy Parse.statement := by
  intro rest
  refine statementAt_reads clear ?_ rest
  simp only [Bound.ofTokens, length_cons, length_append]
  omega

end Sentence

/-- A program is read back from its lines, however its blocks are nested. -/
theorem program_of_lines (sentences : List Sentence)
    (clear : ∀ sentence ∈ sentences, sentence.IsClear) :
    parse (lines sentences ++ [.symbol .endOfText]) =
      .ok (sentences.map statement) := by
  have read := closed_reads (fun sentence member => statement_reads (clear sentence member))
    [.endOfText] .endOfText rfl []
  rw [← statements_eq_map]
  exact congrArg (Except.map Prod.fst) read

/-- Mouse clicks in a branch of a case, where `when` does not begin the next case, and a counted
loop in a function that a route defines. -/
theorem program_of_lines_with_clicks :
    let x := Printable.identifier "x"
    let clicks : Sentence := .whenMouseClicks (.identifier "board") [.leaf .stop]
    let loop : Sentence := .doUntil [.leaf (.increase "x" x), .choose x []] x
    let choice : Sentence := .choose x
      [.mk x (some x) [.branchOtherwise x [clicks] [loop]], .mk x none []]
    let counted : Sentence := .define "f" ["a", "b"] [.repeatTimes x [.leaf .giveBack]]
    let server : Sentence := .server x [.mk .omitted "/" [], .mk .add "/f" [counted]]
    (∀ sentence ∈ [choice, server], sentence.IsClear) ∧
      parse (lines [choice, server] ++ [.symbol .endOfText]) =
        .ok [.choose (.identifier "x")
            [.mk (.identifier "x") (.identifier "x") [.branch (.identifier "x")
                [.whenMouseClicks (.identifier "board") [.stop]]
                (some [.doUntil [.change (.identifier "x") .increase (some (.identifier "x")),
                  .choose (.identifier "x") []] (.identifier "x")])],
              .mk (.identifier "x") (.identifier "x") []],
          .server (.identifier "x") [.mk "GET" "/" [], .mk "POST" "/f"
            [.define "f" ["a", "b"] [.repeatTimes (.identifier "x") [.giveBack none]]]]] := by
  intro x clicks loop choice counted server
  have leaf (sentence : Leaf) : (leaf sentence).IsClear := .mk nofun nofun
  have empty (subject : Printable) : (choose subject []).IsClear := .mk nofun nofun
  have clicksClear : clicks.IsClear := .mk nofun (by simp [clicks, blocks, leaf])
  have loopClear : loop.IsClear := .mk nofun (by simp [loop, blocks, leaf, empty])
  have choiceClear : choice.IsClear := by
    refine .mk (by simp [choice, clauses, WrittenCase.body, isClickHandler]) ?_
    suffices (branchOtherwise x [clicks] [loop]).IsClear by
      simpa [choice, blocks, WrittenCase.body] using this
    exact .mk nofun (by simp [blocks, clicksClear, loopClear])
  have countedClear : counted.IsClear := by
    refine .mk nofun ?_
    suffices (repeatTimes x [.leaf .giveBack]).IsClear by
      simpa [counted, blocks] using this
    exact .mk nofun (by simp [blocks, leaf])
  have serverClear : server.IsClear :=
    .mk (by simp [server, counted, clauses, WrittenRoute.body, isClickHandler])
      (by simp [server, blocks, WrittenRoute.body, countedClear])
  have clear : ∀ sentence ∈ [choice, server], sentence.IsClear := by
    simp [choiceClear, serverClear]
  exact ⟨clear, program_of_lines [choice, server] clear⟩

end Parlance
