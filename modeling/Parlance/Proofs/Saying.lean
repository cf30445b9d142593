import Parlance.Proofs.BlockRoundTrip
import Parlance.Proofs.Endings
import Parlance.Proofs.LineTokens
import Parlance.Proofs.Renewals

/-!
What is said. The parts of a line that is said are joined by `and`, and so they are one conjunction,
because the expression after `say` takes every `and`.
-/

namespace Parlance

open List Lexer

/-! ### Strings as they are written -/

/-- What stands for one character of a string. -/
inductive Letter where
  | plain (c : Char)
  | escaped (c : Char)

def Letter.chars : Letter → List Char
  | .plain c => [c]
  | .escaped c => ['\\', c]

def Letter.char : Letter → Char
  | .plain c => c
  | .escaped c => unescape c

/-- A string between quotes. -/
structure Quotation where
  quote : Char
  letters : List Letter
  isQuote : quote = '"' ∨ quote = '\''
  apart : ∀ c, .plain c ∈ letters → c ≠ quote ∧ c ≠ '\\'

namespace Quotation

def inside (quotation : Quotation) : List Char := quotation.letters.flatMap Letter.chars

def chars (quotation : Quotation) : List Char :=
  quotation.quote :: (quotation.inside ++ [quotation.quote])

def value (quotation : Quotation) : String :=
  String.ofList (quotation.letters.map Letter.char)

theorem stringBody_letters {quote : Char} {letters : List Letter}
    (apart : ∀ c, .plain c ∈ letters → c ≠ quote ∧ c ≠ '\\') (more : List Char) :
    stringBody quote (letters.flatMap Letter.chars ++ more) = (stringBody quote more).map
      fun body => (letters.map Letter.char ++ body.1,
        (letters.flatMap Letter.chars).length + body.2) := by
  induction letters with
  | nil =>
    show stringBody quote more = _
    cases stringBody quote more <;> simp [Except.map]
  | cons letter rest ih =>
    have later := ih fun c member => apart c (mem_cons_of_mem _ member)
    rw [flatMap_cons, append_assoc, map_cons, length_append]
    cases letter with
    | plain c =>
      obtain ⟨other, plain⟩ := apart c mem_cons_self
      rw [Letter.chars, singleton_append, stringBody_cons plain, if_neg other, later, Lexer.map_map]
      simp [Function.comp_def, Letter.char, Nat.add_comm, Nat.add_left_comm]
    | escaped c =>
      rw [Letter.chars, cons_append, singleton_append, stringBody, later, Lexer.map_map]
      simp [Function.comp_def, Letter.char, Nat.add_comm, Nat.add_left_comm]

variable (quotation : Quotation) (before after : List Char)

theorem piece_chars : piece before quotation.quote
    (quotation.inside ++ quotation.quote :: after) = .ok
      { token? := some (.string quotation.value), extent := quotation.inside.length + 1 } := by
  have mark : quotation.quote ≠ '\\' := by rcases quotation.isQuote with same | same <;> simp [same]
  have body := stringBody_letters quotation.apart (quotation.quote :: after)
  simp only [stringBody_cons mark, if_true, Except.map, append_nil] at body
  have opens : opening quotation.quote = .string := by
    rcases quotation.isQuote with same | same <;> rw [same] <;> decide
  rw [piece, opens]
  exact congrArg (Except.map _) body

theorem tokensFrom_chars :
    tokensFrom before (quotation.chars ++ after) =
      (tokensFrom (quotation.chars.reverse ++ before) after).map
        (.string quotation.value :: ·) := by
  have size : (quotation.inside ++ [quotation.quote]).length = quotation.inside.length + 1 :=
    length_append
  rw [chars, cons_append, append_assoc, singleton_append,
    tokensFrom_of_piece (quotation.piece_chars before after), append_cons, take_left' size,
    drop_left' size]
  rfl

end Quotation

/-! ### Parts -/

/-- What can be said: strings, names that are no keywords, and numerals. -/
inductive Part where
  | quoted (string : Quotation)
  | simple (operand : Operand)

namespace Part

def chars : Part → List Char
  | .quoted string => string.chars
  | .simple operand => operand.chars

def token : Part → Token
  | .quoted string => .string string.value
  | .simple operand => operand.token

def expression : Part → Expr
  | .quoted string => .string string.value
  | .simple operand => operand.expression

/-- Whether a part is no numeral with too many digits. -/
def fits : Part → Bool
  | .quoted _ => true
  | .simple operand => operand.fits

def value? (world : World) : Part → Option Value
  | .quoted string => some (.string string.value)
  | .simple (.numeral number) => some (.number number.value)
  | .simple (.name chars _ _) => Scope.get? world.scopes (smallWord chars)

/-- The characters of more parts, each after `and`. -/
def joined (rest : List Part) : List Char :=
  rest.flatMap fun part => " and ".toList ++ part.chars

/-- The tokens of more parts, each after `and`. -/
def joinedTokens (rest : List Part) : List Token :=
  rest.flatMap fun part => [.symbol .andWord, part.token]

def chain (expression : Expr) (rest : List Part) : Expr :=
  rest.foldl (fun left part => .binary left .and part.expression) expression

variable {first : Part} {rest : List Part} (part : Part)

theorem tokensFrom_chars (fits : part.fits = true) (before : List Char) {after : List Char}
    (ends : Ends after) (apart : Text.lowercaseChars ((after.drop 1).take 3) ≠ "by ".toList) :
    tokensFrom before (part.chars ++ after) =
      (tokensFrom (part.chars.reverse ++ before) after).map (part.token :: ·) := by
  cases part with
  | quoted string => exact string.tokensFrom_chars before after
  | simple operand => exact operand.tokensFrom_chars fits before ends apart

theorem tokensFrom_joined (fits : ∀ part ∈ first :: rest, part.fits = true) (before : List Char) :
    tokensFrom before (first.chars ++ joined rest) =
      .ok (first.token :: (joinedTokens rest ++ [.symbol .endOfText])) := by
  induction rest generalizing first before with
  | nil =>
    rw [joined, flatMap_nil, first.tokensFrom_chars (fits first mem_cons_self) before
      .nil (by decide), tokensFrom_nil]
    rfl
  | cons second rest ih =>
    obtain ⟨here, others⟩ := forall_mem_cons.mp fits
    have spaced : joined (second :: rest) =
        ' ' :: ("and".toList ++ ' ' :: (second.chars ++ joined rest)) := by
      simp [joined]
    have words := BinaryOperator.take_words_ne (rfl : BinaryOperator.and.words? = some "and")
      (second.chars ++ joined rest)
    rw [spaced, first.tokensFrom_chars here before (.space _) words, tokensFrom_space,
      BinaryOperator.tokensFrom_keyword_space "and" .andWord _ _ ⟨by decide, by decide⟩
        (by decide) (by decide), ih others]
    rfl

theorem tokens_expression : part.expression.tokens = [part.token] := by
  rcases part with _ | ⟨_ | _⟩ <;> rfl

theorem isPrintable_expression : part.expression.IsPrintable .factor := by
  rcases part with string | ⟨chars, spelt, free⟩ | number
  · exact .string _
  · exact .place (.identifier _)
  · exact .number _

theorem tokens_chain (expression : Expr) (rest : List Part) :
    (chain expression rest).tokens = expression.tokens ++ joinedTokens rest := by
  induction rest generalizing expression with
  | nil => exact (append_nil _).symm
  | cons part rest ih =>
    rw [chain, foldl_cons]
    refine (ih _).trans ?_
    rw [Expr.tokens, tokens_expression, append_assoc]
    rfl

variable {expression : Expr}

theorem isPrintable_chain (printable : expression.IsPrintable .conjunction) (rest : List Part) :
    (chain expression rest).IsPrintable .conjunction := by
  induction rest generalizing expression with
  | nil => exact printable
  | cons part rest ih =>
    exact ih (.conjunction printable
      (.affirmation (.arithmetic (.term (.factor part.isPrintable_expression)))))

def saidText (first : Part) (rest : List Part) : String :=
  String.ofList ("say ".toList ++ (first.chars ++ joined rest))

/-- The parts are one conjunction. -/
theorem program?_saidText (fits : ∀ part ∈ first :: rest, part.fits = true) :
    program? (saidText first rest) = some [.say [chain first.expression rest]] := by
  have value : (chain first.expression rest).IsPrintable .disjunction := .only (isPrintable_chain
    (.single (.affirmation (.arithmetic (.term (.factor first.isPrintable_expression))))) rest)
  have scanned : tokens (saidText first rest) =
      .ok (.symbol .say :: ((chain first.expression rest).tokens ++ [.symbol .endOfText])) := by
    have spelt : (saidText first rest).toList =
        "say".toList ++ ' ' :: (first.chars ++ joined rest) := String.toList_ofList
    show tokensFrom [] (saidText first rest).toList = _
    rw [spelt, BinaryOperator.tokensFrom_keyword_space "say" .say _ _ ⟨by decide, by decide⟩
      (by decide) (by decide), tokensFrom_joined fits, tokens_chain, tokens_expression]
    rfl
  have read : Parse.statement
      (.symbol .say :: ((chain first.expression rest).tokens ++ [.symbol .endOfText])) =
        .ok (some (.say [chain first.expression rest]), [.symbol .endOfText]) := by
    refine Parse.orStall_eq_ok.mpr ⟨?_, nofun⟩
    refine (Sentence.statementOf_opening (.leaf (.say ⟨_, value⟩)) _).trans ?_
    exact (Parse.atStatement_word rfl _).trans
      (Parse.bind_ok (Printable.reads ⟨_, value⟩ .endOfText rfl []))
  have items : Parse.LineItems [.endOfText] Parse.statement _ [some (.say _)] _ :=
    .more rfl read (Nat.succ_lt_succ (by simp)) (.none rfl)
  have whole : Parse.program _ = .ok ([.say _], _) :=
    Parse.bind_ok (items.lines (.symbol .say :: _) rfl)
  exact program?_eq_some.mpr ⟨_, scanned, congrArg (Except.map Prod.fst) whole⟩

/-! ### What is said -/

variable {settings : Settings} {world : World} {value : Part → Value}

theorem evaluate_expression {part : Part} {value : Value} (known : part.value? world = some value)
    (depth : Nat) : evaluate settings (depth + 1) part.expression world = .ok value world := by
  rw [evaluate]
  refine Run.reporting_ok settings _ ?_
  rcases part with string | ⟨chars, spelt, free⟩ | number
  · cases known
    rfl
  · have found : Scope.get? world.scopes (smallWord chars) = some value := known
    show Engine.variableValue (smallWord chars) world = _
    rw [Engine.variableValue, Run.look_bind, found]
    rfl
  · cases known
    rfl

/-- A conjunction has the value of one part: those before it count as true, and it is the last or
counts as false. -/
theorem exists_evaluate_chain {least : Nat}
    (known : ∀ part ∈ rest, part.value? world = some (value part))
    (given : ∀ depth, least < depth →
      evaluate settings depth expression world = .ok (value first) world) :
    ∃ before said after, first :: rest = before ++ said :: after ∧
      (∀ part ∈ before, world.heap.isTrue (value part) = true) ∧
      (after = [] ∨ world.heap.isTrue (value said) = false) ∧
      ∀ depth, least + rest.length < depth →
        evaluate settings depth (chain expression rest) world = .ok (value said) world := by
  induction rest generalizing expression first least with
  | nil => exact ⟨[], first, [], rfl, forall_mem_nil _, .inl rfl, given⟩
  | cons second rest ih =>
    obtain ⟨here, others⟩ := forall_mem_cons.mp known
    have joint (depth : Nat) (deep : least + 1 < depth) :
        evaluate settings depth (.binary expression .and second.expression) world =
          .ok (if world.heap.isTrue (value first) then value second else value first) world := by
      obtain ⟨below, rfl⟩ : ∃ below, depth = below + 2 := ⟨depth - 2, by omega⟩
      have left := given (below + 1) (Nat.lt_of_succ_lt_succ deep)
      rw [evaluate]
      exact Run.reporting_ok settings _ ((Run.bind_ok left).trans
        (Run.bind_ok (evaluate_expression here below)))
    cases counts : world.heap.isTrue (value first) with
    | true =>
      rw [counts] at joint
      obtain ⟨before, said, after, parts, hold, last, gives⟩ := ih others joint
      refine ⟨first :: before, said, after, congrArg _ parts,
        forall_mem_cons.mpr ⟨counts, hold⟩, last, fun depth deep => gives depth ?_⟩
      rw [length_cons] at deep
      omega
    | false =>
      rw [counts] at joint
      obtain ⟨before, said, after, parts, hold, last, gives⟩ := ih others joint
      cases before with
      | cons _ _ =>
        cases parts
        rw [hold _ mem_cons_self] at counts
        cases counts
      | nil =>
        cases parts
        refine ⟨[], first, second :: rest, rfl, hold, .inr counts, fun depth deep => gives depth ?_⟩
        rw [length_cons] at deep
        omega

end Part

theorem join_eq_empty_iff {texts : List String} :
    String.join texts = "" ↔ ∀ text ∈ texts, text = "" := by
  rw [← String.toList_eq_nil_iff, String.toList_join, flatMap_eq_nil_iff]
  simp only [String.toList_eq_nil_iff]

/-- A text among others is all of them one after another if and only if the others are empty. -/
theorem eq_join_iff {before after : List String} {said : String} :
    said = String.join (before ++ said :: after) ↔ ∀ other ∈ before ++ after, other = "" := by
  rw [← join_eq_empty_iff, String.join_append, String.join_append, String.join_cons,
    String.append_eq_empty_iff]
  constructor
  · intro same
    have sizes := congrArg String.length same
    simp only [String.length_append] at sizes
    exact ⟨String.length_eq_zero_iff.mp (by omega), String.length_eq_zero_iff.mp (by omega)⟩
  · rintro ⟨front, back⟩
    rw [front, back, String.append_empty, String.empty_append]

theorem execute_say {settings : Settings} {depth : Nat} {expression : Expr} {world : World}
    {value : Value} {text : String}
    (given : evaluate settings depth expression world = .ok value world)
    (shown : world.heap.text value = .ok text) :
    execute settings (depth + 1) (.say [expression]) world =
      .ok () (world.write .output (text ++ "\n")) := by
  have told : Run.text value world = .ok text world := by
    show Run.ofExcept (world.heap.text value) world = _
    rw [shown]
    rfl
  have texts : (Engine.ofDepth settings depth).texts [expression] world = .ok [text] world :=
    (Run.bind_ok given).trans (Run.bind_ok told)
  rw [execute]
  refine Run.reporting_ok settings () ((Run.bind_ok texts).trans ?_)
  rw [String.join_cons, String.join_nil, String.append_empty]
  rfl

/-- Parts that are said are one conjunction, and one line is written: the text of one of them,
before which all count as true, and which is the last or counts as false. That is all of their texts
one after another if and only if the other texts are empty. -/
theorem one_part_is_said (settings : Settings) {depth : Nat} {world : World} {first : Part}
    {rest : List Part} {value : Part → Value} {text : Part → String}
    (means : ∀ part ∈ first :: rest, part.fits = true ∧ part.value? world = some (value part) ∧
      world.heap.text (value part) = .ok (text part)) (deep : rest.length + 2 ≤ depth) :
    program? (Part.saidText first rest) = some [.say [Part.chain first.expression rest]] ∧
    ∃ before said after, first :: rest = before ++ said :: after ∧
      (∀ part ∈ before, world.heap.isTrue (value part) = true) ∧
      (after = [] ∨ world.heap.isTrue (value said) = false) ∧
      (Engine.ofDepth settings depth).runSource (Part.saidText first rest) world =
        .ok () ({ world with editions := world.editions + 1 }.write .output (text said ++ "\n")) ∧
      (text said = String.join ((first :: rest).map text) ↔
        ∀ other ∈ before ++ after, text other = "") := by
  have read := Part.program?_saidText fun part member => (means part member).1
  refine ⟨read, ?_⟩
  obtain ⟨depth, rfl⟩ : ∃ below, depth = below + 1 := ⟨depth - 1, by omega⟩
  let inside : World := { world with editions := world.editions + 1, edition := [world.editions] }
  have valued (part : Part) (member : part ∈ first :: rest) :
      part.value? inside = some (value part) := (means part member).2.1
  have begun (depth : Nat) (positive : 0 < depth) :
      evaluate settings depth first.expression inside = .ok (value first) inside := by
    obtain ⟨below, rfl⟩ := Nat.exists_eq_add_of_lt positive
    exact Part.evaluate_expression (valued first mem_cons_self) _
  obtain ⟨before, said, after, parts, hold, last, gives⟩ := Part.exists_evaluate_chain
    (fun part member => valued part (mem_cons_of_mem _ member)) begun
  refine ⟨before, said, after, parts, hold, last, ?_, ?_⟩
  · have among : said ∈ first :: rest := by
      rw [parts]
      exact mem_append_right _ mem_cons_self
    have executed := execute_say (gives depth (by omega)) (means said among).2.2
    have ran : (Engine.ofDepth settings (depth + 1)).runBlock ⟨[world.editions], _⟩
        { world with editions := world.editions + 1 } = .ok () _ :=
      Engine.runBlock_single _ executed
    rw [Engine.runSource, Run.program_eq_pure read]
    exact (Run.bind_ok rfl).trans (Engine.runProgram_cons _ (.say _) [] world ran)
  · rw [parts, map_append, map_cons, eq_join_iff, ← map_append]
    exact forall_mem_map

theorem one_part_is_said_of_two :
    let settings : Settings := { permissions := ⟨fun _ => false⟩ }
    let world : World :=
      { scope := ⟨[("x", .string "four")], [], none⟩, files := ⟨[], ["work"], ["home"], []⟩ }
    let first : Part := .quoted ⟨'"', "x is ".toList.map .plain, .inl rfl, by simp⟩
    let second : Part := .simple (.name ['x'] (by decide) (by decide))
    Part.saidText first [second] = "say \"x is \" and x" ∧
      ∃ before said after, [first, second] = before ++ said :: after ∧
        ∃ line, (Engine.ofDepth settings 3).runSource (Part.saidText first [second]) world =
          .ok () ({ world with editions := world.editions + 1 }.write .output (line ++ "\n")) := by
  intro settings world first second
  let value (part : Part) : Value := (part.value? world).getD .nothing
  let text (part : Part) : String := ((world.heap.text (value part)).toOption).getD ""
  have means : ∀ part ∈ [first, second], part.fits = true ∧
      part.value? world = some (value part) ∧ world.heap.text (value part) = .ok (text part) :=
    forall_mem_cons.mpr ⟨⟨rfl, rfl, rfl⟩, forall_mem_singleton.mpr ⟨rfl, rfl, rfl⟩⟩
  obtain ⟨-, before, said, after, parts, -, -, ran, -⟩ :=
    one_part_is_said settings means (Nat.le_refl 3)
  exact ⟨by decide, before, said, after, parts, text said, ran⟩

/-- Of a string and a number only the number is said. -/
theorem string_is_not_said :
    let settings : Settings := { permissions := ⟨fun _ => false⟩ }
    let world : World := Beginning.world { files := .bare }
    let run := (Engine.ofDepth settings 9).runSource "x is 4\nsay \"x is \" and x" world
    (Run.final run).transcript = "4\n" := by
  decide +kernel

end Parlance
