import Parlance.Proofs.ReadingStatements

/-!
Reading goes line by line. A text that can be read on its own is read in the same way when a line
end and more text follow it, unless its last word is `using`, after which a line end has a meaning
of its own.
-/

namespace Parlance

open List

variable {α β : Type}

/-- Tokens after which a line end can stand for the end of the text. -/
structure Passage (tokens : List Token) : Prop where
  hasNoEnd : .symbol .endOfText ∉ tokens
  last : tokens.getLast? ≠ some (.symbol .usingWord)

namespace Passage

theorem tail {token : Token} {tokens : List Token} (passage : Passage (token :: tokens)) :
    Passage tokens := by
  refine ⟨fun member => passage.hasNoEnd (mem_cons_of_mem token member), fun last => ?_⟩
  cases tokens with
  | nil => cases last
  | cons next rest => exact passage.last (List.getLast?_cons_cons.trans last)

variable {tokens : List Token}

theorem afterNewlines (passage : Passage tokens) : Passage (Parse.afterNewlines tokens) := by
  induction tokens with
  | nil => exact passage
  | cons token rest ih =>
    rw [Parse.afterNewlines, dropWhile_cons]
    split
    · exact ih passage.tail
    · exact passage

theorem eq_newline {token : Token} (passage : Passage (token :: tokens))
    (isEnd : IsEnd (some token)) : token = .symbol .newline := by
  cases isEnd with
  | newline => rfl
  | endOfText => exact absurd mem_cons_self passage.hasNoEnd

end Passage

/-- Whether a reader may begin at the tokens. -/
def Start.Admits : Start → List Token → Prop
  | .anywhere, _ => True
  | .atWord, tokens => ∃ token rest, tokens = token :: rest ∧ ¬ IsEnd (some token)

/-- What the first reader makes of the tokens before the end of the text, the second one makes of
them before a line end. -/
def Parse.Agree (following : List Token) (reader other : Parse α) (tokens : List Token) : Prop :=
  ∀ value rest, reader (tokens ++ [.symbol .endOfText]) = .ok (value, rest) →
    ∃ left, Passage left ∧ rest = left ++ [.symbol .endOfText] ∧
      other (tokens ++ .symbol .newline :: following) =
        .ok (value, left ++ .symbol .newline :: following)

/-- The relation between readers at the end of the text and at a line end. -/
def Parse.agreement (following : List Token) : ReadRelation :=
  fun start _ _ reader other => ∀ tokens, Passage tokens → start.Admits tokens →
    Agree following reader other tokens

/-- Whether the first of two readers fails at the end of the text. -/
def Parse.failsAtEnd : RefusalRelation :=
  fun _ reader _ => ∃ failure, reader [.symbol .endOfText] = .error failure

/-- What the two readers find where a line ends. -/
def Parse.lineEnd (found met : Option Token) : Prop :=
  (found = some (.symbol .newline) ∨ found = some (.symbol .endOfText)) ∧
    met = some (.symbol .newline)

namespace Parse

variable {following tokens rest last : List Token} {start : Start} {taking : Taking}
  {reader other item onSameLine onLines otherwise : Parse α} {token : Token} {bound larger : Bound}
  {closers : List Symbol} {values : List α} {later : List (Option Stmt)}

theorem agreement_of_error (fails : ∀ tokens, ∃ failure, reader tokens = .error failure) :
    agreement following start taking α reader other := by
  intro tokens _ _ value rest succeeded
  obtain ⟨failure, failed⟩ := fails (tokens ++ [.symbol .endOfText])
  rw [failed] at succeeded
  cases succeeded

theorem readRules_agreement (following : List Token) : ReadRules (agreement following) lineEnd where
  isEnd := by
    rintro found met ⟨rfl | rfl, rfl⟩
    · exact ⟨.newline, .newline⟩
    · exact ⟨.endOfText, .newline⟩
  sameNothing := by
    rintro found met ⟨rfl | rfl, rfl⟩ <;> simp
  atWord same tokens passage _ := same tokens passage trivial
  perhaps same := same
  pure value tokens passage _ := by
    rintro _ _ ⟨⟩
    exact ⟨tokens, passage, rfl, rfl⟩
  fail cause := agreement_of_error fun _ => ⟨_, rfl⟩
  failAt wording _ := agreement_of_error fun _ => ⟨_, rfl⟩
  bind first later tokens passage admits value rest succeeded := by
    obtain ⟨between, middle, read, finished⟩ := ok_of_bind succeeded
    obtain ⟨left, passage, rfl, same⟩ := first tokens passage admits between middle read
    obtain ⟨last, passage, rfl, same'⟩ := later between left passage trivial value rest finished
    exact ⟨last, passage, rfl, (bind_ok same).trans same'⟩
  advance := by
    rintro _ passage ⟨token, rest, rfl, _⟩ _ _ ⟨⟩
    exact ⟨rest, passage.tail, rfl, rfl⟩
  look words := by
    rintro _ passage ⟨token, rest, rfl, word⟩
    exact words token word (token :: rest) passage ⟨token, rest, rfl, word⟩
  lookAround words atEnd tokens passage _ := by
    cases tokens with
    | nil => exact atEnd _ _ ⟨.inr rfl, rfl⟩ [] passage trivial
    | cons token rest =>
      by_cases isEnd : IsEnd (some token)
      · obtain rfl := passage.eq_newline isEnd
        exact atEnd _ _ ⟨.inl rfl, rfl⟩ _ passage trivial
      · exact words token isEnd (token :: rest) passage ⟨token, rest, rfl, isEnd⟩

theorem isAmong_of_word {symbol : Symbol} (word : ¬ IsEnd (some token))
    (isEnd : IsEnd (some (.symbol symbol))) : isAmong [symbol] token = false := by
  cases token with
  | symbol sign =>
    have other : sign ≠ symbol := fun same => word (same ▸ isEnd)
    simpa [isAmong] using other
  | _ => rfl

/-! ### Loops -/

theorem exists_cons_of_fits {size : Nat} (fits : size + 1 ≤ bound.length) :
    ∃ mark rest, bound = mark :: rest ∧ size ≤ rest.length := by
  cases bound with
  | nil => cases fits
  | cons mark rest => exact ⟨mark, rest, rfl, Nat.le_of_succ_le_succ fits⟩

/-- What holds of no bound, and of bounds with a mark more, holds whenever the second bound is not
smaller. -/
theorem forall_larger {holds : Bound → Bound → Prop} (nil : ∀ larger, holds [] larger)
    (step : ∀ bound larger mark sign, holds bound larger → holds (mark :: bound) (sign :: larger))
    (bound larger : Bound) (fits : bound.length ≤ larger.length) : holds bound larger := by
  induction bound generalizing larger with
  | nil => exact nil larger
  | cons mark bound ih =>
    obtain ⟨sign, larger, rfl, smaller⟩ := exists_cons_of_fits fits
    exact step bound larger mark sign (ih larger smaller)

/-- Readers that agree whenever the second bound is not smaller agree when the tokens are the
bound. -/
theorem agreement_of_bounds {reader other : Bound → Parse α}
    (agree : ∀ bound larger : Bound, bound.length ≤ larger.length →
      agreement following start taking α (reader bound) (other larger)) :
    agreement following start taking α (fun tokens => reader (Bound.ofTokens tokens) tokens)
      (fun tokens => other (Bound.ofTokens tokens) tokens) := by
  intro tokens
  refine agree _ _ ?_ tokens
  simp [Bound.ofTokens]

theorem agreement_manyWhile {test : Token → Bool} (words : OnlyWords test)
    (same : agreement following .atWord .surely α item other) :
    agreement following .anywhere .perhaps (List α) (manyWhile test item)
      (manyWhile test other) := by
  have rules := readRules_agreement following
  refine agreement_of_bounds (forall_larger (fun _ => agreement_of_error fun _ => ⟨_, rfl⟩) ?_)
  intro bound larger _ _ later
  refine rules.branch words (rules.perhaps ?_) (rules.pure [])
  exact rules.bind same fun _ => rules.giving later

theorem agreement_chain {operator another : Parse (Option BinaryOperator)}
    {operand other : Parse Expr}
    (operators : agreement following .anywhere .perhaps _ operator another)
    (operands : agreement following .anywhere .surely Expr operand other) :
    agreement following .anywhere .surely Expr (chain operator operand) (chain another other) := by
  have rules := readRules_agreement following
  have within := @forall_larger (fun bound larger => ∀ left, agreement following .anywhere .perhaps
    Expr (chainFrom operator operand bound left) (chainFrom another other larger left))
    (fun _ _ => agreement_of_error fun _ => ⟨_, rfl⟩) ?_
  · exact rules.bind operands fun left =>
      agreement_of_bounds fun bound larger fits => within bound larger fits left
  intro bound larger _ _ later left
  refine rules.bind operators fun found => ?_
  cases found with
  | none => exact rules.pure left
  | some operator => exact rules.andThen operands fun right => later _

/-- Passing over line ends leads to a word, or to the end of the passage. -/
theorem admits_afterNewlines (passage : Passage tokens) :
    afterNewlines tokens = [] ∨ Start.atWord.Admits (afterNewlines tokens) := by
  induction tokens with
  | nil => exact .inl rfl
  | cons token rest ih =>
    rw [afterNewlines, dropWhile_cons]
    split
    · exact ih passage.tail
    · rename_i other
      refine .inr ⟨token, rest, rfl, fun isEnd => other ?_⟩
      rw [passage.eq_newline isEnd]
      rfl

theorem afterNewlines_append_of_ended (ended : afterNewlines tokens = []) (list : List Token) :
    afterNewlines (tokens ++ list) = afterNewlines list := by
  rw [afterNewlines] at ended
  rw [afterNewlines, dropWhile_append, ended]
  rfl

theorem afterNewlines_append_of_going (found : afterNewlines tokens = token :: rest)
    (list : List Token) : afterNewlines (tokens ++ list) = token :: rest ++ list := by
  rw [afterNewlines] at found
  rw [afterNewlines, dropWhile_append, found]
  rfl

theorem afterNewlines_append_endOfText (tokens : List Token) :
    afterNewlines (tokens ++ [.symbol .endOfText]) =
      afterNewlines tokens ++ [.symbol .endOfText] := by
  cases found : afterNewlines tokens with
  | nil => exact afterNewlines_append_of_ended found _
  | cons token rest => exact afterNewlines_append_of_going found _

theorem skipNewlines_bind (reader : Parse α) (tokens : List Token) :
    (skipNewlines >>= fun _ => reader) tokens = reader (afterNewlines tokens) := rfl

/-- Where the text ends after line ends, the first reader fails; elsewhere a word is next. -/
theorem agreement_skipNewlines (refused : ∃ failure, reader [.symbol .endOfText] = .error failure)
    (same : agreement following .atWord .perhaps α reader other) :
    agreement following .anywhere .perhaps α (skipNewlines >>= fun _ => reader)
      (skipNewlines >>= fun _ => other) := by
  intro tokens passage _ value rest succeeded
  rw [skipNewlines_bind] at succeeded ⊢
  rcases admits_afterNewlines passage with ended | ⟨token, left, found, word⟩
  · rw [afterNewlines_append_of_ended ended] at succeeded
    obtain ⟨failure, failed⟩ := refused
    cases failed.symm.trans succeeded
  · have passage := passage.afterNewlines
    rw [found] at passage
    rw [afterNewlines_append_of_going found] at succeeded ⊢
    exact same _ passage ⟨token, left, rfl, word⟩ value rest succeeded

theorem linesWithin_endOfText (words : OnlyWords (isAmong closers))
    (refused : failsAtEnd α item other) (bound : Bound) :
    ∃ failure, linesWithin closers item bound [.symbol .endOfText] = .error failure := by
  cases bound with
  | nil => exact ⟨_, rfl⟩
  | cons _ bound =>
    obtain ⟨failure, failed⟩ := refused
    refine ⟨failure, ?_⟩
    show (if isAmong closers (.symbol .endOfText) = true then _ else _ : Parse (List α)) _ = _
    rw [words.2]
    exact bind_error failed

theorem agreement_lines (words : OnlyWords (isAmong closers)) (refused : failsAtEnd α item other)
    (same : agreement following .atWord .surely α item other) :
    agreement following .anywhere .perhaps (List α) (lines closers item) (lines closers other) := by
  have rules := readRules_agreement following
  refine agreement_skipNewlines (linesWithin_endOfText words refused _)
    (agreement_of_bounds (forall_larger (fun _ => agreement_of_error fun _ => ⟨_, rfl⟩) ?_))
  intro bound larger _ _ later
  refine rules.branchAtWord fun seen => ?_
  cases seen with
  | true => exact rules.atWord (rules.pure [])
  | false =>
    refine rules.bind (rules.perhaps same) fun first => ?_
    refine agreement_skipNewlines ?_ (rules.giving later)
    obtain ⟨failure, failed⟩ := linesWithin_endOfText words refused bound
    exact ⟨failure, bind_error failed⟩

theorem afterUsing_other (other : token ≠ .symbol .usingWord) (rest : List Token) :
    afterUsing onSameLine onLines otherwise (token :: rest) = otherwise (token :: rest) := by
  have unseen : isAmong [.usingWord] token = false := by
    cases token with
    | symbol sign => simpa [isAmong] using other
    | _ => rfl
  show (if isAmong [.usingWord] token = true then _ else otherwise : Parse α) _ = _
  rw [unseen]
  rfl

theorem afterUsing_using (onSameLine onLines otherwise : Parse α) (token : Token)
    (rest : List Token) :
    afterUsing onSameLine onLines otherwise (.symbol .usingWord :: token :: rest) =
      (if isIdentifier token then onSameLine
        else if isAmong [.newline] token then onLines else otherwise) (token :: rest) := by
  show (if isIdentifier token = true then _ else _ : Parse α) (token :: rest) = _
  split
  · rfl
  · rfl

/-- What follows `using` is never the end of the passage, so it is seen alike. -/
theorem agreement_afterUsing {sameLine ownLines none : Parse α}
    (first : agreement following .atWord .perhaps α onSameLine sameLine)
    (second : agreement following .anywhere .perhaps α onLines ownLines)
    (third : agreement following .anywhere .perhaps α otherwise none) :
    agreement following .anywhere .perhaps α (afterUsing onSameLine onLines otherwise)
      (afterUsing sameLine ownLines none) := by
  intro tokens passage _
  cases tokens with
  | nil => exact third [] passage trivial
  | cons token rest =>
    by_cases isUsing : token = .symbol .usingWord
    · subst isUsing
      cases rest with
      | nil => exact absurd rfl passage.last
      | cons next rest =>
        have decided : Agree following (if isIdentifier next then onSameLine
              else if isAmong [.newline] next then onLines else otherwise)
            (if isIdentifier next then sameLine
              else if isAmong [.newline] next then ownLines else none) (next :: rest) := by
          split
          · rename_i name
            have word : ¬ IsEnd (some next) := by rintro (_ | _) <;> cases name
            exact first _ passage.tail ⟨next, rest, rfl, word⟩
          · split
            · exact second _ passage.tail trivial
            · exact third _ passage.tail trivial
        intro value left succeeded
        simp only [cons_append] at succeeded ⊢
        rw [afterUsing_using] at succeeded ⊢
        exact decided value left succeeded
    · intro value left succeeded
      simp only [cons_append] at succeeded ⊢
      rw [afterUsing_other isUsing] at succeeded ⊢
      exact third _ passage trivial value left succeeded

theorem readCongruence_agreement (following : List Token) :
    ReadCongruence (agreement following) lineEnd failsAtEnd where
  toReadRules := readRules_agreement following
  refuseString := ⟨_, rfl⟩
  refuseIdentifier := ⟨_, rfl⟩
  refuseWhen := ⟨_, rfl⟩
  refuseBind refused := refused.imp fun _ failed => bind_error failed
  manyWhile := agreement_manyWhile
  lines := agreement_lines
  chain := agreement_chain
  afterUsing := agreement_afterUsing

/-! ### Expressions and statements -/

theorem agreement_expression (following : List Token) :
    agreement following .anywhere .surely Expr expression expression := by
  refine agreement_of_bounds (forall_larger (fun _ => agreement_of_error fun _ => ⟨_, rfl⟩) ?_)
  exact fun _ _ _ _ => (readCongruence_agreement following).descent.disjunction

theorem orStall_apply (reader : Parse (Option Stmt)) (tokens : List Token) :
    orStall reader tokens = (reader tokens).bind fun found =>
      if found.1.isNone && found.2.length = tokens.length then .error .stalled else .ok found :=
  orAlarm_apply silent reader tokens

/-- Reading does not stall where it gives something or takes something. -/
theorem orStall_eq_ok {reader : Parse (Option Stmt)} {value : Option Stmt} :
    orStall reader tokens = .ok (value, rest) ↔
      reader tokens = .ok (value, rest) ∧ (value = none → rest.length ≠ tokens.length) := by
  rw [orStall_apply]
  cases reader tokens with
  | error failure => simp [Except.bind]
  | ok found =>
    obtain ⟨given, left⟩ := found
    rw [Except.bind]
    split
    · rename_i stays
      have stays : given = none ∧ left.length = tokens.length := by simpa using stays
      refine ⟨nofun, ?_⟩
      rintro ⟨⟨⟩, moved⟩
      exact absurd stays.2 (moved stays.1)
    · rename_i goes
      refine ⟨?_, And.left⟩
      rintro ⟨⟩
      exact ⟨rfl, by simpa using goes⟩

/-! ### Programs -/

theorem linesWithin_closed (closed : tokens.head?.any (isAmong closers) = true) (mark : Token)
    (bound : Bound) : linesWithin closers item (mark :: bound) tokens = .ok ([], tokens) := by
  show (if tokens.head?.any (isAmong closers) = true then _ else _ : Parse (List α)) _ = _
  rw [closed]
  rfl

theorem linesWithin_going_eq (going : tokens.head?.any (isAmong closers) = false) (mark : Token)
    (bound : Bound) :
    linesWithin closers item (mark :: bound) tokens =
      (item >>= fun first => skipNewlines >>= fun _ =>
        linesWithin closers item bound >>= fun others => pure (first :: others)) tokens := by
  show (if tokens.head?.any (isAmong closers) = true then _ else _ : Parse (List α)) _ = _
  rw [going]
  rfl

/-- Before the end, lines are an item and what follows the line ends after it. -/
theorem linesWithin_going (going : tokens.head?.any (isAmong closers) = false) {mark : Token} :
    linesWithin closers item (mark :: bound) tokens = .ok (values, last) ↔
      ∃ first between others, item tokens = .ok (first, between) ∧
        linesWithin closers item bound (afterNewlines between) =
          .ok (others, last) ∧ values = first :: others := by
  rw [linesWithin_going_eq going]
  constructor
  · intro succeeded
    obtain ⟨first, between, read, succeeded⟩ := ok_of_bind succeeded
    rw [skipNewlines_bind] at succeeded
    obtain ⟨others, rest, later, finished⟩ := ok_of_bind succeeded
    cases finished
    exact ⟨first, between, others, read, later, rfl⟩
  · rintro ⟨first, between, others, read, later, rfl⟩
    rw [bind_ok read, skipNewlines_bind, bind_ok later]
    rfl

theorem linesWithin_mono (fits : bound.length ≤ larger.length)
    (read : linesWithin closers item bound tokens = .ok (values, last)) :
    linesWithin closers item larger tokens = .ok (values, last) := by
  induction bound generalizing larger tokens values with
  | nil => cases read
  | cons mark bound ih =>
    obtain ⟨_, larger, rfl, smaller⟩ := exists_cons_of_fits fits
    cases seen : tokens.head?.any (isAmong closers) with
    | true =>
      rw [linesWithin_closed seen] at read ⊢
      exact read
    | false =>
      obtain ⟨first, between, others, item, later, rfl⟩ := (linesWithin_going seen).mp read
      refine (linesWithin_going seen).mpr ⟨first, between, others, item, ?_, rfl⟩
      exact ih smaller later

theorem agreement_orStall {reader other : Parse (Option Stmt)}
    (same : agreement following .atWord .perhaps _ reader other) :
    agreement following .atWord .surely _ (orStall reader) (orStall other) := by
  intro tokens passage admits value rest succeeded
  obtain ⟨read, moved⟩ := orStall_eq_ok.mp succeeded
  obtain ⟨left, passage, rfl, alike⟩ := same tokens passage admits value rest read
  refine ⟨left, passage, rfl, orStall_eq_ok.mpr ⟨alike, fun nothing => ?_⟩⟩
  simpa using moved nothing

theorem statementAt_endOfText (bound : Bound) (rest : List Token) :
    statementAt bound (.symbol .endOfText :: rest) = .error .stalled := by
  cases bound with
  | nil => rfl
  | cons _ bound =>
    have unmoved : statementOf (statementAt bound) (.symbol .endOfText :: rest) =
        .ok (none, .symbol .endOfText :: rest) := rfl
    rw [statementAt, orStall_apply, unmoved]
    exact if_pos (by simp)

/-- At a word there are no line ends to pass over. -/
theorem agreement_statementOf {nested inner : Parse (Option Stmt)}
    (same : agreement following .atWord .perhaps _ (atStatement nested) (atStatement inner)) :
    agreement following .atWord .perhaps _ (statementOf nested) (statementOf inner) := by
  rintro _ passage ⟨token, rest, rfl, word⟩ value left succeeded
  have stays (list : List Token) : afterNewlines (token :: rest ++ list) = token :: rest ++ list :=
    dropWhile_cons_of_neg (by rw [isAmong_of_word word .newline]; exact Bool.false_ne_true)
  rw [statementOf, skipNewlines_bind, stays] at succeeded ⊢
  exact same _ passage ⟨token, rest, rfl, word⟩ value left succeeded

theorem agreement_statementAt (following : List Token) :
    ∀ bound larger : Bound, bound.length ≤ larger.length →
      agreement following .atWord .surely _ (statementAt bound) (statementAt larger) := by
  refine forall_larger (fun _ => agreement_of_error fun _ => ⟨_, rfl⟩) ?_
  intro bound larger _ _ later
  refine agreement_orStall (agreement_statementOf ?_)
  exact (readCongruence_agreement following).atStatement (agreement_expression following) later
    ⟨_, statementAt_endOfText bound []⟩

theorem agreement_statement (following : List Token) :
    agreement following .atWord .surely _ statement statement :=
  agreement_of_bounds (agreement_statementAt following)

/-- The statements of a passage are followed by those of what follows the line end after it. -/
theorem linesWithin_joined {further : Bound}
    (next : linesWithin [.endOfText] statement further (afterNewlines following) =
      .ok (later, last)) {values : List (Option Stmt)} (passage : Passage tokens)
    (fits : bound.length + further.length ≤ larger.length + 1)
    (read : linesWithin [.endOfText] statement bound
      (afterNewlines tokens ++ [.symbol .endOfText]) = .ok (values, rest)) :
    linesWithin [.endOfText] statement larger
      (afterNewlines (tokens ++ .symbol .newline :: following)) =
        .ok (values ++ later, last) := by
  induction bound generalizing larger tokens values with
  | nil => cases read
  | cons mark bound ih =>
    rcases admits_afterNewlines passage with ended | ⟨token, left, found, word⟩
    · rw [ended] at read
      rw [afterNewlines_append_of_ended ended]
      rw [linesWithin_closed rfl] at read
      cases read
      refine linesWithin_mono ?_ next
      simp only [length_cons] at fits
      omega
    · have going (list : List Token) : (token :: list).head?.any (isAmong [.endOfText]) = false :=
        isAmong_of_word word .endOfText
      have passage := passage.afterNewlines
      rw [found] at read passage
      rw [afterNewlines_append_of_going found]
      obtain ⟨first, between, others, item, remaining, rfl⟩ := (linesWithin_going (going _)).mp read
      obtain ⟨left, passage, rfl, alike⟩ :=
        agreement_statement following _ passage ⟨token, left, rfl, word⟩ first between item
      rw [afterNewlines_append_endOfText] at remaining
      have bounded : 0 < further.length := by
        cases further with
        | nil => cases next
        | cons _ further => exact Nat.succ_pos _
      simp only [length_cons] at fits
      obtain ⟨_, larger, rfl⟩ := exists_cons_of_length_pos (by omega : 0 < larger.length)
      have fits : bound.length + further.length ≤ larger.length + 1 := by
        simp only [length_cons] at fits
        omega
      have joined := ih passage fits remaining
      exact (linesWithin_going (going _)).mpr ⟨first, _, _, alike, joined, rfl⟩

/-- Two texts with a line end between them are read as the lines of the first and after them those
of the second. -/
theorem linesWithin_append_newline {first second left : List Token} {values : List (Option Stmt)}
    (passage : Passage first) (read : linesWithin [.endOfText] statement
      (Bound.ofTokens (afterNewlines (first ++ [.symbol .endOfText])))
      (afterNewlines (first ++ [.symbol .endOfText])) = .ok (values, rest))
    (next : linesWithin [.endOfText] statement
      (Bound.ofTokens (afterNewlines (second ++ [.symbol .endOfText])))
      (afterNewlines (second ++ [.symbol .endOfText])) = .ok (later, left)) :
    linesWithin [.endOfText] statement
      (Bound.ofTokens (afterNewlines (first ++ .symbol .newline :: second ++ [.symbol .endOfText])))
      (afterNewlines (first ++ .symbol .newline :: second ++ [.symbol .endOfText])) =
        .ok (values ++ later, left) := by
  rw [append_assoc, cons_append]
  rw [afterNewlines_append_endOfText] at read
  rcases admits_afterNewlines passage with ended | ⟨token, others, found, _⟩
  · -- nothing stands before the line end, so the whole is read as the second text
    rw [afterNewlines_append_of_ended ended]
    rw [ended] at read
    cases read
    exact next
  · refine linesWithin_joined next passage ?_ read
    have shorter : (afterNewlines (second ++ [.symbol .endOfText])).length ≤
        (second ++ [Token.symbol .endOfText]).length := (dropWhile_suffix _).length_le
    rw [afterNewlines_append_of_going found, found]
    simp only [Bound.ofTokens, length_cons, length_append, length_nil] at shorter ⊢
    omega

theorem parse_eq (tokens : List Token) : parse tokens =
    ((linesWithin [.endOfText] statement (Bound.ofTokens (afterNewlines tokens))
      (afterNewlines tokens)).bind fun found =>
        .ok (found.1.filterMap id, found.2)).map Prod.fst := rfl

/-- Reading a program is reading the lines after the first line ends. -/
theorem parse_eq_ok {statements : List Stmt} : parse tokens = .ok statements ↔
      ∃ values rest, linesWithin [.endOfText] statement (Bound.ofTokens (afterNewlines tokens))
          (afterNewlines tokens) = .ok (values, rest) ∧
        values.filterMap id = statements := by
  rw [parse_eq]
  cases linesWithin [.endOfText] statement (Bound.ofTokens (afterNewlines tokens))
    (afterNewlines tokens) with
  | error failure =>
    refine ⟨nofun, ?_⟩
    rintro ⟨_, _, ⟨⟩, _⟩
  | ok found =>
    constructor
    · rintro ⟨⟩
      exact ⟨found.1, found.2, rfl, rfl⟩
    · rintro ⟨_, _, ⟨⟩, rfl⟩
      rfl

end Parse

/-- Reading is compositional over lines: if two texts can be read, and the first one does not end in
`using`, then the two of them with a line end between them are read as the statements of the first
one and after them those of the second. -/
theorem parse_append_newline (first second : List Token) (former latter : List Stmt)
    (hasNoEnd : .symbol .endOfText ∉ first)
    (last : first.getLast? ≠ some (.symbol .usingWord))
    (read : parse (first ++ [.symbol .endOfText]) = .ok former)
    (readNext : parse (second ++ [.symbol .endOfText]) = .ok latter) :
    parse (first ++ .symbol .newline :: second ++ [.symbol .endOfText]) =
      .ok (former ++ latter) := by
  obtain ⟨values, rest, lines, rfl⟩ := Parse.parse_eq_ok.mp read
  obtain ⟨later, left, nextLines, rfl⟩ := Parse.parse_eq_ok.mp readNext
  rw [← filterMap_append]
  exact Parse.parse_eq_ok.mpr ⟨values ++ later, left,
    Parse.linesWithin_append_newline ⟨hasNoEnd, last⟩ lines nextLines, rfl⟩

/-- A sum that lacks its second operand, and a `return` in a block on the next line. -/
theorem parse_append_newline_unfinished_sum :
    let first : List Token := [.identifier "x", .symbol .isWord, .number (.int 5), .symbol .plus]
    let second : List Token := [.symbol .repeatWord, .symbol .forever, .symbol .newline,
      .symbol .returnWord, .symbol .newline, .symbol .endWord]
    let former : List Stmt := [.assign (.identifier "x") (.number (.int 5))]
    let latter : List Stmt := [.repeatForever [.giveBack none]]
    .symbol .endOfText ∉ first ∧ first.getLast? ≠ some (.symbol .usingWord) ∧
      parse (first ++ [.symbol .endOfText]) = .ok former ∧
      parse (second ++ [.symbol .endOfText]) = .ok latter ∧
      parse (first ++ .symbol .newline :: second ++ [.symbol .endOfText]) =
        .ok (former ++ latter) := by
  intro first second former latter
  have hasNoEnd : .symbol .endOfText ∉ first := by simp [first]
  have last : first.getLast? ≠ some (.symbol .usingWord) := by simp [first]
  exact ⟨hasNoEnd, last, rfl, rfl,
    parse_append_newline first second former latter hasNoEnd last rfl rfl⟩

end Parlance
