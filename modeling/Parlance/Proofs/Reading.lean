import Parlance.Parse.Statement

/-!
Relations between readers that reading respects. If one holds for the readers of which all others
are made, and is kept by the ways in which these are put together, then it holds between the readers
of every form of the language.
-/

namespace Parlance

open Parse

/-- Where a reader begins: anywhere, or at a token that is neither a line end nor the end of the
text. -/
inductive Start where
  | anywhere | atWord

/-- Whether a reader takes a token whenever it succeeds. -/
inductive Taking where
  | perhaps | surely

/-- A relation between readers, for each place to begin. -/
abbrev ReadRelation := Start → Taking → (α : Type) → Parse α → Parse α → Prop

/-- What is found where a line ends: no token, a line end or the end of the text. -/
inductive IsEnd : Option Token → Prop where
  | nothing : IsEnd none
  | newline : IsEnd (some (.symbol .newline))
  | endOfText : IsEnd (some (.symbol .endOfText))

/-- Whether a test fails at line ends and at the end of the text. -/
def OnlyWords (test : Token → Bool) : Prop :=
  test (.symbol .newline) = false ∧ test (.symbol .endOfText) = false

theorem onlyWords_isAmong {symbols : List Symbol} :
    OnlyWords (isAmong symbols) ↔ .newline ∉ symbols ∧ .endOfText ∉ symbols := by
  simp [OnlyWords, isAmong]

/-- Whether a reader that looks at the current token goes on in a certain way where a line ends. -/
def AtEnds {β : Type} (next there : Option Token → Parse β) : Prop :=
  let ends := [none, some (.symbol .newline), some (.symbol .endOfText)]
  ends.map next = ends.map there

theorem AtEnds.eq {β : Type} {next there : Option Token → Parse β} (same : AtEnds next there)
    {found : Option Token} (isEnd : IsEnd found) : next found = there found := by
  refine List.map_inj_left.mp same found ?_
  cases isEnd <;> simp

/-- A relation between readers that fail at the end of the text. -/
abbrev RefusalRelation := (α : Type) → Parse α → Parse α → Prop

namespace Parse

variable {α β : Type} {reader : Parse α} {next : α → Parse β} {tokens : List Token}

theorem bind_ok {rest : List Token} {value : α} (succeeded : reader tokens = .ok (value, rest)) :
    (reader >>= next) tokens = next value rest := by
  show Except.bind (reader tokens) (fun result => next result.1 result.2) = _
  rw [succeeded]
  rfl

theorem bind_error {failure : ParseFailure} (failed : reader tokens = .error failure) :
    (reader >>= next) tokens = .error failure := by
  show Except.bind (reader tokens) (fun result => next result.1 result.2) = _
  rw [failed]
  rfl

/-- A sequence succeeds only if its first reader does. -/
theorem ok_of_bind {result : β × List Token} (succeeded : (reader >>= next) tokens = .ok result) :
    ∃ value rest, reader tokens = .ok (value, rest) ∧ next value rest = .ok result := by
  cases ended : reader tokens with
  | error failure =>
    rw [bind_error ended] at succeeded
    cases succeeded
  | ok found =>
    rw [bind_ok ended] at succeeded
    exact ⟨found.1, found.2, rfl, succeeded⟩

end Parse

/-- What makes a relation between readers one that is kept when readers are put together by hand.
`ends` says what the two readers can find where a line ends for one of them. -/
structure ReadRules (related : ReadRelation) (ends : Option Token → Option Token → Prop) :
    Prop where
  isEnd {found met : Option Token} : ends found met → IsEnd found ∧ IsEnd met
  sameNothing {found met : Option Token} : ends found met → (found = none ↔ met = none)
  atWord {α : Type} {taking : Taking} {reader other : Parse α} :
    related .anywhere taking α reader other → related .atWord taking α reader other
  perhaps {α : Type} {start : Start} {reader other : Parse α} :
    related start .surely α reader other → related start .perhaps α reader other
  pure {α : Type} (value : α) : related .anywhere .perhaps α (Pure.pure value) (Pure.pure value)
  fail {α : Type} (cause : ParseError) :
    related .anywhere .surely α (fail cause) (fail cause)
  failAt {α : Type} {found met : Option Token} (wording : Option Token → ParseError) :
    ends found met →
      related .anywhere .surely α (Parse.fail (wording found)) (Parse.fail (wording met))
  bind {α β : Type} {start : Start} {taking : Taking} {reader other : Parse α}
    {next after : α → Parse β} :
    related start taking α reader other →
      (∀ value, related .anywhere .perhaps β (next value) (after value)) →
        related start taking β (reader >>= next) (other >>= after)
  advance : related .atWord .surely Unit advance advance
  look {β : Type} {taking : Taking} {next after : Option Token → Parse β} :
    (∀ token, ¬ IsEnd (some token) →
      related .atWord taking β (next (some token)) (after (some token))) →
        related .atWord taking β (current? >>= next) (current? >>= after)
  lookAround {β : Type} {taking : Taking} {next after : Option Token → Parse β} :
    (∀ token, ¬ IsEnd (some token) →
      related .atWord taking β (next (some token)) (after (some token))) →
    (∀ found met, ends found met → related .anywhere taking β (next found) (after met)) →
      related .anywhere taking β (current? >>= next) (current? >>= after)

/-- What makes a relation between readers one that reading respects: it is also kept by the loops.
`refuses` says of items on lines of their own that they cannot be read at the end of the text. -/
structure ReadCongruence (related : ReadRelation) (ends : Option Token → Option Token → Prop)
    (refuses : RefusalRelation) : Prop extends ReadRules related ends where
  refuseString : refuses String expectString expectString
  refuseIdentifier : refuses String expectIdentifier expectIdentifier
  refuseWhen : refuses Unit (expect .when) (expect .when)
  refuseBind {α β : Type} {reader other : Parse α} {next after : α → Parse β} :
    refuses α reader other → refuses β (reader >>= next) (other >>= after)
  manyWhile {α : Type} {test : Token → Bool} {item other : Parse α} :
    OnlyWords test → related .atWord .surely α item other →
      related .anywhere .perhaps (List α) (manyWhile test item) (manyWhile test other)
  lines {α : Type} {closers : List Symbol} {item other : Parse α} :
    OnlyWords (isAmong closers) → refuses α item other →
      related .atWord .surely α item other →
        related .anywhere .perhaps (List α) (lines closers item) (lines closers other)
  chain {operator another : Parse (Option BinaryOperator)} {operand other : Parse Expr} :
    related .anywhere .perhaps _ operator another → related .anywhere .surely Expr operand other →
      related .anywhere .surely Expr (chain operator operand) (chain another other)
  afterUsing {α : Type} {onSameLine sameLine onLines ownLines otherwise none : Parse α} :
    related .atWord .perhaps α onSameLine sameLine → related .anywhere .perhaps α onLines ownLines →
      related .anywhere .perhaps α otherwise none →
        related .anywhere .perhaps α (afterUsing onSameLine onLines otherwise)
          (afterUsing sameLine ownLines none)

/-- A relation, and the one that is asked of whatever is read after a first token. Relations that hold
as far as a depth of nesting descend to the depth below. -/
structure ReadDescent (related later : ReadRelation) (ends : Option Token → Option Token → Prop)
    (refuses : RefusalRelation) : Prop where
  law : ReadCongruence related ends refuses
  lower : ReadCongruence later ends refuses
  descend {α β : Type} {start : Start} {reader other : Parse α} {next after : α → Parse β} :
    related start .surely α reader other →
      (∀ value, later .anywhere .perhaps β (next value) (after value)) →
        related start .surely β (reader >>= next) (other >>= after)

namespace ReadRules

variable {α β : Type} {related : ReadRelation} {ends : Option Token → Option Token → Prop}
  (law : ReadRules related ends)

include law

/-! ### Sequences -/

/-- A reader that has its token, and what is read then. -/
theorem taking {next after : Parse β} (later : related .anywhere .perhaps β next after) :
    related .atWord .surely β (Parse.advance >>= fun _ => next)
      (Parse.advance >>= fun _ => after) :=
  law.bind law.advance fun _ => later

variable {reader other : Parse α}

theorem andThen {next after : α → Parse β} (first : related .anywhere .surely α reader other)
    (later : ∀ value, related .anywhere .perhaps β (next value) (after value)) :
    related .anywhere .perhaps β (reader >>= next) (other >>= after) :=
  law.bind (law.perhaps first) later

/-- Readers whose values are built upon. -/
theorem giving {start : Start} {taking : Taking} {build : α → β}
    (same : related start taking α reader other) :
    related start taking β (do return build (← reader)) (do return build (← other)) :=
  law.bind same fun _ => law.pure _

theorem lastly {build : α → β} (same : related .anywhere .surely α reader other) :
    related .anywhere .perhaps β (do return build (← reader)) (do return build (← other)) :=
  law.perhaps (law.giving same)

/-! ### What the current token decides -/

variable {taking : Taking} {test : Token → Bool} {next after : Bool → Parse β} {symbol : Symbol}

/-- A test that fails where a line ends decides alike. -/
theorem branch (words : OnlyWords test) (yes : related .atWord taking β (next true) (after true))
    (no : related .anywhere taking β (next false) (after false)) :
    related .anywhere taking β (sees test >>= next) (sees test >>= after) := by
  have fails : ∀ {found : Option Token}, IsEnd found → found.any test = false := by
    rintro _ (_ | _ | _)
    · rfl
    · exact words.1
    · exact words.2
  show related .anywhere taking β (current? >>= fun found => next (found.any test))
    (current? >>= fun found => after (found.any test))
  refine law.lookAround (fun token _ => ?_) fun found met atEnd => ?_
  · show related .atWord taking β (next (test token)) (after (test token))
    cases test token
    · exact law.atWord no
    · exact yes
  · obtain ⟨first, second⟩ := law.isEnd atEnd
    rw [fails first, fails second]
    exact no

/-- At a word every test decides alike. -/
theorem branchAtWord (same : ∀ seen, related .atWord taking β (next seen) (after seen)) :
    related .atWord taking β (sees test >>= next) (sees test >>= after) := by
  show related .atWord taking β (current? >>= fun found => next (found.any test))
    (current? >>= fun found => after (found.any test))
  exact law.look fun token _ => same _

theorem branchAtLineEnd (same : ∀ seen, related .anywhere taking β (next seen) (after seen)) :
    related .anywhere taking β (seesAny lineEnds >>= next)
      (seesAny lineEnds >>= after) := by
  show related .anywhere taking β
    (current? >>= fun found => next (found.any (isAmong lineEnds)))
    (current? >>= fun found => after (found.any (isAmong lineEnds)))
  refine law.lookAround (fun token _ => law.atWord (same _)) fun found met atEnd => ?_
  have seen : ∀ {found : Option Token}, IsEnd found →
      found.any (isAmong lineEnds) = found.isSome := by
    rintro _ (_ | _ | _) <;> rfl
  have both : found.isSome = met.isSome := by
    rw [Bool.eq_iff_iff, Option.isSome_iff_ne_none, Option.isSome_iff_ne_none, Ne, Ne,
      law.sameNothing atEnd]
  obtain ⟨first, second⟩ := law.isEnd atEnd
  rw [seen first, seen second, both]
  exact same _

/-- The current token decides, and where a line ends there is a failure that tells what is found. -/
theorem lookOrFail {next after : Option Token → Parse β} (wording : Option Token → ParseError)
    (words : ∀ token, ¬ IsEnd (some token) →
      related .atWord taking β (next (some token)) (after (some token)))
    (first : AtEnds next fun found => Parse.fail (wording found))
    (second : AtEnds after fun found => Parse.fail (wording found)) :
    related .anywhere taking β (Parse.current? >>= next) (Parse.current? >>= after) := by
  refine law.lookAround words fun found met atEnd => ?_
  obtain ⟨isEnd, isEnd'⟩ := law.isEnd atEnd
  rw [first.eq isEnd, second.eq isEnd']
  cases taking
  · exact law.perhaps (law.failAt wording atEnd)
  · exact law.failAt wording atEnd

/-- The current token decides, and where a line ends reading goes on in one way. -/
theorem lookOr {next after : Option Token → Parse β} {otherwise none : Parse β}
    (words : ∀ token, ¬ IsEnd (some token) →
      related .atWord taking β (next (some token)) (after (some token)))
    (same : related .anywhere taking β otherwise none)
    (first : AtEnds next fun _ => otherwise) (second : AtEnds after fun _ => none) :
    related .anywhere taking β (current? >>= next) (current? >>= after) := by
  refine law.lookAround words fun found met atEnd => ?_
  obtain ⟨isEnd, isEnd'⟩ := law.isEnd atEnd
  rw [first.eq isEnd, second.eq isEnd']
  exact same

theorem expect (word : OnlyWords (isAmong [symbol])) :
    related .anywhere .surely Unit (expect symbol) (expect symbol) := by
  obtain ⟨line, text⟩ := onlyWords_isAmong.mp word
  refine law.lookOrFail (.expected symbol.name) (fun token _ => ?_) ?_ ?_
  · split
    · split
      · exact law.advance
      · exact law.atWord (law.fail _)
    · exact law.atWord (law.fail _)
  all_goals
    simp only [List.mem_singleton] at line text
    simp [AtEnds, line, text]

/-- What is read after a word that is due. -/
theorem past {next after : Parse β}
    (word : (isAmong [symbol] (.symbol .newline) || isAmong [symbol] (.symbol .endOfText)) = false)
    (later : related .anywhere .perhaps β next after) :
    related .anywhere .perhaps β (Parse.expect symbol >>= fun _ => next)
      (Parse.expect symbol >>= fun _ => after) :=
  law.andThen (law.expect (Bool.or_eq_false_iff.mp word)) fun _ => later

theorem expectAll {symbols : List Symbol} (words : OnlyWords (isAmong symbols)) :
    related .anywhere .perhaps Unit (expectAll symbols) (expectAll symbols) := by
  induction symbols with
  | nil => exact law.pure ()
  | cons symbol rest ih =>
    simp only [onlyWords_isAmong, List.mem_cons, not_or] at words ih
    have word : OnlyWords (isAmong [symbol]) := by simp [onlyWords_isAmong, words]
    exact law.andThen (law.expect word) fun _ => ih ⟨words.1.2, words.2.2⟩

/-- What is read after words that are due. -/
theorem pastAll {symbols : List Symbol} {next after : Parse β}
    (words : (isAmong symbols (.symbol .newline) || isAmong symbols (.symbol .endOfText)) = false)
    (later : related .anywhere .perhaps β next after) :
    related .anywhere .perhaps β (Parse.expectAll symbols >>= fun _ => next)
      (Parse.expectAll symbols >>= fun _ => after) :=
  law.bind (law.expectAll (Bool.or_eq_false_iff.mp words)) fun _ => later

theorem expectString : related .anywhere .surely String expectString expectString := by
  refine law.lookOrFail (.expected "STRING") (fun token _ => ?_) rfl rfl
  split
  · exact law.taking (law.pure _)
  · exact law.atWord (law.fail _)

theorem expectIdentifier :
    related .anywhere .surely String expectIdentifier expectIdentifier := by
  refine law.lookOrFail (.expected "IDENTIFIER") (fun token _ => ?_) rfl rfl
  split
  · exact law.taking (law.pure _)
  · exact law.atWord (law.fail _)

/-! ### Operators -/

variable (operator : BinaryOperator)

theorem unlessLineEnds :
    related .anywhere .perhaps _ (unlessLineEnds operator)
      (unlessLineEnds operator) := by
  refine law.branchAtLineEnd fun seen => ?_
  split <;> exact law.pure _

theorem additiveOperator :
    related .anywhere .perhaps _ additiveOperator? additiveOperator? := by
  refine law.lookOr (fun token _ => ?_) (law.pure none) rfl rfl
  split
  · exact law.perhaps (law.taking (law.unlessLineEnds _))
  · exact law.perhaps (law.taking (law.unlessLineEnds _))
  · exact law.atWord (law.pure none)

theorem multiplicativeOperator :
    related .anywhere .perhaps _ multiplicativeOperator? multiplicativeOperator? := by
  refine law.lookOr (fun token _ => ?_) (law.pure none) rfl rfl
  split
  · exact law.perhaps (law.taking (law.unlessLineEnds _))
  · exact law.perhaps (law.taking (law.past rfl (law.unlessLineEnds _)))
  · exact law.atWord (law.pure none)

theorem comparisonOperator :
    related .anywhere .perhaps _ comparisonOperator? comparisonOperator? := by
  refine law.lookOr (fun token _ => ?_) (law.pure none) rfl rfl
  split
  · split
    · exact law.perhaps (law.taking (law.pure _))
    · exact law.atWord (law.pure none)
  · exact law.atWord (law.pure none)

theorem operatorAt (word : OnlyWords (isAmong [symbol])) :
    related .anywhere .perhaps _ (operatorAt symbol operator)
      (operatorAt symbol operator) :=
  law.branch word (law.perhaps (law.taking (law.pure _))) (law.pure none)

end ReadRules

namespace ReadCongruence

variable {α : Type} {related : ReadRelation} {ends : Option Token → Option Token → Prop}
  {refuses : RefusalRelation} (law : ReadCongruence related ends refuses)

include law

/-! ### Expressions -/

theorem separated {item other : Parse α} (same : related .anywhere .surely α item other) :
    related .anywhere .surely (List α) (separated item) (separated other) := by
  refine law.bind same fun first => law.giving (law.manyWhile ⟨rfl, rfl⟩ ?_)
  exact law.taking (law.perhaps same)

section

variable {nested inner : Parse Expr} (same : related .anywhere .surely Expr nested inner)

include same

theorem access : related .atWord .surely _ (access nested) (access inner) := by
  refine law.look fun token _ => ?_
  split
  · exact law.taking <| law.lastly law.expectIdentifier
  · refine law.taking <| law.andThen same fun index => ?_
    exact law.past rfl (law.pure _)
  · exact law.taking <| law.lastly same

theorem afterName (name : String) :
    related .anywhere .perhaps _ (afterName nested name) (afterName inner name) := by
  refine law.branch ⟨rfl, rfl⟩ (law.atWord ?_) ?_
  · exact law.giving (law.manyWhile ⟨rfl, rfl⟩ (law.atWord same))
  · exact law.giving (law.manyWhile ⟨rfl, rfl⟩ (law.access same))

theorem elementsBefore :
    related .anywhere .perhaps _ (elementsBefore nested) (elementsBefore inner) :=
  law.branch ⟨rfl, rfl⟩ (law.atWord (law.pure [])) (law.perhaps (law.separated same))

variable {name : Parse String}

theorem entry (named : related .anywhere .surely String name name) :
    related .anywhere .surely _ (entry name nested) (entry name inner) := by
  refine law.bind named fun key => law.past rfl ?_
  exact law.lastly same

theorem entries (named : related .anywhere .surely String name name)
    (refused : refuses String name name) :
    related .anywhere .perhaps _ (entries name nested) (entries name inner) := by
  refine law.bind (law.lines ⟨rfl, rfl⟩ (law.refuseBind refused)
    (law.atWord (law.entry same named))) fun pairs => ?_
  exact law.past rfl (law.pure _)

theorem requestParameters : related .anywhere .perhaps _ (requestParameters nested)
    (requestParameters inner) := by
  refine law.giving (law.afterUsing (law.atWord ?_) ?_ (law.pure []))
  · exact law.manyWhile ⟨rfl, rfl⟩ (law.atWord (law.entry same law.expectIdentifier))
  · exact law.entries same law.expectIdentifier law.refuseIdentifier

end

/-- A relation that is kept wherever reading goes on descends to itself. -/
theorem descent : ReadDescent related related ends refuses := ⟨law, law, law.bind⟩

end ReadCongruence

namespace ReadDescent

variable {β : Type} {related later : ReadRelation} {ends : Option Token → Option Token → Prop}
  {refuses : RefusalRelation} (link : ReadDescent related later ends refuses)

include link

/-- A reader that has its token, and what is read then. -/
theorem taking {next after : Parse β} (inside : later .anywhere .perhaps β next after) :
    related .atWord .surely β (advance >>= fun _ => next)
      (advance >>= fun _ => after) :=
  link.descend link.law.advance fun _ => inside

section

variable {nested inner : Parse Expr} (same : later .anywhere .surely Expr nested inner)

include same

theorem listElements :
    related .anywhere .surely _ (listElements nested) (listElements inner) :=
  link.descend (link.law.expect ⟨rfl, rfl⟩) fun _ =>
    link.lower.bind (link.lower.elementsBefore same) fun _ =>
      link.lower.past rfl (link.lower.pure _)

theorem dictionary :
    related .anywhere .surely _ (dictionary nested) (dictionary inner) :=
  have entries := link.lower.entries same link.lower.expectString link.lower.refuseString
  link.descend (link.law.expect ⟨rfl, rfl⟩) fun _ =>
    link.lower.giving entries

theorem object : related .anywhere .surely _ (object nested) (object inner) :=
  have entries := link.lower.entries same link.lower.expectIdentifier link.lower.refuseIdentifier
  link.descend (link.law.expect ⟨rfl, rfl⟩) fun _ =>
    link.lower.giving entries

theorem wordForm (sign : Symbol) :
    related .atWord .surely _ (wordForm nested sign) (wordForm inner sign) := by
  have law := link.lower
  unfold Parse.wordForm
  split
  · exact link.law.atWord (link.law.giving (link.listElements same))
  · exact link.law.atWord (link.dictionary same)
  · exact link.law.atWord (link.object same)
  iterate 3
    · refine link.taking <| law.andThen same fun _ => ?_
      exact law.past rfl <| law.lastly same
  iterate 2
    · refine link.taking <| law.andThen same fun _ => ?_
      exact law.past rfl <| law.lastly law.expectString
  · refine link.taking <| law.andThen law.expectString fun _ => ?_
    refine law.past rfl ?_
    refine law.andThen law.expectString fun _ => ?_
    refine law.past rfl ?_
    exact law.lastly same
  · refine link.taking <| law.andThen law.expectString fun _ => ?_
    exact law.giving (law.requestParameters same)
  · refine link.taking <| law.past rfl ?_
    exact law.lastly law.expectString
  · refine link.taking <| law.past rfl ?_
    refine law.andThen same fun _ => ?_
    exact law.past rfl <| law.lastly same
  · refine link.taking <| law.past rfl ?_
    refine law.andThen law.expectString fun _ => ?_
    refine law.past rfl ?_
    exact law.lastly (law.separated same)
  · exact link.law.atWord (link.law.fail _)

theorem factor : related .anywhere .surely _ (factor nested) (factor inner) := by
  refine link.law.lookOrFail .unexpected (fun token _ => ?_) rfl rfl
  split
  case h_3 => exact link.taking (link.lower.afterName same _)
  case h_9 => exact link.wordForm same _
  case h_10 => exact link.law.atWord (link.law.fail _)
  all_goals exact link.law.taking (link.law.pure _)

theorem term : related .anywhere .surely _ (term nested) (term inner) :=
  link.law.chain link.law.multiplicativeOperator (link.factor same)

theorem arithmetic :
    related .anywhere .surely _ (arithmetic nested) (arithmetic inner) :=
  link.law.chain link.law.additiveOperator (link.term same)

theorem comparison :
    related .anywhere .surely _ (comparison nested) (comparison inner) := by
  refine link.law.bind (link.arithmetic same) fun left => ?_
  refine link.law.bind link.law.comparisonOperator fun operator => ?_
  cases operator with
  | none => exact link.law.pure left
  | some operator => exact link.law.lastly (link.arithmetic same)

theorem negation : related .anywhere .surely _ (negation nested) (negation inner) := by
  refine link.law.branch ⟨rfl, rfl⟩ ?_ (link.comparison same)
  exact link.law.taking <| link.law.lastly (link.comparison same)

theorem conjunction :
    related .anywhere .surely _ (conjunction nested) (conjunction inner) :=
  link.law.chain (link.law.operatorAt .and ⟨rfl, rfl⟩) (link.negation same)

theorem disjunction :
    related .anywhere .surely _ (disjunction nested) (disjunction inner) :=
  link.law.chain (link.law.operatorAt .or ⟨rfl, rfl⟩) (link.conjunction same)

end

end ReadDescent

end Parlance
