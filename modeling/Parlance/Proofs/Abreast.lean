import Parlance.Proofs.Lines

/-!
Readers abreast: two readers go over tokens that they cannot tell apart up to the end of the text.
What bounds them need not be the same, so they are compared as far as a number of words. To tell a
bound that is used up from a statement that is not there, the second reader answers the latter with
an alarm of its own.
-/

namespace Parlance

open Parse List

variable {α β : Type}

/-! ### Words up to the end of the text -/

/-- Whether a token is a line end. -/
def Token.isNewline : Token → Bool := isAmong [.newline]

def Token.isEndOfText : Token → Bool := isAmong [.endOfText]

/-- How many of the tokens are not line ends. -/
def wordCount (tokens : List Token) : Nat := tokens.countP fun token => !token.isNewline

/-- The tokens up to the first mark for the end of the text, with that mark. -/
def throughEnd : List Token → List Token
  | [] => []
  | token :: rest => if token.isEndOfText then [token] else token :: throughEnd rest

/-- How many words there are up to the end of the text. -/
def wordsAhead (tokens : List Token) : Nat := wordCount (throughEnd tokens)

/-- Whether tokens are left of others of which some have been taken, but no mark for the end of the
text. -/
def LeftOf (tokens rest : List Token) : Prop :=
  ∃ taken, .symbol .endOfText ∉ taken ∧ tokens = taken ++ rest

def AtEnd (tokens : List Token) : Prop := tokens = [] ∨ ∃ rest, tokens = .symbol .endOfText :: rest

variable {token : Token} {tokens : List Token}

theorem Token.eq_newline (newline : token.isNewline = true) : token = .symbol .newline := by
  cases token with
  | symbol sign => simpa [isNewline, isAmong] using newline
  | _ => cases newline

theorem Token.isNewline_of_word (word : ¬ IsEnd (some token)) : token.isNewline = false :=
  isAmong_of_word word .newline

theorem Token.isEndOfText_eq_false (other : token ≠ .symbol .endOfText) :
    token.isEndOfText = false := by
  cases token with
  | symbol sign => simpa [isEndOfText, isAmong] using other
  | _ => rfl

theorem Parse.afterNewlines_word (word : token.isNewline = false) (rest : List Token) :
    afterNewlines (token :: rest) = token :: rest :=
  dropWhile_cons_of_neg (ne_true_of_eq_false word)

theorem wordCount_cons (token : Token) (rest : List Token) :
    wordCount (token :: rest) = wordCount rest + if token.isNewline then 0 else 1 := by
  rw [wordCount, wordCount, countP_cons]
  cases token.isNewline <;> rfl

theorem throughEnd_append {taken : List Token} (going : .symbol .endOfText ∉ taken)
    (rest : List Token) : throughEnd (taken ++ rest) = taken ++ throughEnd rest := by
  induction taken with
  | nil => rfl
  | cons token taken ih =>
    have other : token ≠ .symbol .endOfText := fun same => going (same ▸ mem_cons_self)
    rw [cons_append, throughEnd, Token.isEndOfText_eq_false other,
      ih fun member => going (mem_cons_of_mem _ member)]
    rfl

theorem head?_throughEnd (tokens : List Token) : (throughEnd tokens).head? = tokens.head? := by
  cases tokens with
  | nil => rfl
  | cons token rest =>
    rw [throughEnd]
    split <;> rfl

theorem wordsAhead_cons (token : Token) (rest : List Token) :
    wordsAhead (token :: rest) = (if token.isEndOfText then 0 else wordsAhead rest) +
      if token.isNewline then 0 else 1 := by
  rw [wordsAhead, throughEnd]
  split <;> rw [wordCount_cons] <;> rfl

theorem wordsAhead_word (word : ¬ IsEnd (some token)) (rest : List Token) :
    wordsAhead (token :: rest) = wordsAhead rest + 1 := by
  have other : token ≠ .symbol .endOfText := fun same => word (same ▸ .endOfText)
  rw [wordsAhead_cons, Token.isEndOfText_eq_false other, Token.isNewline_of_word word]
  rfl

theorem wordsAhead_le_length (tokens : List Token) : wordsAhead tokens ≤ tokens.length := by
  have shorter : (throughEnd tokens).length ≤ tokens.length := by
    induction tokens with
    | nil => exact Nat.le_refl _
    | cons token rest ih =>
      rw [throughEnd]
      split
      · exact Nat.succ_le_succ (Nat.zero_le _)
      · exact Nat.succ_le_succ ih
  exact Nat.le_trans countP_le_length shorter

namespace LeftOf

theorem refl (tokens : List Token) : LeftOf tokens tokens := ⟨[], not_mem_nil, rfl⟩

variable {tokens rest : List Token}

theorem trans {between : List Token} (first : LeftOf tokens between)
    (second : LeftOf between rest) : LeftOf tokens rest := by
  obtain ⟨taken, going, rfl⟩ := first
  obtain ⟨more, goingOn, rfl⟩ := second
  refine ⟨taken ++ more, fun member => ?_, (append_assoc ..).symm⟩
  exact (mem_append.mp member).elim going goingOn

theorem tail (word : ¬ IsEnd (some token)) (rest : List Token) :
    LeftOf (token :: rest) rest := by
  refine ⟨[token], fun member => word ?_, rfl⟩
  rw [← mem_singleton.mp member]
  exact .endOfText

theorem afterNewlines (tokens : List Token) : LeftOf tokens (afterNewlines tokens) := by
  refine ⟨tokens.takeWhile (isAmong [.newline]), fun member => ?_, takeWhile_append_dropWhile.symm⟩
  cases all_eq_true.mp all_takeWhile _ member

theorem suffix (left : LeftOf tokens rest) : rest <:+ tokens := by
  obtain ⟨taken, -, rfl⟩ := left
  exact suffix_append taken rest

theorem wordsAhead_le (left : LeftOf tokens rest) : wordsAhead rest ≤ wordsAhead tokens := by
  obtain ⟨taken, going, rfl⟩ := left
  rw [wordsAhead, wordsAhead, throughEnd_append going]
  exact (sublist_append_right taken _).countP_le

/-- At the end of the text nothing can be taken. -/
theorem eq_of_atEnd (left : LeftOf tokens rest) (atEnd : AtEnd tokens) : rest = tokens := by
  obtain ⟨taken, going, rfl⟩ := left
  cases taken with
  | nil => rfl
  | cons token taken =>
    rcases atEnd with ⟨⟨⟩⟩ | ⟨left, ⟨⟩⟩
    exact absurd mem_cons_self going

end LeftOf

/-- Passing over line ends leads to a word or to the end of the text. -/
theorem Parse.atWord_or_atEnd (tokens : List Token) :
    Start.atWord.Admits (afterNewlines tokens) ∨ AtEnd (afterNewlines tokens) := by
  cases found : afterNewlines tokens with
  | nil => exact .inr (.inl rfl)
  | cons token rest =>
    have other : token.isNewline = false := by
      have passed := List.head?_dropWhile_not Token.isNewline tokens
      rw [Token.isNewline, ← afterNewlines, found] at passed
      exact passed
    by_cases isEnd : IsEnd (some token)
    · cases isEnd with
      | newline => cases other
      | endOfText => exact .inr (.inr ⟨rest, rfl⟩)
    · exact .inl ⟨token, rest, rfl, isEnd⟩

/-! ### Statements that are not there -/

/-- Whether a statement is read where none is, and nothing is taken. -/
def Stuck (tokens : List Token) : Prop :=
  ∀ nested, statementOf nested tokens = .ok (none, tokens)

def Token.beginsStatement : Token → Bool
  | .identifier _ => true
  | .symbol sign => [.say, .printWord, .clear, .showWord, .ask, .ifWord, .repeatWord, .doWord,
      .breakWord, .continueWord, .stop, .define, .returnWord, .matchWord, .add, .remove, .sort,
      .reverse, .shuffle, .write, .draw, .when, .wait, .after, .every, .useWord, .install, .server,
      .job, .cron].contains sign
  | _ => false

theorem Parse.isSome_statementFrom? (nested : Parse (Option Stmt)) (token : Token) :
    (statementFrom? nested token).isSome = token.beginsStatement := by
  cases token with
  | symbol sign => cases sign <;> rfl
  | _ => rfl

/-- Where a token is next that is no line end, that token decides. -/
theorem Parse.statementOf_word (word : token.isNewline = false) (nested : Parse (Option Stmt))
    (rest : List Token) :
    statementOf nested (token :: rest) =
      (statementFrom? nested token).getD (pure none) (token :: rest) := by
  rw [statementOf, skipNewlines_bind, afterNewlines_word word, atStatement_eq]
  rfl

theorem stuck_word (word : token.isNewline = false) (none : token.beginsStatement = false)
    (rest : List Token) : Stuck (token :: rest) := by
  intro nested
  rw [← isSome_statementFrom? nested, Option.isSome_eq_false_iff, Option.isNone_iff_eq_none] at none
  rw [statementOf_word word, none]
  rfl

theorem stuck_atEnd (atEnd : AtEnd tokens) : Stuck tokens := by
  rcases atEnd with rfl | ⟨rest, rfl⟩
  · exact fun _ => rfl
  · exact stuck_word rfl rfl rest

namespace Parse

/-- Statements that are nested within the bound, with an alarm where one is not there. -/
def watchedAt (alarm : List Token → ParseFailure) : Bound → Parse (Option Stmt)
  | [] => throw .stalled
  | _ :: bound => orAlarm alarm (statementOf (watchedAt alarm bound))

/-- A statement, with an alarm where one is not there. -/
def watched (alarm : List Token → ParseFailure) : Parse (Option Stmt) :=
  fun tokens => watchedAt alarm (Bound.ofTokens tokens) tokens

theorem watchedAt_silent (bound : Bound) : watchedAt silent bound = statementAt bound := by
  induction bound with
  | nil => rfl
  | cons _ bound ih =>
    rw [watchedAt, ih]
    rfl

theorem watched_silent : watched silent = statement :=
  funext fun tokens => congrFun (watchedAt_silent _) tokens

end Parse

/-- The program that the tokens form, with an alarm where a statement is due and none is read and
nothing is taken. -/
def parseWatched (alarm : List Token → ParseFailure) (tokens : List Token) :
    Except ParseFailure (List Stmt) :=
  (block [.endOfText] (watched alarm) tokens).map Prod.fst

theorem parseWatched_silent (tokens : List Token) : parseWatched silent tokens = parse tokens := by
  rw [parseWatched, watched_silent]
  rfl

/-! ### Readers abreast -/

/-- What makes a relation between tokens one that readers cannot see through, up to the end of the
text. -/
structure Parallel (same : List Token → List Token → Prop) : Prop where
  head_eq {tokens others : List Token} : same tokens others → tokens.head? = others.head?
  tail {token : Token} {rest left : List Token} : ¬ IsEnd (some token) →
    same (token :: rest) (token :: left) → same rest left
  afterNewlines {tokens others : List Token} : same tokens others →
    same (afterNewlines tokens) (afterNewlines others)
  wordsAhead_eq {tokens others : List Token} : same tokens others →
    wordsAhead tokens = wordsAhead others

namespace Parallel

variable {same : List Token → List Token → Prop} (parallel : Parallel same)

include parallel

variable {others : List Token}

theorem eq_nil (alike : same [] others) : others = [] :=
  List.head?_eq_none_iff.mp (parallel.head_eq alike).symm

theorem exists_cons {rest : List Token} (alike : same (token :: rest) others) :
    ∃ left, others = token :: left :=
  List.head?_eq_some_iff.mp (parallel.head_eq alike).symm

theorem atEnd (alike : same tokens others) (ended : AtEnd tokens) :
    AtEnd others := by
  rcases ended with rfl | ⟨rest, rfl⟩
  · exact .inl (parallel.eq_nil alike)
  · exact .inr (parallel.exists_cons alike)

end Parallel

/-- Whether a reader has taken what it is said to take. -/
def Taking.Shrinks : Taking → List Token → List Token → Prop
  | .perhaps, _, _ => True
  | .surely, tokens, rest => wordsAhead rest < wordsAhead tokens

section

variable (same : List Token → List Token → Prop) (alarm : List Token → ParseFailure)

/-- What two readers make of tokens that they cannot tell apart: they fail alike, or the first one
stalls where the second one raises the alarm, or they read the same and leave tokens that they cannot
tell apart. -/
inductive Parse.Abreast (taking : Taking) (tokens others : List Token) :
    Except ParseFailure (α × List Token) → Except ParseFailure (α × List Token) → Prop where
  | failed (cause : ParseError) :
      Abreast taking tokens others (.error (.error cause)) (.error (.error cause))
  | stalled {place : List Token} : LeftOf others place → Stuck place →
      Abreast taking tokens others (.error .stalled) (.error (alarm place))
  | read (value : α) {rest left : List Token} : same rest left → LeftOf tokens rest →
      LeftOf others left → taking.Shrinks tokens rest →
        Abreast taking tokens others (.ok (value, rest)) (.ok (value, left))

/-- The relation between readers of tokens that they cannot tell apart, as far as a number of words. -/
def Parse.abreast (depth : Nat) : ReadRelation :=
  fun start taking _ reader other => ∀ tokens others, same tokens others →
    wordsAhead tokens < depth → start.Admits tokens →
      Abreast same alarm taking tokens others (reader tokens) (other others)

/-- The relation between readers that fail at the end of the text, or stall and raise the alarm. -/
def Parse.refusal : RefusalRelation := fun _ reader other =>
  ∀ tokens others, same tokens others → AtEnd tokens →
    Abreast same alarm .surely tokens others (reader tokens) (other others)

/-- Where a line ends the two readers find the same. -/
def Parse.sameEnd (found met : Option Token) : Prop := IsEnd found ∧ met = found

end

namespace Parse

variable {same : List Token → List Token → Prop} {alarm : List Token → ParseFailure}

namespace Abreast

variable {taking : Taking} {tokens others : List Token}
  {result another : Except ParseFailure (α × List Token)} {reader other : Parse α}
  {next after : α → Parse β}

theorem perhaps (abreast : Abreast same alarm taking tokens others result another) :
    Abreast same alarm .perhaps tokens others result another := by
  cases abreast with
  | failed cause => exact .failed cause
  | stalled left stuck => exact .stalled left stuck
  | read value alike left left' _ => exact .read value alike left left' trivial

/-- What is read from a rest on is read from the beginning on. -/
theorem extend {rest left : List Token} (first : LeftOf tokens rest) (first' : LeftOf others left)
    (shrinks : taking.Shrinks tokens rest)
    (abreast : Abreast same alarm .perhaps rest left result another) :
    Abreast same alarm taking tokens others result another := by
  cases abreast with
  | failed cause => exact .failed cause
  | stalled further stuck => exact .stalled (first'.trans further) stuck
  | read value alike further further' _ =>
    refine .read value alike (first.trans further) (first'.trans further') ?_
    cases taking with
    | perhaps => trivial
    | surely => exact Nat.lt_of_le_of_lt further.wordsAhead_le shrinks

theorem bind (first : Abreast same alarm taking tokens others (reader tokens) (other others))
    (later : ∀ value rest left, same rest left → LeftOf tokens rest →
      taking.Shrinks tokens rest →
        Abreast same alarm .perhaps rest left (next value rest) (after value left)) :
    Abreast same alarm taking tokens others ((reader >>= next) tokens) ((other >>= after) others) := by
  generalize found : reader tokens = result, met : other others = another at first
  cases first with
  | failed cause =>
    rw [bind_error found, bind_error met]
    exact .failed cause
  | stalled left stuck =>
    rw [bind_error found, bind_error met]
    exact .stalled left stuck
  | read value alike left left' shrinks =>
    rw [bind_ok found, bind_ok met]
    exact (later value _ _ alike left shrinks).extend left left' shrinks

/-- At the end of the text there is no word to take, so that nothing comes after. -/
theorem bind_atEnd (ended : AtEnd tokens)
    (first : Abreast same alarm .surely tokens others (reader tokens) (other others)) :
    Abreast same alarm .surely tokens others ((reader >>= next) tokens) ((other >>= after) others) :=
  first.bind fun _ _ _ _ left shrinks => by
    rw [left.eq_of_atEnd ended] at shrinks
    exact absurd shrinks (Nat.lt_irrefl _)

end Abreast

variable {depth : Nat}

variable (alarm depth) in
theorem readRules_abreast (parallel : Parallel same) :
    ReadRules (abreast same alarm depth) sameEnd where
  isEnd := by
    rintro found _ ⟨isEnd, rfl⟩
    exact ⟨isEnd, isEnd⟩
  sameNothing := by
    rintro found _ ⟨_, rfl⟩
    rfl
  atWord related tokens others alike shallow _ := related tokens others alike shallow trivial
  perhaps related tokens others alike shallow admits :=
    (related tokens others alike shallow admits).perhaps
  pure value tokens others alike _ _ := .read value alike (.refl tokens) (.refl others) trivial
  fail cause _ _ _ _ _ := .failed cause
  failAt wording := by
    rintro ⟨_, rfl⟩ _ _ _ _ _
    exact .failed _
  bind first later tokens others alike shallow admits :=
    (first tokens others alike shallow admits).bind fun value rest left alikeStill further _ =>
      later value rest left alikeStill (Nat.lt_of_le_of_lt further.wordsAhead_le shallow) trivial
  advance := by
    rintro _ others alike _ ⟨token, rest, rfl, word⟩
    obtain ⟨left, rfl⟩ := parallel.exists_cons alike
    refine .read () (parallel.tail word alike) (.tail word rest) (.tail word left) ?_
    show wordsAhead rest < wordsAhead (token :: rest)
    rw [wordsAhead_word word]
    exact Nat.lt_succ_self _
  look words := by
    rintro _ others alike shallow ⟨token, rest, rfl, word⟩
    obtain ⟨left, rfl⟩ := parallel.exists_cons alike
    exact words token word _ _ alike shallow ⟨token, rest, rfl, word⟩
  lookAround words atEnd tokens others alike shallow _ := by
    cases tokens with
    | nil =>
      obtain rfl := parallel.eq_nil alike
      exact atEnd none none ⟨.nothing, rfl⟩ _ _ alike shallow trivial
    | cons token rest =>
      obtain ⟨left, rfl⟩ := parallel.exists_cons alike
      by_cases isEnd : IsEnd (some token)
      · exact atEnd _ _ ⟨isEnd, rfl⟩ _ _ alike shallow trivial
      · exact words token isEnd _ _ alike shallow ⟨token, rest, rfl, isEnd⟩

variable {start : Start} {taking : Taking} {reader other : Parse α} {tokens : List Token}

theorem abreast_mono {less : Nat} (fewer : less ≤ depth)
    (related : abreast same alarm depth start taking α reader other) :
    abreast same alarm less start taking α reader other :=
  fun tokens others alike shallow => related tokens others alike (Nat.lt_of_lt_of_le shallow fewer)

/-- No words are too few to be compared. -/
theorem abreast_zero : abreast same alarm 0 start taking α reader other := by
  rintro _ _ _ ⟨⟩

/-- What follows a word has fewer of them. -/
theorem abreast_descend {next after : α → Parse β}
    (first : abreast same alarm (depth + 1) start .surely α reader other)
    (later : ∀ value, abreast same alarm depth .anywhere .perhaps β (next value) (after value)) :
    abreast same alarm (depth + 1) start .surely β (reader >>= next) (other >>= after) :=
  fun tokens others alike shallow admits =>
    (first tokens others alike shallow admits).bind fun value rest left alikeStill _ shrinks =>
      later value rest left alikeStill (Nat.lt_of_lt_of_le shrinks (Nat.le_of_lt_succ shallow))
        trivial

section

variable (parallel : Parallel same)

include parallel

/-! ### Loops -/

omit parallel in
/-- What holds of no words, and of one word more if the bounds have a mark more, holds within all
bounds. -/
theorem forall_bounds {holds : Nat → Bound → Bound → Prop}
    (zero : ∀ bound larger, holds 0 bound larger)
    (step : ∀ less bound larger mark sign, less + 1 ≤ depth → less ≤ bound.length →
      less ≤ larger.length → holds less bound larger →
        holds (less + 1) (mark :: bound) (sign :: larger)) :
    ∀ less ≤ depth, ∀ bound larger : Bound, less ≤ bound.length → less ≤ larger.length →
      holds less bound larger := by
  intro less fewer
  induction less with
  | zero => exact fun bound larger _ _ => zero bound larger
  | succ less ih =>
    intro bound larger fits fits'
    obtain ⟨_, bound, rfl, room⟩ := exists_cons_of_fits fits
    obtain ⟨_, larger, rfl, room'⟩ := exists_cons_of_fits fits'
    exact step less bound larger _ _ fewer room room'
      (ih (Nat.le_of_succ_le fewer) bound larger room room')

/-- Readers that go abreast as far as their bounds go abreast when the tokens are the bounds. -/
theorem abreast_of_bounds {start : Start} {taking : Taking} {reader other : Bound → Parse α}
    (within : ∀ less ≤ depth, ∀ bound larger : Bound, less ≤ bound.length →
      less ≤ larger.length → abreast same alarm less start taking α (reader bound) (other larger)) :
    abreast same alarm depth start taking α (fun tokens => reader (Bound.ofTokens tokens) tokens)
      (fun tokens => other (Bound.ofTokens tokens) tokens) := by
  intro tokens others alike shallow
  have fits : wordsAhead tokens + 1 ≤ (Bound.ofTokens tokens).length :=
    Nat.succ_le_succ (wordsAhead_le_length tokens)
  have fits' : wordsAhead tokens + 1 ≤ (Bound.ofTokens others).length := by
    rw [parallel.wordsAhead_eq alike]
    exact Nat.succ_le_succ (wordsAhead_le_length others)
  exact within _ shallow _ _ fits fits' tokens others alike (Nat.lt_succ_self _)

variable {other : Parse α}

theorem abreast_manyWhile {test : Token → Bool} {item : Parse α} (words : OnlyWords test)
    (related : abreast same alarm depth .atWord .surely α item other) :
    abreast same alarm depth .anywhere .perhaps (List α) (manyWhile test item)
      (manyWhile test other) := by
  refine abreast_of_bounds parallel (forall_bounds (fun _ _ => abreast_zero) ?_)
  intro less bound larger _ _ fewer _ _ later
  have rules := readRules_abreast alarm (less + 1) parallel
  refine rules.branch words (rules.perhaps ?_) (rules.pure [])
  exact abreast_descend (abreast_mono fewer related) fun _ =>
    (readRules_abreast alarm less parallel).giving later

theorem abreast_chain {operator another : Parse (Option BinaryOperator)}
    {operand other : Parse Expr}
    (operators : abreast same alarm depth .anywhere .perhaps _ operator another)
    (operands : abreast same alarm depth .anywhere .surely Expr operand other) :
    abreast same alarm depth .anywhere .surely Expr (chain operator operand)
      (chain another other) := by
  have within := @forall_bounds depth (fun less bound larger => ∀ left,
    abreast same alarm less .anywhere .perhaps Expr (chainFrom operator operand bound left)
      (chainFrom another other larger left)) (fun _ _ _ => abreast_zero) ?_
  · exact (readRules_abreast alarm depth parallel).bind operands fun left =>
      abreast_of_bounds parallel fun less fewer bound larger fits fits' =>
        within less fewer bound larger fits fits' left
  intro less bound larger _ _ fewer _ _ later left
  have rules := readRules_abreast alarm (less + 1) parallel
  refine rules.bind (abreast_mono fewer operators) fun found => ?_
  cases found with
  | none => exact rules.pure left
  | some operator =>
    exact rules.perhaps (abreast_descend (abreast_mono fewer operands) fun right => later _)

/-- Line ends are passed over, and reading goes on at a word or at the end of the text. -/
theorem abreast_skipNewlines {reader : Parse α}
    (related : abreast same alarm depth .atWord .perhaps α reader other)
    (ended : ∀ tokens others, same tokens others → wordsAhead tokens < depth → AtEnd tokens →
      Abreast same alarm .perhaps tokens others (reader tokens) (other others)) :
    abreast same alarm depth .anywhere .perhaps α (skipNewlines >>= fun _ => reader)
      (skipNewlines >>= fun _ => other) := by
  intro tokens others alike shallow _
  rw [skipNewlines_bind, skipNewlines_bind]
  have left := LeftOf.afterNewlines tokens
  have shallow := Nat.lt_of_le_of_lt left.wordsAhead_le shallow
  refine Abreast.extend left (.afterNewlines others) trivial ?_
  rcases atWord_or_atEnd tokens with word | atEnd
  · exact related _ _ (parallel.afterNewlines alike) shallow word
  · exact ended _ _ (parallel.afterNewlines alike) shallow atEnd

end

/-- Whether lines end alike at the end of the text, whatever bounds them. -/
def EndAlike (same : List Token → List Token → Prop) (alarm : List Token → ParseFailure)
    (closers : List Symbol) (item other : Parse α) : Prop :=
  ∀ (mark sign : Token) (bound larger : Bound) (tokens others : List Token),
    same tokens others → AtEnd tokens →
      Abreast same alarm .perhaps tokens others (linesWithin closers item (mark :: bound) tokens)
        (linesWithin closers other (sign :: larger) others)

section

variable (parallel : Parallel same)

include parallel

variable {closers : List Symbol} {item other : Parse α}

theorem abreast_lines (ended : EndAlike same alarm closers item other)
    (related : abreast same alarm depth .atWord .surely α item other) :
    abreast same alarm depth .anywhere .perhaps (List α) (lines closers item)
      (lines closers other) := by
  refine abreast_skipNewlines parallel ?_ fun tokens others alike _ atEnd =>
    ended _ _ tokens others tokens others alike atEnd
  refine abreast_of_bounds parallel (forall_bounds (fun _ _ => abreast_zero) ?_)
  intro less bound larger _ _ fewer room room' later
  have rules := readRules_abreast alarm (less + 1) parallel
  refine rules.branchAtWord fun seen => ?_
  cases seen with
  | true => exact rules.atWord (rules.pure [])
  | false =>
    refine rules.perhaps (abreast_descend (abreast_mono fewer related) fun first => ?_)
    refine abreast_skipNewlines parallel ((readRules_abreast alarm less parallel).giving later) ?_
    intro tokens others alike shallow atEnd
    obtain ⟨_, bound, rfl⟩ :=
      exists_cons_of_length_pos (Nat.zero_lt_of_lt (Nat.lt_of_lt_of_le shallow room))
    obtain ⟨_, larger, rfl⟩ :=
      exists_cons_of_length_pos (Nat.zero_lt_of_lt (Nat.lt_of_lt_of_le shallow room'))
    refine (ended _ _ bound larger tokens others alike atEnd).bind ?_
    intro value rest left alikeStill _ _
    exact .read _ alikeStill (.refl rest) (.refl left) trivial

/-- Where the end of the text closes no lines, they end with what an item makes of it. -/
theorem endAlike_of_refusal (words : OnlyWords (isAmong closers))
    (refused : refusal same alarm α item other) : EndAlike same alarm closers item other := by
  have going {tokens : List Token} (ended : AtEnd tokens) :
      tokens.head?.any (isAmong closers) = false := by
    rcases ended with rfl | ⟨rest, rfl⟩
    · rfl
    · exact words.2
  intro mark sign bound larger tokens others alike ended
  rw [linesWithin_going_eq (going ended), linesWithin_going_eq (going (parallel.atEnd alike ended))]
  exact ((refused tokens others alike ended).bind_atEnd ended).perhaps

/-- Every test of the current token decides alike. -/
theorem abreast_sees {taking : Taking} (test : Token → Bool) {next after : Bool → Parse β}
    (related : ∀ seen, abreast same alarm depth .anywhere taking β (next seen) (after seen)) :
    abreast same alarm depth .anywhere taking β (sees test >>= next) (sees test >>= after) := by
  have rules := readRules_abreast alarm depth parallel
  show abreast same alarm depth .anywhere taking β (current? >>= fun found => next (found.any test))
    (current? >>= fun found => after (found.any test))
  refine rules.lookAround (fun token _ => rules.atWord (related _)) ?_
  rintro found _ ⟨_, rfl⟩
  exact related _

/-- After `using` the next token decides, and it is the same on both sides. -/
theorem abreast_afterUsing {onSameLine sameLine onLines ownLines otherwise none : Parse α}
    (first : abreast same alarm depth .atWord .perhaps α onSameLine sameLine)
    (second : abreast same alarm depth .anywhere .perhaps α onLines ownLines)
    (third : abreast same alarm depth .anywhere .perhaps α otherwise none) :
    abreast same alarm depth .anywhere .perhaps α (afterUsing onSameLine onLines otherwise)
      (afterUsing sameLine ownLines none) := by
  have rules := readRules_abreast alarm depth parallel
  refine rules.branch ⟨rfl, rfl⟩ (rules.perhaps (rules.taking ?_)) third
  refine rules.branch ⟨rfl, rfl⟩ first ?_
  refine abreast_sees parallel (isAmong [.newline]) fun seen => ?_
  cases seen with
  | true => exact second
  | false => exact third

omit parallel in
/-- What goes abreast anywhere, and is said to take a token, fails at the end of the text. -/
theorem refusal_of_abreast {reader : Parse α}
    (related : ∀ depth, abreast same alarm depth .anywhere .surely α reader other) :
    refusal same alarm α reader other :=
  fun tokens others alike _ => related _ tokens others alike (Nat.lt_succ_self _) trivial

variable (alarm depth)

theorem readCongruence_abreast :
    ReadCongruence (abreast same alarm depth) sameEnd (refusal same alarm) where
  toReadRules := readRules_abreast alarm depth parallel
  refuseString := refusal_of_abreast fun depth =>
    (readRules_abreast alarm depth parallel).expectString
  refuseIdentifier := refusal_of_abreast fun depth =>
    (readRules_abreast alarm depth parallel).expectIdentifier
  refuseWhen := refusal_of_abreast fun depth =>
    (readRules_abreast alarm depth parallel).expect ⟨rfl, rfl⟩
  refuseBind refused tokens others alike ended :=
    (refused tokens others alike ended).bind_atEnd ended
  manyWhile := abreast_manyWhile parallel
  lines words refused related :=
    abreast_lines parallel (endAlike_of_refusal parallel words refused) related
  chain := abreast_chain parallel
  afterUsing := abreast_afterUsing parallel

theorem readDescent_abreast :
    ReadDescent (abreast same alarm (depth + 1)) (abreast same alarm depth) sameEnd
      (refusal same alarm) :=
  ⟨readCongruence_abreast alarm (depth + 1) parallel, readCongruence_abreast alarm depth parallel,
    abreast_descend⟩

/-! ### Expressions and statements -/

theorem abreast_expression :
    abreast same alarm depth .anywhere .surely Expr expression expression := by
  refine abreast_of_bounds parallel (forall_bounds (fun _ _ => abreast_zero) ?_)
  intro less bound larger _ _ _ _ _ later
  exact (readDescent_abreast alarm less parallel).disjunction later

end

theorem orAlarm_of_stuck (stuck : Stuck tokens) (alarm : List Token → ParseFailure)
    (nested : Parse (Option Stmt)) :
    orAlarm alarm (statementOf nested) tokens = .error (alarm tokens) := by
  rw [orAlarm_apply, stuck nested]
  exact if_pos (by simp)

theorem orAlarm_of_shrinks {reader : Parse (Option Stmt)} {rest : List Token} {value : Option Stmt}
    (read : reader tokens = .ok (value, rest)) (shrinks : wordsAhead rest < wordsAhead tokens)
    (left : LeftOf tokens rest) (alarm : List Token → ParseFailure) :
    orAlarm alarm reader tokens = .ok (value, rest) := by
  have moved : rest.length ≠ tokens.length := by
    intro sameLength
    rw [left.suffix.eq_of_length sameLength] at shrinks
    exact Nat.lt_irrefl _ shrinks
  rw [orAlarm_apply, read]
  exact if_neg (by simp [moved])

section

variable (parallel : Parallel same)

include parallel

theorem Abreast.orAlarm {reader other : Parse (Option Stmt)} {tokens others : List Token}
    (alike : same tokens others)
    (abreast : Abreast same alarm .surely tokens others (reader tokens) (other others)) :
    Abreast same alarm .surely tokens others (orStall reader tokens)
      (orAlarm alarm other others) := by
  show Abreast same alarm .surely tokens others (Parse.orAlarm silent reader tokens) _
  generalize found : reader tokens = result, met : other others = another at abreast
  cases abreast with
  | failed cause =>
    rw [orAlarm_apply, orAlarm_apply, found, met]
    exact .failed cause
  | stalled left stuck =>
    rw [orAlarm_apply, orAlarm_apply, found, met]
    exact .stalled left stuck
  | @read value rest left alikeStill further further' shrinks =>
    have shrinks' : wordsAhead left < wordsAhead others := by
      rw [← parallel.wordsAhead_eq alikeStill, ← parallel.wordsAhead_eq alike]
      exact shrinks
    rw [orAlarm_of_shrinks found shrinks further, orAlarm_of_shrinks met shrinks' further']
    exact .read value alikeStill further further' shrinks

/-- At a word that begins no statement the readers stall and raise the alarm; else what begins there
takes the word. -/
theorem abreast_statementOf {nested inner : Parse (Option Stmt)}
    (begun : ∀ token, Option.Rel (abreast same alarm depth .atWord .surely (Option Stmt))
      (statementFrom? nested token) (statementFrom? inner token)) :
    abreast same alarm depth .atWord .surely _ (orStall (statementOf nested))
      (orAlarm alarm (statementOf inner)) := by
  rintro _ others alike shallow ⟨token, rest, rfl, word⟩
  obtain ⟨left, rfl⟩ := parallel.exists_cons alike
  have isWord := Token.isNewline_of_word word
  cases begins : token.beginsStatement with
  | false =>
    show Abreast same alarm .surely _ _ (orAlarm silent (statementOf nested) (token :: rest)) _
    rw [orAlarm_of_stuck (stuck_word isWord begins rest),
      orAlarm_of_stuck (stuck_word isWord begins left)]
    exact .stalled (.refl _) (stuck_word isWord begins left)
  | true =>
    refine Abreast.orAlarm parallel alike ?_
    rw [statementOf_word isWord, statementOf_word isWord]
    have related := begun token
    obtain ⟨first, isFirst⟩ := Option.isSome_iff_exists.mp
      ((isSome_statementFrom? nested token).trans begins)
    obtain ⟨second, isSecond⟩ := Option.isSome_iff_exists.mp
      ((isSome_statementFrom? inner token).trans begins)
    rw [isFirst, isSecond] at related ⊢
    cases related with
    | some related => exact related _ _ alike shallow ⟨token, rest, rfl, word⟩

omit parallel in
theorem abreast_one {taking : Taking} :
    abreast same alarm 1 .atWord taking α reader other := by
  rintro _ others alike shallow ⟨token, rest, rfl, word⟩
  rw [wordsAhead_word word] at shallow
  cases Nat.lt_of_succ_lt_succ shallow

/-- At the end of the text no statement is there. -/
theorem refusal_statementAt (mark sign : Token) (bound larger : Bound) :
    refusal same alarm (Option Stmt) (statementAt (mark :: bound))
      (watchedAt alarm (sign :: larger)) := by
  intro tokens others alike ended
  have stuck := stuck_atEnd (parallel.atEnd alike ended)
  show Abreast same alarm .surely _ _ (orAlarm silent (statementOf (statementAt bound)) tokens) _
  rw [watchedAt, orAlarm_of_stuck (stuck_atEnd ended), orAlarm_of_stuck stuck]
  exact .stalled (.refl _) stuck

variable (alarm depth)

theorem abreast_statement : abreast same alarm depth .atWord .surely _ statement (watched alarm) := by
  refine abreast_of_bounds parallel (forall_bounds (fun _ _ => abreast_zero) ?_)
  intro less bound larger _ _ _ room room' inside
  cases less with
  | zero => exact abreast_one
  | succ less =>
    obtain ⟨_, bound, rfl, _⟩ := exists_cons_of_fits room
    obtain ⟨_, larger, rfl, _⟩ := exists_cons_of_fits room'
    have link := readDescent_abreast alarm (less + 1) parallel
    exact abreast_statementOf parallel (link.statementFrom (abreast_expression alarm _ parallel)
      (abreast_expression alarm _ parallel) inside (refusal_statementAt parallel _ _ bound larger))

/-! ### Programs -/

theorem endAlike_statement : EndAlike same alarm [.endOfText] statement (watched alarm) := by
  intro mark sign bound larger tokens others alike ended
  rcases ended with rfl | ⟨rest, rfl⟩
  · obtain rfl := parallel.eq_nil alike
    exact .stalled (.refl _) (stuck_atEnd (.inl rfl))
  · obtain ⟨left, rfl⟩ := parallel.exists_cons alike
    rw [linesWithin_closed rfl, linesWithin_closed rfl]
    exact .read [] alike (.refl _) (.refl _) trivial

theorem abreast_program :
    abreast same alarm depth .anywhere .perhaps _ program (block [.endOfText] (watched alarm)) :=
  (readRules_abreast alarm depth parallel).bind
    (abreast_lines parallel (endAlike_statement alarm parallel)
      (abreast_statement alarm depth parallel))
    fun _ => (readRules_abreast alarm depth parallel).pure _

end

end Parse

/-- Of tokens that readers cannot tell apart the same program is read, or there is the same error, or
reading stalls and the alarm is raised where a statement is due and none is there. -/
theorem Parallel.parse {same : List Token → List Token → Prop} (parallel : Parallel same)
    (alarm : List Token → ParseFailure) {others : List Token} (alike : same tokens others) :
    (∃ program, parse tokens = .ok program ∧ parseWatched alarm others = .ok program) ∨
    (∃ cause, parse tokens = .error (.error cause) ∧
      parseWatched alarm others = .error (.error cause)) ∨
    parse tokens = .error .stalled ∧ ∃ place, LeftOf others place ∧ Stuck place ∧
      parseWatched alarm others = .error (alarm place) := by
  have abreast := abreast_program alarm (wordsAhead tokens + 1) parallel tokens others alike
    (Nat.lt_succ_self _) trivial
  rw [Parlance.parse, parseWatched]
  generalize program tokens = result, block [.endOfText] _ others = another at abreast
  cases abreast with
  | failed cause => exact .inr (.inl ⟨cause, rfl, rfl⟩)
  | stalled left stuck => exact .inr (.inr ⟨rfl, _, left, stuck, rfl⟩)
  | read program _ _ _ _ => exact .inl ⟨program, rfl, rfl⟩

end Parlance
