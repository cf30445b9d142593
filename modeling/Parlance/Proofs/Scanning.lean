import Parlance.Proofs.SmallLetters
import Parlance.Token.Lexer

/-!
The tokens of a text, piece by piece. Tokens do not depend on the place where a text begins, only on
what stands before it; so a text is scanned by scanning its first piece and then the rest.
-/

namespace Parlance.Lexer

open Text List

/-! ### Pieces -/

/-- A piece takes at least one character, so what holds of a text if it holds of all its ends holds
of every text. -/
theorem piecewise {motive : List Char → Prop} (cs : List Char) (nil : motive [])
    (cons : ∀ c rest, (∀ extent, motive (rest.drop extent)) → motive (c :: rest)) : motive cs := by
  induction bound : cs.length using Nat.strong_induction_on generalizing cs with
  | h length ih =>
    cases cs with
    | nil => exact nil
    | cons c rest =>
      refine cons c rest fun extent => ih _ ?_ _ rfl
      rw [← bound, length_drop, length_cons]
      omega

theorem map_map {ε α β γ : Type} (result : Except ε α) (first : α → β) (second : β → γ) :
    (result.map first).map second = result.map (second ∘ first) := by
  cases result <;> rfl

theorem map_token_lexeme (piece : Piece) (place reached : Place) :
    (piece.lexeme? place reached).toList.map Lexeme.token = piece.token?.toList := by
  obtain ⟨token?, extent, extraLine⟩ := piece
  cases token? with
  | none => rfl
  | some token =>
    rw [Piece.lexeme?, Option.map_some]
    split <;> rfl

variable {before rest after cs : List Char} {c : Char} {found : Piece} {sign : Symbol}
  {test : Char → Bool}

theorem map_token_scan_cons (next : piece before c rest = .ok found) (place : Place) :
    (scan before place (c :: rest)).map (List.map Lexeme.token) =
      ((scan ((c :: rest.take found.extent).reverse ++ before)
          (found.placeAfter place (c :: rest.take found.extent)) (rest.drop found.extent)).map
        (List.map Lexeme.token)).map (found.token?.toList ++ ·) := by
  rw [scan_of_piece next, map_map, map_map]
  refine congrFun (congrArg Except.map (funext fun lexemes => ?_)) _
  rw [Function.comp_apply, map_append, map_token_lexeme]
  rfl

/-- The tokens of a text do not depend on the place where it begins. -/
theorem map_token_scan (before : List Char) (place other : Place) (cs : List Char) :
    (scan before place cs).map (List.map Lexeme.token) =
      (scan before other cs).map (List.map Lexeme.token) := by
  induction cs using piecewise generalizing before place other with
  | nil => rw [scan_nil, scan_nil]; rfl
  | cons c rest ih =>
    cases next : piece before c rest with
    | error failure => rw [scan_of_failure next, scan_of_failure next]
    | ok found =>
      rw [map_token_scan_cons next, map_token_scan_cons next]
      exact congrArg _ (ih _ _ _ _)

/-- The tokens of a text, with `before` in front of it, nearest first. -/
def tokensFrom (before cs : List Char) : Except LexFailure (List Token) :=
  (scan before .start cs).map (List.map Lexeme.token)

theorem tokensFrom_nil (before : List Char) : tokensFrom before [] = .ok [.symbol .endOfText] := by
  rw [tokensFrom, scan_nil]
  rfl

theorem tokensFrom_of_piece (next : piece before c rest = .ok found) :
    tokensFrom before (c :: rest) =
      (tokensFrom ((c :: rest.take found.extent).reverse ++ before) (rest.drop found.extent)).map
        (found.token?.toList ++ ·) := by
  rw [tokensFrom, map_token_scan_cons next, map_token_scan _ _ .start]
  rfl

theorem tokensFrom_of_failure {failure : LexFailure} (next : piece before c rest = .error failure) :
    tokensFrom before (c :: rest) = .error failure := by
  rw [tokensFrom, scan_of_failure next]
  rfl

theorem tokensFrom_skip (next : piece before c rest = .ok (.skip 0)) :
    tokensFrom before (c :: rest) = tokensFrom (c :: before) rest := by
  rw [tokensFrom_of_piece next]
  exact congrFun Except.map_id _

theorem tokensFrom_sign (next : piece before c rest = .ok (.ofSymbol sign 0)) :
    tokensFrom before (c :: rest) = (tokensFrom (c :: before) rest).map (.symbol sign :: ·) :=
  tokensFrom_of_piece next

theorem tokensFrom_space (before rest : List Char) :
    tokensFrom before (' ' :: rest) = tokensFrom (' ' :: before) rest :=
  tokensFrom_skip rfl

theorem takeWhile_run {run : List Char} (all : ∀ c ∈ run, test c = true)
    (ends : after.head?.any test = false) :
    (run ++ after).takeWhile test = run ∧ (run ++ after).dropWhile test = after := by
  rw [takeWhile_append_of_pos all, dropWhile_append_of_pos all]
  cases after with
  | nil => exact ⟨append_nil _, rfl⟩
  | cons c rest =>
    have stops : ¬ test c = true := Bool.eq_false_iff.mp ends
    rw [takeWhile_cons_of_neg stops, dropWhile_cons_of_neg stops, append_nil]
    exact ⟨rfl, rfl⟩

theorem dropWhile_of_none (none : ∀ c ∈ cs, test c = false) : cs.dropWhile test = cs := by
  cases cs with
  | nil => rfl
  | cons c rest => exact dropWhile_cons_of_neg (by simp [none c mem_cons_self])

theorem trimBoth_of_none (none : ∀ c ∈ cs, test c = false) : trimBoth test cs = cs := by
  rw [trimBoth, dropWhile_of_none none,
    dropWhile_of_none fun c member => none c (mem_reverse.mp member), reverse_reverse]

/-! ### What characters begin -/

/-- No mark that begins another piece is a letter. -/
theorem opening_letter (letter : (isLetter c || c = '_') = true)
    (noDigit : isDigit c = false) : opening c = .word := by
  have marks : ∀ mark ∈ [' ', '\t', '\r', '#', '\n', '"', '\'', '.', '[', ']', ','], c ≠ mark := by
    rintro mark member rfl
    have none : ([' ', '\t', '\r', '#', '\n', '"', '\'', '.', '[', ']', ','].any fun mark =>
        isLetter mark || decide (mark = '_')) = false := by decide
    exact any_eq_false.mp none c member letter
  simp only [forall_mem_cons] at marks
  simp only [opening, marks, noDigit, letter, decide_false, Bool.or_false, Bool.false_eq_true,
    if_false, if_true]

/-- The characters that are symbols by themselves. -/
def marks : List (Char × Symbol) :=
  [('\n', .newline), ('.', .dot), ('[', .leftBracket), (']', .rightBracket), (',', .comma)]

/-- What the kind of a piece tells of its first character. -/
def Opening.Tells (c : Char) : Opening → Prop
  | .blank => c ∈ [' ', '\t', '\r']
  | .comment => c = '#'
  | .number => isDigit c = true
  | .string => (c = '"' || c = '\'') = true
  | .word => (isLetter c || c = '_') = true
  | .mark sign => (c, sign) ∈ marks
  | .other => c ∉ ['\n', '"', '\'', '.', '[', ']', ',', '_'] ∧ isDigit c = false ∧
    isLetter c = false

instance (c : Char) (sign : Symbol) : Decidable ((Opening.mark sign).Tells c) :=
  inferInstanceAs (Decidable ((c, sign) ∈ marks))

theorem tells_opening (c : Char) : (opening c).Tells c := by
  unfold opening
  split_ifs with blank comment ended digit quote dot left right comma letter
  · simpa [Opening.Tells, or_assoc] using blank
  · exact comment
  · exact ended ▸ by decide
  · exact digit
  · exact quote
  · exact dot ▸ by decide
  · exact left ▸ by decide
  · exact right ▸ by decide
  · exact comma ▸ by decide
  · exact letter
  simp only [Bool.or_eq_true, decide_eq_true_eq, not_or] at quote letter
  refine ⟨?_, Bool.eq_false_iff.mpr digit, Bool.eq_false_iff.mpr letter.1⟩
  simp only [mem_cons, not_mem_nil, or_false, not_or]
  exact ⟨ended, quote.1, quote.2, dot, left, right, comma, letter.2⟩

/-! ### Words -/

/-- Whether characters form a word. Digits begin numerals. -/
def isWord : List Char → Bool
  | [] => false
  | c :: others => (isLetter c || c = '_') && !isDigit c && others.all isWordPart

def smallWord (word : List Char) : String := String.ofList (lowercaseChars word)

/-- Whether what follows a word or a numeral, if anything, is white space within the line. -/
def Ends (after : List Char) : Prop := ∀ c ∈ after.head?, c ∈ [' ', '\t', '\r']

theorem Ends.nil : Ends [] := by rintro _ ⟨⟩

theorem Ends.space (rest : List Char) : Ends (' ' :: rest) := by
  rintro _ ⟨⟩
  decide

theorem Ends.any_eq_false (ends : Ends after) (other : [' ', '\t', '\r'].any test = false) :
    after.head?.any test = false := by
  cases after with
  | nil => rfl
  | cons c rest => exact Bool.eq_false_iff.mpr (any_eq_false.mp other c (ends c rfl))

theorem Ends.ne_some (ends : Ends after) (other : c ∉ [' ', '\t', '\r']) : after.head? ≠ some c :=
  fun same => other (ends c same)

/-- Whether what follows a word does not make a phrase of `divided`. -/
def IsNoPhrase (word : String) (after : List Char) : Prop :=
  word = "divided" → after.head? = some ' ' →
    lowercaseChars ((after.drop 1).take 3) ≠ "by ".toList

/-! ### Phrases that are never found -/

/-- `most` and the space before it are more than four characters. -/
theorem lowercaseChars_take_ne_most (cs : List Char) :
    lowercaseChars (cs.take 4) ≠ " most".toList := by
  intro same
  have plain : (" most".toList.all fun c => decide (c.toNat < 128)) = true := by decide
  have size := length_of_lowercaseAfter
    (fun c member => of_decide_eq_true (all_eq_true.mp plain c member)) same
  have five : " most".toList.length = 5 := rfl
  rw [length_take] at size
  omega

theorem beginsNotEqual_space (rest : List Char) : beginsNotEqual (' ' :: rest) = false := by
  have other : lowercaseChars ((' ' :: rest).take 3) ≠ "not".toList := by
    intro same
    exact absurd (head_eq_of_cons_eq same) (by decide)
  rw [beginsNotEqual, decide_eq_false other]
  rfl

/-- What a comparison can be, and the words with which it ends. -/
theorem comparison?_cases {taken : Nat} (means : comparison? after = some (sign, taken)) :
    ∃ reached : Nat, ∃ words ∈ [" than", " least"], reached = (after.takeWhile (· = ' ')).length +
        ((after.dropWhile (· = ' ')).takeWhile isLetterOrNumeral).length ∧
      sign ∈ [Symbol.isGreaterThan, .isLessThan, .isAtLeast] ∧
      taken = reached + words.length ∧
      lowercaseChars ((after.drop reached).take words.length) = words.toList := by
  simp only [comparison?, lowercaseChars_take_ne_most, decide_false, Bool.and_false,
    Bool.false_eq_true, if_false] at means
  iterate 2
    split at means
    · rename_i both
      cases means
      exact ⟨_, " than", by decide, rfl, by decide, rfl,
        of_decide_eq_true (Bool.and_eq_true_iff.mp both).2⟩
  split at means
  · rename_i both
    cases means
    exact ⟨_, " least", by decide, rfl, by decide, rfl,
      of_decide_eq_true (Bool.and_eq_true_iff.mp both).2⟩
  · cases means

section Words

variable {before others after : List Char} {c : Char}

theorem piece_word (word : isWord (c :: others) = true)
    (stops : after.head?.any isWordPart = false) :
    piece before c (others ++ after) =
      .ok (wordPiece before (smallWord (c :: others)) others.length after) := by
  obtain ⟨begins, goesOn⟩ := Bool.and_eq_true_iff.mp word
  obtain ⟨letter, noDigit⟩ := Bool.and_eq_true_iff.mp begins
  have run := takeWhile_run (all_eq_true.mp goesOn) stops
  rw [piece, opening_letter letter (by simpa using noDigit)]
  dsimp only
  rw [run.1, run.2]
  rfl

theorem wordPiece_name {word : String} (free : Symbol.ofWord? word = none)
    (inLine : after.head? ≠ some '\n') (alone : IsNoPhrase word after) (extent : Nat) :
    wordPiece before word extent after = { token? := some (.identifier word), extent } := by
  simp only [wordPiece, free]
  split
  · cases (by decide : Symbol.ofWord? "times" = some .timesWord).symm.trans free
  · cases (by decide : Symbol.ofWord? "is" = some .isWord).symm.trans free
  · exact if_neg (alone rfl rfl)
  · rename_i c rest
    have here : decide (c = '\n') = false := decide_eq_false fun same => inLine (congrArg some same)
    rw [beginsNotEqual_space, here]
    rfl
  · rfl

variable {sign : Symbol} {rest word : List Char} {small : String} {token : Token}

/-- A keyword that makes no phrase is its symbol. -/
theorem wordPiece_keyword {word : String} (keyword : Symbol.ofWord? word = some sign)
    (plain : word ∉ ["times", "is"]) (extent : Nat) :
    wordPiece before word extent after = .ofSymbol sign extent := by
  simp only [wordPiece, keyword]
  split
  · exact absurd (by decide) plain
  · exact absurd (by decide) plain
  · cases (by decide : Symbol.ofWord? "divided" = none).symm.trans keyword
  · cases (by decide : Symbol.ofWord? "does" = none).symm.trans keyword
  · rfl

theorem wordPiece_times (extent : Nat) (rest : List Char) :
    wordPiece before "times" extent (' ' :: rest) =
      .ofSymbol (if followsCount before then .timesWord else .timesOperator) extent := by
  rw [wordPiece_times_eq]
  rfl

theorem wordPiece_comparison {taken : Nat} (means : comparison? rest = some (sign, taken))
    (extent : Nat) :
    wordPiece before "is" extent (' ' :: rest) = .ofSymbol sign (extent + (taken + 1)) := by
  simp only [wordPiece, means]
  rw [Nat.add_assoc, Nat.add_comm 1]

theorem wordPiece_is (none : comparison? rest = none) (extent : Nat) :
    wordPiece before "is" extent (' ' :: rest) = .ofSymbol .isWord extent := by
  simp only [wordPiece, none]
  rfl

theorem wordPiece_divided (phrase : lowercaseChars (rest.take 3) = "by ".toList) (extent : Nat) :
    wordPiece before "divided" extent (' ' :: rest) = .ofSymbol .divided (extent + 4) := by
  simp only [wordPiece, phrase, if_true]

theorem tokensFrom_phrase (more : List Char) (spelt : isWord word = true)
    (lower : smallWord word = small) (stops : (more ++ rest).head?.any isWordPart = false)
    (means : ∀ extent, wordPiece before small extent (more ++ rest) =
      { token? := some token, extent := extent + more.length }) :
    tokensFrom before (word ++ (more ++ rest)) =
      (tokensFrom ((word ++ more).reverse ++ before) rest).map (token :: ·) := by
  cases word with
  | nil => cases spelt
  | cons c others =>
    subst lower
    have next := (piece_word spelt stops).trans (congrArg Except.ok (means _))
    have taken : (others ++ (more ++ rest)).take (others.length + more.length) =
        others ++ more := by
      rw [← append_assoc, take_left' length_append]
    have left : (others ++ (more ++ rest)).drop (others.length + more.length) = rest := by
      rw [← append_assoc, drop_left' length_append]
    rw [cons_append, tokensFrom_of_piece next, taken, left]
    rfl

theorem tokensFrom_word (spelt : isWord word = true) (lower : smallWord word = small)
    (stops : after.head?.any isWordPart = false)
    (means : ∀ extent, wordPiece before small extent after = { token? := some token, extent }) :
    tokensFrom before (word ++ after) =
      (tokensFrom (word.reverse ++ before) after).map (token :: ·) := by
  have phrase := tokensFrom_phrase [] spelt lower stops means
  rwa [append_nil] at phrase

theorem tokensFrom_name {name : String} (spelt : isWord word = true) (lower : smallWord word = name)
    (free : Symbol.ofWord? name = none) (stops : after.head?.any isWordPart = false)
    (inLine : after.head? ≠ some '\n') (alone : IsNoPhrase name after) :
    tokensFrom before (word ++ after) =
      (tokensFrom (word.reverse ++ before) after).map (.identifier name :: ·) :=
  tokensFrom_word spelt lower stops (wordPiece_name free inLine alone)

theorem tokensFrom_keyword (spelt : isWord word = true) (lower : smallWord word = small)
    (keyword : Symbol.ofWord? small = some sign) (plain : small ∉ ["times", "is"])
    (stops : after.head?.any isWordPart = false) :
    tokensFrom before (word ++ after) =
      (tokensFrom (word.reverse ++ before) after).map (.symbol sign :: ·) :=
  tokensFrom_word spelt lower stops (wordPiece_keyword keyword plain)

end Words

/-! ### Counts -/

theorem trimBoth_append_space (visible : ∀ c ∈ cs, isBlank c = false) :
    trimBoth isBlank (cs ++ [' ']) = cs := by
  have back : (cs ++ [' ']).reverse.dropWhile isBlank = cs.reverse := by
    rw [reverse_append]
    exact dropWhile_of_none fun c member => visible c (mem_reverse.mp member)
  cases cs with
  | nil => rfl
  | cons c rest =>
    have front : (c :: rest ++ [' ']).dropWhile isBlank = c :: rest ++ [' '] :=
      dropWhile_cons_of_neg (by simp [visible c mem_cons_self])
    rw [trimBoth, front, back, reverse_reverse]

theorem followsCount_eq (before : List Char) : followsCount before = endsInCount (trimBoth isBlank
      (lowercaseChars (before.take lookBehind).reverse)) := by
  unfold followsCount endsInCount
  generalize trimBoth isBlank (lowercaseChars (before.take lookBehind).reverse) = context
  rw [List.getLast?_eq_head?_reverse]
  cases reversed : context.reverse with
  | nil =>
    rw [reverse_eq_nil_iff.mp reversed]
    decide
  | cons last others =>
    dsimp only
    rw [reversed]
    rfl

/-- `times` after a visible text and a space follows a count if the text ends in one: the reader
looks back further than any count is long. -/
theorem followsCount_space (visible : ∀ c ∈ cs, isBlank c = false) :
    followsCount (' ' :: cs.reverse) = endsInCount (lowercaseChars cs) := by
  have whole : (cs.reverse.drop 19).reverse ++ (cs.reverse.take 19).reverse = cs := by
    rw [← reverse_append, take_append_drop, reverse_reverse]
  generalize front : (cs.reverse.drop 19).reverse = first at whole
  generalize ending : (cs.reverse.take 19).reverse = last at whole
  have long : first.flatMap smallForms = [] ∨ 6 ≤ (last.flatMap smallForms).length := by
    rcases Nat.lt_or_ge 19 cs.length with long | short
    · have size : last.length = min 19 cs.length := by
        rw [← ending, length_reverse, length_take, length_reverse]
      have enough := length_le_flatMap_smallForms last
      rw [size, Nat.min_eq_left (Nat.le_of_lt long)] at enough
      exact .inr (Nat.le_trans (by decide) enough)
    · rw [← front, drop_of_length_le (by rwa [length_reverse])]
      exact .inl rfl
  have visibleLast : ∀ c ∈ last, isBlank c = false :=
    fun c member => visible c (whole ▸ mem_append_right first member)
  obtain ⟨small, same, plain, shown⟩ := exists_lowercaseChars_space visibleLast
  have context : ((' ' :: cs.reverse).take lookBehind).reverse = last ++ [' '] := by
    rw [← ending]
    exact reverse_cons
  calc followsCount (' ' :: cs.reverse)
      = endsInCount small := by
        rw [followsCount_eq, context, same, trimBoth_append_space shown]
    _ = endsInCount (last.flatMap smallForms) := by
        rw [← plain, endsInCount_map_plainSigma]
    _ = endsInCount (cs.flatMap smallForms) := by
        rw [← whole, flatMap_append, endsInCount_append long]
    _ = endsInCount (lowercaseChars cs) := by
        rw [← map_plainSigma_lowercaseAfter [] cs, endsInCount_map_plainSigma]
        rfl

end Parlance.Lexer
