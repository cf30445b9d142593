import Mathlib.Data.List.TakeWhile
import Parlance.Proofs.Operators

/-!
The tokens of lines. Cutting a text into tokens can be done line by line: a line that closes its
strings has the same tokens inside a text as by itself, unless it begins with `times`, which looks
back for a count.
-/

namespace Parlance

open Text List

/-! ### Small letters -/

namespace Text

variable {c : Char} {cs word : List Char}

theorem isBlank_of_charIsDigit (digit : c.isDigit = true) : isBlank c = false := by
  simp only [Char.isDigit, Bool.and_eq_true, decide_eq_true_eq, UInt32.le_iff_toNat_le,
    ge_iff_le] at digit
  change 48 ≤ c.toNat ∧ c.toNat ≤ 57 at digit
  exact isBlank_of_small (by omega) (by omega)

theorem trimBoth_map_plainSigma (cs : List Char) :
    trimBoth isBlank (cs.map plainSigma) = (trimBoth isBlank cs).map plainSigma := by
  have test : isBlank ∘ plainSigma = isBlank := funext isBlank_plainSigma
  rw [trimBoth, trimBoth, dropWhile_map, test, ← map_reverse, dropWhile_map, test,
    map_reverse]

/-- What stands before a character that can be no part of a count does not matter behind it. -/
theorem endsInCount_append_bar {bar : Char} (noDigit : bar.isDigit = false)
    (apart : bar ∉ "repeat".toList) (front small : List Char) :
    endsInCount (front ++ bar :: small) = endsInCount small := by
  refine endsInCount_congr ?_ ⟨fun whole => ?_, fun inside => ?_⟩
  · rw [List.getLast?_append_of_ne_nil front (cons_ne_nil _ _)]
    cases small with
    | nil => exact noDigit
    | cons c rest => rfl
  · rcases suffix_or_suffix_of_suffix whole (suffix_append front _) with later | all
    · rcases suffix_cons_iff.mp later with same | inside
      · exact absurd (same ▸ mem_cons_self) apart
      · exact inside
    · exact absurd (all.subset mem_cons_self) apart
  · exact (inside.trans (suffix_cons bar small)).trans (suffix_append front _)

theorem endsInCount_append_blank {blank : Char} (isBlank : isBlank blank = true)
    (front small : List Char) : endsInCount (front ++ blank :: small) = endsInCount small := by
  have none : ("repeat".toList.any Text.isBlank) = false := by decide
  refine endsInCount_append_bar (Bool.eq_false_iff.mpr fun digit => ?_)
    (fun member => any_eq_false.mp none blank member isBlank) front small
  exact Bool.false_ne_true ((isBlank_of_charIsDigit digit).symm.trans isBlank)

/-- White space in front of a text does not matter for a count. -/
theorem endsInCount_append_blanks {blanks : List Char} (all : ∀ c ∈ blanks, isBlank c = true)
    (small : List Char) : endsInCount (blanks ++ small) = endsInCount small := by
  induction blanks with
  | nil => rfl
  | cons c rest ih =>
    obtain ⟨here, later⟩ := forall_mem_cons.mp all
    exact (endsInCount_append_blank here [] (rest ++ small)).trans (ih later)

/-- Visible characters stop the white space that is taken off the end of a text. -/
theorem dropWhile_reverse_append (visible : ∃ c ∈ cs, isBlank c = false) (front : List Char) :
    ((front ++ cs).reverse.dropWhile isBlank).reverse =
      front ++ (cs.reverse.dropWhile isBlank).reverse := by
  obtain ⟨c, member, shown⟩ := visible
  rw [reverse_append, dropWhile_append, if_neg, reverse_append, reverse_reverse]
  intro empty
  have all := dropWhile_eq_nil_iff.mp (isEmpty_iff.mp empty) c (mem_reverse.mpr member)
  exact Bool.false_ne_true (shown.symm.trans all)

/-- White space in front of a text does not matter for a count at its end. -/
theorem endsInCount_trimBoth (visible : ∃ c ∈ cs, isBlank c = false) :
    endsInCount (trimBoth isBlank cs) =
      endsInCount (cs.reverse.dropWhile isBlank).reverse := by
  have visibleRest : ∃ c ∈ cs.dropWhile isBlank, isBlank c = false := by
    obtain ⟨c, member, shown⟩ := visible
    rw [← takeWhile_append_dropWhile (p := isBlank) (l := cs)] at member
    rcases mem_append.mp member with blanks | rest
    · exact absurd (shown.symm.trans (mem_takeWhile_imp blanks)) Bool.false_ne_true
    · exact ⟨c, rest, shown⟩
  have split := dropWhile_reverse_append visibleRest (cs.takeWhile isBlank)
  rw [takeWhile_append_dropWhile] at split
  rw [split, endsInCount_append_blanks fun c member => mem_takeWhile_imp member]
  rfl

/-- A count behind a line end does not depend on what stands before, if something visible stands
behind. -/
theorem endsInCount_trimBoth_append_newline (visible : ∃ c ∈ cs, isBlank c = false)
    (front : List Char) :
    endsInCount (trimBoth isBlank (front ++ '\n' :: cs)) = endsInCount (trimBoth isBlank cs) := by
  have whole : ∃ c ∈ front ++ '\n' :: cs, isBlank c = false := by
    obtain ⟨c, member, shown⟩ := visible
    exact ⟨c, mem_append_right _ (mem_cons_of_mem _ member), shown⟩
  rw [endsInCount_trimBoth whole, endsInCount_trimBoth visible, append_cons,
    dropWhile_reverse_append visible, ← append_cons]
  exact endsInCount_append_blank (by decide) front _

/-- A line end is written as it is in small letters. -/
theorem newline_mem_lowercaseAfter (before cs more : List Char) :
    '\n' ∈ lowercaseAfter before (cs ++ '\n' :: more) := by
  induction cs generalizing before with
  | nil => exact mem_cons_self
  | cons c rest ih =>
    rw [cons_append, lowercaseAfter]
    exact mem_append_right _ (ih _)

/-- Whether a text begins with certain small letters is settled before the line ends. -/
theorem lowercaseChars_take_append (plain : ∀ c ∈ word, c.toNat < 128) (noNewline : '\n' ∉ word)
    (cs more : List Char) :
    lowercaseChars ((cs ++ '\n' :: more).take word.length) = word ↔
      lowercaseChars (cs.take word.length) = word := by
  rcases Nat.lt_or_ge cs.length word.length with short | long
  · constructor
    · intro same
      obtain ⟨left, split⟩ : ∃ left, word.length - cs.length = left + 1 :=
        ⟨word.length - cs.length - 1, by omega⟩
      rw [take_append, split, take_of_length_le (Nat.le_of_lt short),
        take_succ_cons] at same
      exact absurd (same ▸ newline_mem_lowercaseAfter [] cs _) noNewline
    · intro same
      have size := length_of_lowercaseAfter plain same
      rw [length_take] at size
      omega
  · rw [take_append_of_le_length long]

theorem le_length_of_lowercaseChars_take (plain : ∀ c ∈ word, c.toNat < 128)
    (same : lowercaseChars (cs.take word.length) = word) : word.length ≤ cs.length := by
  have size := length_of_lowercaseAfter plain same
  rw [length_take] at size
  omega

end Text

namespace Lexer

/-! ### Strings that are closed -/

/-- Whether a string is closed, given what follows its opening quote. -/
def closesString (quote : Char) : List Char → Bool
  | [] => false
  | ['\\'] => false
  | '\\' :: _ :: rest => closesString quote rest
  | c :: rest => c = quote || closesString quote rest

/-- Whether all strings of a text are closed. Where the pieces of a text begin does not depend on
what stands in front of it. -/
def closesStrings : List Char → Bool
  | [] => true
  | c :: rest =>
    (c ≠ '"' && c ≠ '\'' || closesString c rest) &&
      match piece [] c rest with
      | .error _ => true
      | .ok found => closesStrings (rest.drop found.extent)
termination_by cs => cs.length
decreasing_by simp only [length_drop, length_cons]; omega

theorem map_eq_ok {α β : Type} {result : Except LexFailure α} {f : α → β} {value : β}
    (ended : result.map f = .ok value) : ∃ inner, result = .ok inner ∧ f inner = value := by
  cases result with
  | error failure => cases ended
  | ok inner => exact ⟨inner, rfl, Except.ok.inj ended⟩

variable {quote c : Char} {cs after before around rest others seen : List Char} {sign : Symbol}
  {word : String} {found : Piece}

theorem stringBody_cons (plain : c ≠ '\\') (rest : List Char) :
    stringBody quote (c :: rest) = if c = quote then .ok ([], 1)
      else (stringBody quote rest).map fun body => (c :: body.1, body.2 + 1) := by
  rw [stringBody]
  · rintro rfl
    exact absurd rfl plain
  · rintro _ _ rfl
    exact absurd rfl plain

theorem stringBody_append (closes : closesString quote cs = true) (more : List Char) :
    stringBody quote (cs ++ more) = stringBody quote cs := by
  fun_induction closesString quote cs with
  | case1 => cases closes
  | case2 => cases closes
  | case3 c rest ih =>
    rw [cons_append, cons_append, stringBody, stringBody, ih closes]
  | case4 c rest single escaped ih =>
    have plain : c ≠ '\\' := by
      rintro rfl
      cases rest with
      | nil => exact single rfl rfl
      | cons next others => exact escaped next others rfl rfl
    rw [cons_append, stringBody_cons plain, stringBody_cons plain]
    split
    · rfl
    · rename_i other
      rw [ih (by simpa [other] using closes)]

theorem length_of_stringBody {body : List Char × Nat} (read : stringBody quote cs = .ok body) :
    body.2 ≤ cs.length := by
  fun_induction stringBody quote cs generalizing body with
  | case1 =>
    cases read
    exact Nat.le_refl _
  | case2 => cases read
  | case3 c rest ih =>
    obtain ⟨found, inner, rfl⟩ := map_eq_ok read
    have := ih inner
    simp only [length_cons]
    omega
  | case4 rest _ _ =>
    cases read
    exact Nat.succ_pos _
  | case5 c rest _ _ _ ih =>
    obtain ⟨found, inner, rfl⟩ := map_eq_ok read
    have := ih inner
    simp only [length_cons]
    omega

/-! ### The pieces of a line -/

theorem takeWhile_append_newline {test : Char → Bool} (stops : test '\n' = false)
    (cs more : List Char) : (cs ++ '\n' :: more).takeWhile test = cs.takeWhile test := by
  induction cs with
  | nil => exact takeWhile_cons_of_neg (by rw [stops]; exact Bool.false_ne_true)
  | cons c rest ih =>
    rw [cons_append, takeWhile_cons, takeWhile_cons, ih]

theorem dropWhile_append_newline {test : Char → Bool} (stops : test '\n' = false)
    (cs more : List Char) :
    (cs ++ '\n' :: more).dropWhile test = cs.dropWhile test ++ '\n' :: more := by
  induction cs with
  | nil => exact dropWhile_cons_of_neg (by rw [stops]; exact Bool.false_ne_true)
  | cons c rest ih =>
    rw [cons_append, dropWhile_cons, dropWhile_cons, ih]
    split <;> rfl

theorem numeral_append_newline (cs more : List Char) :
    numeral (cs ++ '\n' :: more) = numeral cs := by
  have stops : isDigit '\n' = false := by decide
  simp only [numeral]
  rw [takeWhile_append_newline stops, dropWhile_append_newline stops]
  cases cs.dropWhile isDigit with
  | nil => rfl
  | cons c rest =>
    rw [cons_append]
    by_cases point : c = '.'
    · subst point
      exact congrArg (fun digits => (cs.takeWhile isDigit ++ '.' :: digits, true))
        (takeWhile_append_newline stops rest more)
    · split
      · rename_i same
        cases same
        exact absurd rfl point
      · split
        · rename_i same
          cases same
          exact absurd rfl point
        · rfl

/-- Whether words are plain: they have characters of the first 128 code points, and no line end. -/
def isPlainPhrase (words : String) : Bool :=
  words.toList.all fun c => decide (c.toNat < 128) && c ≠ '\n'

theorem goesOn_append_newline {words : String} (plain : isPlainPhrase words = true)
    (cs more : List Char) :
    decide (lowercaseChars ((cs ++ '\n' :: more).take words.length) = words.toList) =
      decide (lowercaseChars (cs.take words.length) = words.toList) := by
  have each (c : Char) (member : c ∈ words.toList) : c.toNat < 128 ∧ c ≠ '\n' := by
    simpa using all_eq_true.mp plain c member
  have same := lowercaseChars_take_append (fun c member => (each c member).1)
    (fun member => (each '\n' member).2 rfl) cs more
  rw [String.length_toList] at same
  exact decide_eq_decide.mpr same

theorem length_of_goesOn {words : String} (plain : isPlainPhrase words = true) {cs : List Char}
    (goesOn : lowercaseChars (cs.take words.length) = words.toList) :
    words.length ≤ cs.length := by
  rw [← String.length_toList] at goesOn ⊢
  refine le_length_of_lowercaseChars_take (fun c member => ?_) goesOn
  have both : c.toNat < 128 ∧ c ≠ '\n' := by simpa using all_eq_true.mp plain c member
  exact both.1

/-- The spaces and the word that follow `is` are taken from the line. -/
theorem length_next_le (cs : List Char) :
    (cs.takeWhile (· = ' ')).length +
      ((cs.dropWhile (· = ' ')).takeWhile isLetterOrNumeral).length ≤ cs.length := by
  have whole := congrArg List.length (takeWhile_append_dropWhile (p := (· = ' ')) (l := cs))
  have part := (takeWhile_sublist isLetterOrNumeral (l := cs.dropWhile (· = ' '))).length_le
  rw [length_append] at whole
  omega

theorem comparison?_append_newline (cs more : List Char) :
    comparison? (cs ++ '\n' :: more) = comparison? cs := by
  have spaces := @takeWhile_append_newline (fun c => decide (c = ' ')) (by decide) cs more
  have others := @dropWhile_append_newline (fun c => decide (c = ' ')) (by decide) cs more
  have letter : isLetterOrNumeral '\n' = false := by decide
  have than : isPlainPhrase " than" = true := by decide
  have least : isPlainPhrase " least" = true := by decide
  simp only [comparison?, spaces, others, takeWhile_append_newline letter,
    drop_append_of_le_length (length_next_le cs), goesOn_append_newline than,
    goesOn_append_newline least, lowercaseChars_take_ne_most]

theorem length_of_comparison? {taken : Nat} (means : comparison? cs = some (sign, taken)) :
    taken ≤ cs.length := by
  have next := length_next_le cs
  obtain ⟨reached, words, listed, rfl, _, rfl, goesOn⟩ := comparison?_cases means
  have plain : ([" than", " least"].all isPlainPhrase) = true := by decide
  have size := length_of_goesOn (all_eq_true.mp plain words listed) goesOn
  rw [length_drop] at size
  omega

/-! ### Words of a line -/

/-- Whether two pieces stand for the same token and have the same characters. -/
def Piece.Matches (one other : Piece) : Prop :=
  one.token? = other.token? ∧ one.extent = other.extent

theorem Piece.Matches.refl (found : Piece) : found.Matches found := ⟨rfl, rfl⟩

/-- A word that means nothing but itself. -/
def plainWord (word : String) (extent : Nat) : Piece :=
  match Symbol.ofWord? word with
  | some symbol => .ofSymbol symbol extent
  | none => { token? := some (.identifier word), extent }

/-- A word is plain, unless it is `times` or can go on after a space. -/
theorem wordPiece_plain (before : List Char) (times : word ≠ "times")
    (phrase : word ∈ ["is", "divided"] → after.head? ≠ some ' ') (extent : Nat) :
    (wordPiece before word extent after).Matches (plainWord word extent) := by
  cases known : Symbol.ofWord? word
  all_goals
    simp only [wordPiece, plainWord, known]
    split
    · exact absurd rfl times
    · exact absurd rfl (phrase (by decide))
    · exact absurd rfl (phrase (by decide))
    · exact ⟨rfl, rfl⟩
    · exact ⟨rfl, rfl⟩

/-- What stands before a word matters to `times` only. -/
theorem wordPiece_congr (count : word = "times" → followsCount around = followsCount before)
    (extent : Nat) (after : List Char) :
    wordPiece around word extent after = wordPiece before word extent after := by
  by_cases times : word = "times"
  · subst times
    rw [wordPiece_times_eq, wordPiece_times_eq, count rfl]
  · simp only [wordPiece]
    split
    · exact absurd rfl times
    · rfl
    · rfl
    · rfl
    · rfl

/-- How far a word reaches does not depend on what stands before it. -/
theorem extent_wordPiece_congr (before around : List Char) (word : String) (extent : Nat)
    (after : List Char) :
    (wordPiece around word extent after).extent = (wordPiece before word extent after).extent := by
  by_cases times : word = "times"
  · subst times
    rw [wordPiece_times_eq, wordPiece_times_eq]
    rfl
  · rw [wordPiece_congr fun same => absurd same times]

theorem wordPiece_divided_eq (before rest : List Char) (extent : Nat) :
    wordPiece before "divided" extent (' ' :: rest) =
      if lowercaseChars (rest.take 3) = "by ".toList then .ofSymbol .divided (extent + 4)
      else plainWord "divided" extent := by
  simp only [wordPiece]
  rfl

theorem endsWord_append_newline (after more : List Char) :
    endsWord (after ++ '\n' :: more) = endsWord after := by
  cases after <;> rfl

/-- A word is `times`, does not go on, or can go on after the space that follows it. -/
theorem word_cases (word : String) (after : List Char) : word = "times" ∨
    (word ≠ "times" ∧ (word ∈ ["is", "divided"] → after.head? ≠ some ' ')) ∨
    ∃ rest, after = ' ' :: rest ∧ (word = "is" ∨ word = "divided") := by
  by_cases times : word = "times"
  · exact .inl times
  by_cases phrase : word ∈ ["is", "divided"] → after.head? ≠ some ' '
  · exact .inr (.inl ⟨times, phrase⟩)
  · obtain ⟨member, starts⟩ := Classical.not_imp.mp phrase
    obtain ⟨rest, space⟩ := List.head?_eq_some_iff.mp (Classical.not_not.mp starts)
    exact .inr (.inr ⟨rest, space, by simpa using member⟩)

section

variable (before : List Char) (word : String) (extent : Nat) (after : List Char)

/-- A word looks no further than to the end of its line. -/
theorem wordPiece_append_newline (more : List Char) :
    (wordPiece before word extent (after ++ '\n' :: more)).Matches
      (wordPiece before word extent after) := by
  rcases word_cases word after with rfl | ⟨times, phrase⟩ | ⟨rest, rfl, rfl | rfl⟩
  · rw [wordPiece_times_eq, wordPiece_times_eq, endsWord_append_newline]
    exact .refl _
  · have ended : word ∈ ["is", "divided"] → (after ++ '\n' :: more).head? ≠ some ' ' := by
      intro member
      cases after with
      | nil => exact fun same => absurd (Option.some.inj same) (by decide)
      | cons c rest => exact phrase member
    have whole := wordPiece_plain before times ended extent
    have line := wordPiece_plain before times phrase extent
    exact ⟨whole.1.trans line.1.symm, whole.2.trans line.2.symm⟩
  · cases means : comparison? rest with
    | none =>
      rw [cons_append, wordPiece_is means,
        wordPiece_is ((comparison?_append_newline rest more).trans means)]
      exact .refl _
    | some found =>
      rw [cons_append, wordPiece_comparison means,
        wordPiece_comparison ((comparison?_append_newline rest more).trans means)]
      exact .refl _
  · have same : lowercaseChars ((rest ++ '\n' :: more).take 3) = "by ".toList ↔
        lowercaseChars (rest.take 3) = "by ".toList :=
      decide_eq_decide.mp (@goesOn_append_newline "by " (by decide) rest more)
    rw [cons_append, wordPiece_divided_eq, wordPiece_divided_eq]
    simp only [same]
    exact .refl _

/-- What a word can be: `times`, nothing but itself, a comparison, or `divided by`. -/
theorem wordPiece_cases : (word = "times" ∧ ∃ sign ∈ [Symbol.timesWord, .timesOperator],
      wordPiece before word extent after = .ofSymbol sign extent) ∨
    (word ≠ "times" ∧ (wordPiece before word extent after).Matches (plainWord word extent)) ∨
    (∃ rest sign taken, word = "is" ∧ after = ' ' :: rest ∧
      comparison? rest = some (sign, taken) ∧
      wordPiece before word extent after = .ofSymbol sign (extent + (taken + 1))) ∨
    ∃ rest, word = "divided" ∧ after = ' ' :: rest ∧
      lowercaseChars (rest.take 3) = "by ".toList ∧
      wordPiece before word extent after = .ofSymbol .divided (extent + 4) := by
  rcases word_cases word after with rfl | ⟨times, phrase⟩ | ⟨rest, rfl, rfl | rfl⟩
  · rw [wordPiece_times_eq]
    refine .inl ⟨rfl, _, ?_, rfl⟩
    split <;> decide
  · exact .inr (.inl ⟨times, wordPiece_plain before times phrase extent⟩)
  · cases means : comparison? rest with
    | none =>
      rw [wordPiece_is means]
      exact .inr (.inl ⟨by decide, ⟨rfl, rfl⟩⟩)
    | some found =>
      exact .inr (.inr (.inl ⟨rest, found.1, found.2, rfl, rfl, means,
        wordPiece_comparison means extent⟩))
  · rw [wordPiece_divided_eq]
    split
    · rename_i follows
      exact .inr (.inr (.inr ⟨rest, rfl, rfl, follows, rfl⟩))
    · exact .inr (.inl ⟨by decide, .refl _⟩)

/-- All characters of a word with what belongs to it stand in the text. -/
theorem extent_wordPiece_le : (wordPiece before word extent after).extent ≤ extent + after.length := by
  rcases wordPiece_cases before word extent after with ⟨_, sign, _, same⟩ | ⟨_, plain⟩ |
    ⟨rest, sign, taken, _, rfl, means, same⟩ | ⟨rest, _, rfl, follows, same⟩
  · rw [same]
    exact Nat.le_add_right _ _
  · rw [plain.2, plainWord]
    split <;> exact Nat.le_add_right _ _
  · rw [same, length_cons]
    exact Nat.add_le_add_left (Nat.succ_le_succ (length_of_comparison? means)) extent
  · have size : 3 ≤ rest.length := @length_of_goesOn "by " (by decide) rest follows
    rw [same, length_cons]
    exact Nat.add_le_add_left (Nat.succ_le_succ size) extent

theorem token_wordPiece_ne_none : (wordPiece before word extent after).token? ≠ none := by
  rcases wordPiece_cases before word extent after with ⟨_, sign, _, same⟩ | ⟨_, plain⟩ |
    ⟨_, sign, _, _, _, _, same⟩ | ⟨_, _, _, _, same⟩
  case inr.inl =>
    rw [plain.1, plainWord]
    cases Symbol.ofWord? word <;> rintro ⟨⟩
  all_goals
    rw [same]
    rintro ⟨⟩

end

def wordSymbols : List Symbol :=
  [.timesWord, .timesOperator, .isGreaterThan, .isLessThan, .isAtLeast, .divided] ++
    Symbol.keywords.map Prod.snd

theorem mem_wordSymbols_of_token_wordPiece {extent : Nat}
    (means : (wordPiece before word extent after).token? = some (.symbol sign)) :
    sign ∈ wordSymbols := by
  rcases wordPiece_cases before word extent after with ⟨_, other, listed, same⟩ | ⟨_, plain⟩ |
    ⟨rest, other, taken, _, _, compares, same⟩ | ⟨rest, _, _, _, same⟩
  · rw [same] at means
    cases means
    simp only [mem_cons, not_mem_nil, or_false] at listed
    rcases listed with rfl | rfl <;> decide
  · rw [plain.1, plainWord] at means
    split at means
    · rename_i symbol known
      obtain rfl : symbol = sign := by simpa [Piece.ofSymbol] using means
      obtain ⟨earlier, later, whole, _⟩ := lookup_eq_some_iff.mp known
      have listed : (word, symbol) ∈ Symbol.keywords := by
        rw [whole]
        exact mem_append_right _ mem_cons_self
      exact mem_append_right _ (mem_map.mpr ⟨_, listed, rfl⟩)
    · cases means
  · obtain ⟨_, _, _, _, listed, _⟩ := comparison?_cases compares
    rw [same] at means
    cases means
    simp only [mem_cons, not_mem_nil, or_false] at listed
    rcases listed with rfl | rfl | rfl <;> decide
  · rw [same] at means
    cases means
    decide

/-! ### Pieces in other surroundings -/

/-- Where a word, a number, a string or a comment that begins with a character is the same, so is the
piece. -/
theorem piece_congr (comment : c = '#' →
      (others.takeWhile (· ≠ '\n')).length = (rest.takeWhile (· ≠ '\n')).length)
    (number : isDigit c = true → numberPiece c others = numberPiece c rest)
    (string : (c = '"' || c = '\'') = true → stringPiece c others = stringPiece c rest)
    (word : found = wordPiece before (smallWord (c :: rest.takeWhile isWordPart))
        (rest.takeWhile isWordPart).length (rest.dropWhile isWordPart) →
      (wordPiece around (smallWord (c :: others.takeWhile isWordPart))
        (others.takeWhile isWordPart).length (others.dropWhile isWordPart)).Matches found)
    (next : piece before c rest = .ok found) :
    ∃ other, piece around c others = .ok other ∧ other.Matches found := by
  have told := tells_opening c
  rw [piece] at next ⊢
  generalize opening c = result at next told ⊢
  cases result with
  | blank | other | mark =>
    cases next
    exact ⟨_, rfl, .refl _⟩
  | comment =>
    cases next
    rw [← comment told]
    exact ⟨_, rfl, .refl _⟩
  | number => exact ⟨found, (number told).trans next, .refl _⟩
  | string => exact ⟨found, (string told).trans next, .refl _⟩
  | word =>
    cases next
    exact ⟨_, rfl, word rfl⟩

/-- How far a piece reaches does not depend on what stands before it. -/
theorem exists_piece_around (next : piece before c rest = .ok found) (around : List Char) :
    ∃ other, piece around c rest = .ok other ∧ other.extent = found.extent := by
  rw [piece] at next ⊢
  generalize opening c = result at next ⊢
  cases result with
  | word =>
    cases next
    exact ⟨_, rfl, extent_wordPiece_congr before around _ _ _⟩
  | _ => exact ⟨found, next, rfl⟩

/-- A piece looks no further than to the end of its line, if strings are closed. -/
theorem piece_append_newline (closes : (c = '"' || c = '\'') = true → closesString c others = true)
    (next : piece before c others = .ok found) (more : List Char) :
    ∃ whole, piece before c (others ++ '\n' :: more) = .ok whole ∧ whole.Matches found := by
  have stops : isWordPart '\n' = false := by decide
  refine piece_congr (fun _ => ?_) (fun _ => ?_) (fun quote => ?_) (fun isWord => ?_) next
  · rw [@takeWhile_append_newline (fun c => decide (c ≠ '\n')) (by decide) others more]
  · rw [numberPiece, numberPiece, ← cons_append, numeral_append_newline]
  · rw [stringPiece, stringPiece, stringBody_append (closes quote)]
  · rw [takeWhile_append_newline stops, dropWhile_append_newline stops, isWord]
    exact wordPiece_append_newline before _ _ _ more

/-- What a piece can be: something that is passed over, a mark, a number, a string or a word. -/
theorem piece_cases (next : piece before c rest = .ok found) :
    (∃ extent ≤ rest.length, found = .skip extent) ∨
    (∃ mark ∈ marks, found = .ofSymbol mark.2 0) ∨
    (∃ value, found =
      { token? := some (.number value), extent := (numeral (c :: rest)).1.length - 1 }) ∨
    (∃ body, stringBody c rest = .ok body ∧ found =
      { token? := some (.string (String.ofList body.1)), extent := body.2 }) ∨
    found = wordPiece before (smallWord (c :: rest.takeWhile isWordPart))
      (rest.takeWhile isWordPart).length (rest.dropWhile isWordPart) := by
  have told := tells_opening c
  rw [piece] at next
  generalize opening c = result at next told ⊢
  cases result with
  | blank | other => exact .inl ⟨0, Nat.zero_le _, (Except.ok.inj next).symm⟩
  | comment => exact .inl ⟨_, (takeWhile_sublist _).length_le, (Except.ok.inj next).symm⟩
  | mark sign => exact .inr (.inl ⟨(c, sign), told, (Except.ok.inj next).symm⟩)
  | number =>
    obtain ⟨value, _, same⟩ := map_eq_ok next
    exact .inr (.inr (.inl ⟨value, same.symm⟩))
  | string =>
    obtain ⟨body, read, same⟩ := map_eq_ok next
    exact .inr (.inr (.inr (.inl ⟨body, read, same.symm⟩)))
  | word => exact .inr (.inr (.inr (.inr (Except.ok.inj next).symm)))

theorem length_numeral_le (cs : List Char) : (numeral cs).1.length ≤ cs.length := by
  have whole := congrArg List.length (takeWhile_append_dropWhile (p := isDigit) (l := cs))
  rw [length_append] at whole
  simp only [numeral]
  split
  · rename_i rest split
    have part := (takeWhile_sublist isDigit (l := rest)).length_le
    rw [split] at whole
    simp only [length_append, length_cons] at whole ⊢
    omega
  · exact (takeWhile_sublist _).length_le

/-- White space within a line is passed over. -/
theorem piece_blank (blank : isBlank c = true) (inLine : c ≠ '\n') (before rest : List Char) :
    piece before c rest = .ok (.skip 0) := by
  have hidden {test : Bool} (shown : test = true → isBlank c = false) : test ≠ true :=
    fun holds => Bool.false_ne_true ((shown holds).symm.trans blank)
  have visible (marks : List Char) (none : marks.any isBlank = false) : c ∉ marks :=
    fun member => any_eq_false.mp none c member blank
  have told := tells_opening c
  rw [piece]
  generalize opening c = begun at told ⊢
  cases begun with
  | blank | other => rfl
  | comment =>
    exact absurd (mem_singleton.mpr told) (visible ['#'] (by decide))
  | number =>
    exact absurd told (hidden isBlank_of_isDigit)
  | string =>
    exact absurd (by simpa [Opening.Tells] using told) (visible ['"', '\''] (by decide))
  | word =>
    refine absurd told (hidden fun begins => Operand.isBlank_of_isWordPart ?_)
    rcases Bool.or_eq_true_iff.mp begins with letter | underscore
    · exact Operand.isWordPart_of_isLetter letter
    · exact Bool.or_eq_true_iff.mpr (.inr underscore)
  | mark sign =>
    rcases mem_cons.mp told with ended | mark
    · exact absurd (congrArg Prod.fst ended) inLine
    · exact absurd (mem_map_of_mem mark) (visible (marks.tail.map Prod.fst) (by decide))

/-- All characters of a piece stand in the text. -/
theorem extent_piece_le (next : piece before c rest = .ok found) : found.extent ≤ rest.length := by
  rcases piece_cases next with ⟨extent, short, rfl⟩ | ⟨sign, _, rfl⟩ | ⟨value, rfl⟩ |
    ⟨body, read, rfl⟩ | rfl
  · exact short
  · exact Nat.zero_le _
  · exact Nat.sub_le_of_le_add (length_numeral_le (c :: rest))
  · exact length_of_stringBody read
  · have whole := congrArg List.length
      (takeWhile_append_dropWhile (p := isWordPart) (l := rest))
    rw [length_append] at whole
    rw [← whole]
    exact extent_wordPiece_le before _ _ _

/-- A symbol is read from a mark or from a word. -/
theorem mem_symbols_of_token_piece (next : piece before c rest = .ok found)
    (means : found.token? = some (.symbol sign)) : sign ∈ marks.map Prod.snd ++ wordSymbols := by
  rcases piece_cases next with ⟨extent, _, rfl⟩ | ⟨mark, listed, rfl⟩ | ⟨value, rfl⟩ |
    ⟨body, _, rfl⟩ | rfl
  · cases means
  · cases means
    exact mem_append_left _ (mem_map_of_mem listed)
  · cases means
  · cases means
  · exact mem_append_right _ (mem_wordSymbols_of_token_wordPiece means)

theorem token_piece_ne (next : piece before c rest = .ok found) :
    found.token? ≠ some (.symbol .endOfText) :=
  fun ends => absurd (mem_symbols_of_token_piece next ends) (by decide)

theorem tokensFrom_cons {found : List Token} (cut : tokensFrom before (c :: rest) = .ok found) :
    ∃ first later, piece before c rest = .ok first ∧ found = first.token?.toList ++ later ∧
      tokensFrom ((c :: rest.take first.extent).reverse ++ before) (rest.drop first.extent) =
        .ok later := by
  cases next : piece before c rest with
  | error failure => cases (tokensFrom_of_failure next).symm.trans cut
  | ok first =>
    obtain ⟨later, rest, same⟩ := map_eq_ok ((tokensFrom_of_piece next).symm.trans cut)
    exact ⟨first, later, rfl, same.symm, rest⟩

/-- The end of the text is the last token, and no other. -/
theorem exists_of_tokensFrom {before cs : List Char} {found : List Token}
    (cut : tokensFrom before cs = .ok found) :
    ∃ body, found = body ++ [.symbol .endOfText] ∧ .symbol .endOfText ∉ body := by
  induction cs using piecewise generalizing before found with
  | nil =>
    rw [tokensFrom_nil] at cut
    exact ⟨[], (Except.ok.inj cut).symm, not_mem_nil⟩
  | cons c rest ih =>
    obtain ⟨first, later, next, rfl, others⟩ := tokensFrom_cons cut
    obtain ⟨body, rfl, none⟩ := ih _ others
    refine ⟨first.token?.toList ++ body, (append_assoc _ _ _).symm, fun member => ?_⟩
    rcases mem_append.mp member with here | there
    · exact token_piece_ne next (Option.mem_toList.mp here)
    · exact none there

/-! ### After a line -/

theorem closesStrings_cons (closes : closesStrings (c :: rest) = true)
    (next : piece before c rest = .ok found) :
    ((c = '"' || c = '\'') = true → closesString c rest = true) ∧
      closesStrings (rest.drop found.extent) = true := by
  obtain ⟨alone, nextAlone, sameExtent⟩ := exists_piece_around next []
  rw [closesStrings, nextAlone] at closes
  obtain ⟨here, later⟩ := Bool.and_eq_true_iff.mp closes
  dsimp only at later
  rw [sameExtent] at later
  refine ⟨fun quote => ?_, later⟩
  rcases Bool.or_eq_true_iff.mp here with plain | closed
  · simp only [Bool.and_eq_true, Bool.or_eq_true, decide_eq_true_eq] at plain quote
    rcases quote with same | same
    · exact absurd same plain.1
    · exact absurd same plain.2
  · exact closed

theorem tokensFrom_append_newline {line : List Char} {body : List Token}
    (closes : closesStrings line = true)
    (cut : tokensFrom before line = .ok (body ++ [.symbol .endOfText])) (more : List Char) :
    tokensFrom before (line ++ '\n' :: more) =
      (tokensFrom ('\n' :: (line.reverse ++ before)) more).map
        (body ++ .symbol .newline :: ·) := by
  induction line using piecewise generalizing before body with
  | nil =>
    rw [tokensFrom_nil] at cut
    obtain rfl : body = [] := append_cancel_right (Except.ok.inj cut).symm
    exact tokensFrom_of_piece (rfl : piece before '\n' more = .ok (.ofSymbol .newline 0))
  | cons c rest ih =>
    obtain ⟨first, later, next, split, others⟩ := tokensFrom_cons cut
    obtain ⟨closed, closesLater⟩ := closesStrings_cons closes next
    have short := extent_piece_le next
    obtain ⟨whole, nextWhole, sameToken, sameExtent⟩ := piece_append_newline closed next more
    obtain ⟨left, rfl, _⟩ := exists_of_tokensFrom others
    obtain rfl : body = first.token?.toList ++ left := by
      rw [← append_assoc] at split
      exact append_cancel_right split
    rw [cons_append, tokensFrom_of_piece nextWhole, sameToken, sameExtent,
      take_append_of_le_length short, drop_append_of_le_length short,
      ih _ closesLater others, map_map]
    have around : (rest.drop first.extent).reverse ++
        ((c :: rest.take first.extent).reverse ++ before) = (c :: rest).reverse ++ before := by
      rw [← append_assoc, ← reverse_append, cons_append, take_append_drop]
    rw [around]
    exact congrArg (Except.map · _) (funext fun tokens => (append_assoc _ _ _).symm)

/-! ### Before a line -/

theorem followsCount_eq_smallForms (before : List Char) :
    followsCount before = endsInCount (trimBoth isBlank
      ((before.take lookBehind).reverse.flatMap smallForms)) := by
  rw [followsCount_eq, ← map_plainSigma_lowercaseAfter [], trimBoth_map_plainSigma,
    endsInCount_map_plainSigma]
  rfl

/-- `times` looks for a count behind a character only, if what stands in small letters before the
character makes no difference. -/
theorem followsCount_append_bar {bar : Char} (form : smallForms bar = [bar])
    (same : ∀ front, endsInCount (trimBoth isBlank
      (front ++ bar :: seen.reverse.flatMap smallForms)) =
        endsInCount (trimBoth isBlank (seen.reverse.flatMap smallForms))) (before : List Char) :
    followsCount (seen ++ bar :: before) = followsCount seen := by
  rw [followsCount_eq_smallForms, followsCount_eq_smallForms]
  rcases Nat.lt_or_ge seen.length lookBehind with short | long
  · obtain ⟨left, split⟩ : ∃ left, lookBehind - seen.length = left + 1 :=
      ⟨lookBehind - seen.length - 1, by omega⟩
    rw [take_append, split, take_of_length_le (Nat.le_of_lt short), take_succ_cons,
      reverse_append, reverse_cons, append_assoc, flatMap_append,
      singleton_append, flatMap_cons, form, singleton_append]
    exact same _
  · rw [take_append_of_le_length long]

/-- Where something visible stands on the line, `times` looks for a count there only. -/
theorem followsCount_append_newline (visible : ∃ c ∈ seen, isBlank c = false)
    (before : List Char) : followsCount (seen ++ '\n' :: before) = followsCount seen := by
  obtain ⟨c, member, shown⟩ := visible
  obtain ⟨small, among⟩ := exists_mem_of_length_pos (length_smallForms_pos c)
  exact followsCount_append_bar (by decide) (endsInCount_trimBoth_append_newline
    ⟨small, mem_flatMap.mpr ⟨c, mem_reverse.mpr member, among⟩, isBlank_smallForms shown among⟩) _

/-- A text that follows a line end has the tokens that it has by itself, from a place on where
something visible stands before it, or unless its first word is `times`. -/
theorem tokensFrom_after_newline {found : List Token} (cut : tokensFrom seen cs = .ok found)
    (settled : (∃ c ∈ seen, isBlank c = false) ∨
      ∀ sign ∈ [Symbol.timesWord, .timesOperator],
        (Parse.afterNewlines found).head? ≠ some (.symbol sign)) (before : List Char) :
    tokensFrom (seen ++ '\n' :: before) cs = .ok found := by
  induction cs using piecewise generalizing seen found with
  | nil => rw [tokensFrom_nil, ← cut, tokensFrom_nil]
  | cons c rest ih =>
    obtain ⟨first, later, next, rfl, others⟩ := tokensFrom_cons cut
    obtain ⟨other, nextOther, sameToken, sameExtent⟩ :
        ∃ other, piece (seen ++ '\n' :: before) c rest = .ok other ∧ other.Matches first := by
      refine piece_congr (fun _ => rfl) (fun _ => rfl) (fun _ => rfl) (fun isWord => ?_) next
      rw [wordPiece_congr fun times => ?_, isWord]
      · exact .refl _
      · rcases settled with visible | notTimes
        · exact followsCount_append_newline visible before
        · rw [isWord, times, wordPiece_times_eq] at notTimes
          split at notTimes <;> exact absurd rfl (notTimes _ (by decide))
    have settledLater : (∃ seenChar ∈ (c :: rest.take first.extent).reverse ++ seen,
        isBlank seenChar = false) ∨
        ∀ sign ∈ [Symbol.timesWord, .timesOperator],
          (Parse.afterNewlines later).head? ≠ some (.symbol sign) := by
      rcases settled with ⟨shown, member, visible⟩ | notTimes
      · exact .inl ⟨shown, mem_append_right _ member, visible⟩
      cases blank : isBlank c with
      | false =>
        exact .inl ⟨c, mem_append_left _ (mem_reverse.mpr mem_cons_self), blank⟩
      | true =>
        by_cases ended : c = '\n'
        · subst ended
          cases next
          exact .inr notTimes
        · cases next.symm.trans (piece_blank blank ended seen rest)
          exact .inr notTimes
    rw [tokensFrom_of_piece nextOther, sameToken, sameExtent, ← append_assoc,
      ih _ others settledLater]
    rfl

end Lexer

end Parlance
