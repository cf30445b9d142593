import Mathlib.Data.List.Forall2
import Parlance.Proofs.Spans

/-!
Capitals. Two plain texts without quotes that differ only in the case of letters are cut into pieces
in the same way, and their lexemes are the same, with one exception: the word after `is` is taken in
small letters only.
-/

namespace Parlance

open Lexer Text List

/-! ### Letters -/

namespace Text

variable (c : Char)

theorem isAlpha_iff : c.isAlpha = true ↔
    (65 ≤ c.toNat ∧ c.toNat ≤ 90) ∨ (97 ≤ c.toNat ∧ c.toNat ≤ 122) := by
  change (decide (65 ≤ c.val ∧ c.val ≤ 90) || (decide (97 ≤ c.val) && decide (c.val ≤ 122))) = true
    ↔ _
  simp only [Bool.or_eq_true, Bool.and_eq_true, decide_eq_true_eq, UInt32.le_iff_toNat_le]
  rfl

variable {c : Char}

/-- Only letters have other characters with the same small form. -/
theorem eq_or_letters_of_toLower {d : Char} (same : c.toLower = d.toLower) :
    c = d ∨ c.isAlpha = true ∧ d.isAlpha = true := by
  have points := congrArg Char.toNat same
  rw [toNat_toLower, toNat_toLower] at points
  rw [isAlpha_iff, isAlpha_iff]
  by_cases equal : c.toNat = d.toNat
  · exact .inl (Char.toNat_inj.mp equal)
  · right
    split at points <;> split at points <;> omega

/-- The small form of a plain text is that of its characters. -/
theorem lowercaseAfter_of_plain {cs : List Char} (plain : ∀ c ∈ cs, c.toNat < 128)
    (before : List Char) : lowercaseAfter before cs = cs.map Char.toLower := by
  induction cs generalizing before with
  | nil => rfl
  | cons c rest ih =>
    obtain ⟨here, later⟩ := forall_mem_cons.mp plain
    rw [lowercaseAfter, ih later, if_neg (by omega), lowercaseChar, if_pos here]
    rfl

theorem isAlpha_of_toLower {letter : Char} (small : c.toLower = letter)
    (isSmall : letter.isAlpha = true ∧ letter.toLower = letter) : c.isAlpha = true := by
  rcases eq_or_letters_of_toLower (small.trans isSmall.2.symm) with rfl | ⟨first, _⟩
  · exact isSmall.1
  · exact first

theorem eq_space_of_toLower (small : c.toLower = ' ') : c = ' ' := by
  rcases eq_or_letters_of_toLower (small.trans (by decide : ' ' = ' '.toLower)) with same |
    ⟨_, letter⟩
  · exact same
  · exact absurd letter (by decide)

end Text

variable {c : Char}

theorem Lexer.tests_of_isAlpha (letter : c.isAlpha = true) :
    opening c = .word ∧ isWordPart c = true ∧ isLetterOrNumeral c = true ∧ isDigit c = false := by
  have bounds := (isAlpha_iff c).mp letter
  have all : ∀ n < 128, (Char.ofNat n).isAlpha = true → opening (Char.ofNat n) = .word ∧
      isWordPart (Char.ofNat n) = true ∧ isLetterOrNumeral (Char.ofNat n) = true ∧
      isDigit (Char.ofNat n) = false := by decide
  have here := all c.toNat (by omega)
  rw [Char.ofNat_toNat] at here
  exact here letter

/-! ### Alike texts -/

/-- Whether two plain characters that are no quotes are the same, up to the case of a letter. -/
structure IsAlike (c d : Char) : Prop where
  plain : c.toNat < 128
  plainToo : d.toNat < 128
  small : c.toLower = d.toLower
  unquoted : c ∉ ['"', '\'']

/-- Whether two texts are alike character by character. -/
abbrev AreAlike : List Char → List Char → Prop := List.Forall₂ IsAlike

namespace IsAlike

variable {c d : Char} {test : Char → Bool} (alike : IsAlike c d)

include alike

/-- A test that gives the same answer on all letters does not tell alike characters apart. -/
theorem test_eq {answer : Bool} (letters : ∀ x : Char, x.isAlpha = true → test x = answer) :
    test c = test d := by
  rcases eq_or_letters_of_toLower alike.small with rfl | ⟨letter, letterToo⟩
  · rfl
  · rw [letters c letter, letters d letterToo]

theorem eq_iff {mark : Char} (noLetter : mark.isAlpha = false) : c = mark ↔ d = mark := by
  have other (x : Char) (letter : x.isAlpha = true) : decide (x = mark) = false :=
    decide_eq_false fun same => Bool.false_ne_true (noLetter.symm.trans (same ▸ letter))
  exact decide_eq_decide.mp (alike.test_eq other)

theorem symm : IsAlike d c where
  plain := alike.plainToo
  plainToo := alike.plain
  small := alike.small.symm
  unquoted := by
    intro quote
    rw [mem_cons, mem_singleton, ← alike.eq_iff (by decide), ← alike.eq_iff (by decide)] at quote
    exact alike.unquoted (mem_cons.mpr (quote.imp id mem_singleton.mpr))

theorem isWordPart_eq : isWordPart c = isWordPart d :=
  alike.test_eq fun _ letter => (tests_of_isAlpha letter).2.1

theorem isDigit_eq : isDigit c = isDigit d :=
  alike.test_eq fun _ letter => (tests_of_isAlpha letter).2.2.2

theorem isSpace_eq : decide (c = ' ') = decide (d = ' ') :=
  decide_eq_decide.mpr (alike.eq_iff (by decide))

/-- What two alike characters begin is the same. -/
theorem opening_eq : opening c = opening d := by
  rcases eq_or_letters_of_toLower alike.small with rfl | ⟨letter, letterToo⟩
  · rfl
  · rw [(tests_of_isAlpha letter).1, (tests_of_isAlpha letterToo).1]

end IsAlike

namespace AreAlike

variable {cs others : List Char} (alike : AreAlike cs others)

include alike

section

variable (test : Char → Bool) (same : ∀ {c d}, IsAlike c d → test c = test d)

include same

theorem takeWhile :
    AreAlike (cs.takeWhile test) (others.takeWhile test) := by
  induction alike with
  | nil => exact .nil
  | cons here later ih =>
    rename_i c d rest more
    rw [takeWhile_cons, takeWhile_cons, same here]
    split
    · exact .cons here ih
    · exact .nil

theorem dropWhile :
    AreAlike (cs.dropWhile test) (others.dropWhile test) := by
  induction alike with
  | nil => exact .nil
  | cons here later ih =>
    rename_i c d rest more
    rw [dropWhile_cons, dropWhile_cons, same here]
    split
    · exact ih
    · exact .cons here later

end

/-- A text without letters is alike to itself only. -/
theorem eq_iff {marks : List Char} (noLetters : marks.all (fun c => !c.isAlpha) = true) :
    cs = marks ↔ others = marks := by
  induction alike generalizing marks with
  | nil => rfl
  | cons here later ih =>
    cases marks with
    | nil => simp
    | cons mark more =>
      obtain ⟨noLetter, noMore⟩ := Bool.and_eq_true_iff.mp noLetters
      rw [cons_eq_cons, cons_eq_cons, here.eq_iff (by simpa using noLetter), ih noMore]

theorem plain : ∀ c ∈ cs, c.toNat < 128 := by
  induction alike with
  | nil => exact forall_mem_nil _
  | cons here later ih =>
    exact forall_mem_cons.mpr ⟨here.plain, ih⟩

theorem symm : AreAlike others cs :=
  alike.flip.imp fun _ _ same => same.symm

theorem plainToo : ∀ c ∈ others, c.toNat < 128 := alike.symm.plain

omit alike in
/-- Texts without quotes with the same small form are alike. -/
theorem of_lowercase (plain : ∀ c ∈ cs, c.toNat < 128) (plainToo : ∀ c ∈ others, c.toNat < 128)
    (unquoted : '"' ∉ cs ∧ '\'' ∉ cs)
    (same : lowercaseChars cs = lowercaseChars others) : AreAlike cs others := by
  rw [lowercaseChars, lowercaseChars, lowercaseAfter_of_plain plain,
    lowercaseAfter_of_plain plainToo] at same
  induction cs generalizing others with
  | nil =>
    obtain rfl := map_eq_nil_iff.mp same.symm
    exact .nil
  | cons c rest ih =>
    obtain ⟨d, more, rfl, small, left⟩ := map_eq_cons_iff.mp same.symm
    obtain ⟨here, later⟩ := forall_mem_cons.mp plain
    obtain ⟨hereToo, laterToo⟩ := forall_mem_cons.mp plainToo
    rw [mem_cons, mem_cons, not_or, not_or] at unquoted
    obtain ⟨⟨double, noDouble⟩, single, noSingle⟩ := unquoted
    have quotes : c ∉ ['"', '\''] := by simp [Ne.symm double, Ne.symm single]
    exact .cons ⟨here, hereToo, small.symm, quotes⟩
      (ih later laterToo ⟨noDouble, noSingle⟩ left.symm)

theorem lowercaseChars_eq : lowercaseChars cs = lowercaseChars others := by
  rw [lowercaseChars, lowercaseChars, lowercaseAfter_of_plain alike.plain,
    lowercaseAfter_of_plain alike.plainToo]
  induction alike with
  | nil => rfl
  | cons here later ih =>
    rw [map_cons, map_cons, here.small, ih]

end AreAlike

namespace Lexer

/-! ### Comparisons -/

/-- The comparisons that are found: the word after `is`, what follows the word, and the symbol. -/
def comparisons : List (String × String × Symbol) :=
  [("greater", " than", .isGreaterThan), ("less", " than", .isLessThan),
    ("at", " least", .isAtLeast)]

/-- The word that follows spaces. -/
def nextWord (after : List Char) : List Char :=
  (after.dropWhile (· = ' ')).takeWhile isLetterOrNumeral

/-- How many characters there are up to the end of the word that follows spaces. -/
def nextWordEnd (after : List Char) : Nat :=
  (after.takeWhile (· = ' ')).length + (nextWord after).length

/-- Whether a text goes on with words, in any letters. -/
def goesOn (words : String) (cs : List Char) : Bool :=
  lowercaseChars (cs.take words.length) = words.toList

/-- Whether the next word is that of a comparison, in small letters, and the comparison goes on. -/
def compares (after : List Char) (entry : String × String × Symbol) : Bool :=
  nextWord after = entry.1.toList && goesOn entry.2.1 (after.drop (nextWordEnd after))

theorem comparison?_eq (after : List Char) :
    comparison? after = (comparisons.find? (compares after)).map fun entry =>
      (entry.2.2, nextWordEnd after + entry.2.1.length) := by
  have shape : comparison? after =
      if compares after ("greater", " than", .isGreaterThan) then
        some (.isGreaterThan, nextWordEnd after + 5)
      else if compares after ("less", " than", .isLessThan) then
        some (.isLessThan, nextWordEnd after + 5)
      else if compares after ("at", " least", .isAtLeast) then
        some (.isAtLeast, nextWordEnd after + 6)
      else if nextWord after = "at".toList && decide
          (lowercaseChars ((after.drop (nextWordEnd after)).take 4) = " most".toList) then
        some (.isAtMost, nextWordEnd after + 4)
      else none := rfl
  rw [shape, decide_eq_false (lowercaseChars_take_ne_most _), Bool.and_false]
  simp only [comparisons, List.find?_cons]
  cases compares after ("greater", " than", .isGreaterThan) <;>
    cases compares after ("less", " than", .isLessThan) <;>
    cases compares after ("at", " least", .isAtLeast) <;> rfl

variable {entry : String × String × Symbol} {after : List Char}

theorem small_of_mem_comparisons (listed : entry ∈ comparisons) :
    lowercaseChars entry.1.toList = entry.1.toList := by
  have each : (comparisons.all fun entry =>
      decide (lowercaseChars entry.1.toList = entry.1.toList)) = true := by decide
  exact of_decide_eq_true (all_eq_true.mp each entry listed)

theorem eq_of_mem_comparisons {other : String × String × Symbol} (listed : entry ∈ comparisons)
    (listedToo : other ∈ comparisons) (same : entry.1.toList = other.1.toList) : entry = other := by
  simp only [comparisons, mem_cons, not_mem_nil, or_false] at listed listedToo
  rcases listed with rfl | rfl | rfl <;> rcases listedToo with rfl | rfl | rfl <;>
    first | rfl | exact absurd same (by decide)

section

variable {after others : List Char} (alike : AreAlike after others)

include alike

theorem areAlike_nextWord : AreAlike (nextWord after) (nextWord others) :=
  (alike.dropWhile _ IsAlike.isSpace_eq).takeWhile _ fun same =>
    same.test_eq fun _ letter => (tests_of_isAlpha letter).2.2.1

theorem nextWordEnd_eq : nextWordEnd after = nextWordEnd others := by
  have spaces := (alike.takeWhile _ IsAlike.isSpace_eq).length_eq
  rw [nextWordEnd, nextWordEnd, spaces, (areAlike_nextWord alike).length_eq]

/-- Of two alike texts, one can have a comparison where the other has none, but not where the other
has another one. -/
theorem comparison?_of_alike {found : Symbol × Nat} (means : comparison? after = some found) :
    comparison? others = some found ∨ comparison? others = none := by
  rw [comparison?_eq] at means ⊢
  obtain ⟨entry, first, same⟩ := Option.map_eq_some_iff.mp means
  cases second : comparisons.find? (compares others) with
  | none => exact .inr rfl
  | some other =>
    have listed := mem_of_find?_eq_some first
    have listedToo := mem_of_find?_eq_some second
    have small (text : List Char) (entry : String × String × Symbol)
        (member : entry ∈ comparisons) (holds : compares text entry = true) :
        lowercaseChars (nextWord text) = entry.1.toList := by
      rw [of_decide_eq_true (Bool.and_eq_true_iff.mp holds).1]
      exact small_of_mem_comparisons member
    have equal : entry = other := by
      refine eq_of_mem_comparisons listed listedToo ?_
      rw [← small _ _ listed (List.find?_some first),
        ← small _ _ listedToo (List.find?_some second)]
      exact (areAlike_nextWord alike).lowercaseChars_eq
    rw [← same, Option.map_some, ← equal, nextWordEnd_eq alike]
    exact .inl rfl

end

/-- Whether a text begins with a comparison: `is` in any letters, spaces, the next word in small
letters, and the rest of the comparison in any letters. -/
def BeginsComparison (cs : List Char) : Prop :=
  ∃ first spaces more, ∃ entry ∈ comparisons,
    cs = first ++ (spaces ++ (entry.1.toList ++ more)) ∧ lowercaseChars first = "is".toList ∧
      spaces ≠ [] ∧ (∀ c ∈ spaces, c = ' ') ∧ goesOn entry.2.1 more = true

/-- What follows the first word of a comparison begins with a space. -/
theorem head?_of_goesOn (listed : entry ∈ comparisons) {more : List Char}
    (plain : ∀ c ∈ more, c.toNat < 128) (follows : goesOn entry.2.1 more = true) :
    more.head? = some ' ' := by
  have begins : entry.2.1.toList.head? = some ' ' := by
    simp only [comparisons, mem_cons, not_mem_nil, or_false] at listed
    rcases listed with rfl | rfl | rfl <;> rfl
  have small := of_decide_eq_true follows
  rw [lowercaseChars, lowercaseAfter_of_plain
    fun c member => plain c (mem_of_mem_take member)] at small
  rw [← small, List.head?_map] at begins
  obtain ⟨c, first, isSpace⟩ := Option.map_eq_some_iff.mp begins
  cases more with
  | nil => rw [take_nil] at first; cases first
  | cons x others =>
    have same : x = c := by
      rw [List.head?_take] at first
      split at first
      · cases first
      · exact Option.some.inj first
    rw [List.head?_cons, same, eq_space_of_toLower isSpace]

theorem drop_length_takeWhile (test : Char → Bool) (cs : List Char) :
    cs.drop (cs.takeWhile test).length = cs.dropWhile test := by
  have dropped : drop (cs.takeWhile test).length _ = cs.dropWhile test := drop_left
  rwa [takeWhile_append_dropWhile] at dropped

theorem drop_nextWordEnd (after : List Char) : after.drop (nextWordEnd after) =
    (after.dropWhile (· = ' ')).dropWhile isLetterOrNumeral := by
  rw [nextWordEnd, nextWord, ← drop_drop, drop_length_takeWhile, drop_length_takeWhile]

/-- A comparison follows `is` if its words do, the first one in small letters. -/
theorem comparison?_ne_none_iff (plain : ∀ c ∈ after, c.toNat < 128) :
    comparison? after ≠ none ↔ ∃ spaces more, ∃ entry ∈ comparisons,
      after = spaces ++ (entry.1.toList ++ more) ∧ (∀ c ∈ spaces, c = ' ') ∧
        goesOn entry.2.1 more = true := by
  rw [comparison?_eq]
  constructor
  · intro found
    obtain ⟨entry, means⟩ := Option.ne_none_iff_exists'.mp (mt Option.map_eq_none_iff.mpr found)
    have holds := List.find?_some means
    obtain ⟨word, follows⟩ := Bool.and_eq_true_iff.mp holds
    have spelt := of_decide_eq_true word
    refine ⟨after.takeWhile (· = ' '), after.drop (nextWordEnd after), entry,
      mem_of_find?_eq_some means, ?_, fun c member => ?_, follows⟩
    · rw [← spelt, drop_nextWordEnd, nextWord, takeWhile_append_dropWhile,
        takeWhile_append_dropWhile]
    · simpa using mem_takeWhile_imp member
  · rintro ⟨spaces, more, entry, listed, rfl, blank, follows⟩ none
    have head := head?_of_goesOn listed
      (fun c member => plain c (mem_append_right _ (mem_append_right _ member))) follows
    have letters : (∀ c ∈ entry.1.toList, isLetterOrNumeral c = true) ∧
        (entry.1.toList ++ more).head?.any (· = ' ') = false := by
      simp only [comparisons, mem_cons, not_mem_nil, or_false] at listed
      rcases listed with rfl | rfl | rfl <;> exact ⟨all_eq_true.mp (by decide), rfl⟩
    have parts := takeWhile_run (fun c member => decide_eq_true (blank c member)) letters.2
    have word := takeWhile_run letters.1 (by rw [head]; rfl)
    have spelt : nextWord (spaces ++ (entry.1.toList ++ more)) = entry.1.toList := by
      rw [nextWord, parts.2, word.1]
    have holds : compares (spaces ++ (entry.1.toList ++ more)) entry = true := by
      rw [compares, spelt, drop_nextWordEnd, parts.2, word.2, follows, decide_eq_true rfl]
      rfl
    exact List.find?_eq_none.mp (Option.map_eq_none_iff.mp none) entry listed holds

/-- Whether a text that begins with a character begins with the word `is` and a space, and what
follows the space. -/
structure BeginsIs (c : Char) (rest following : List Char) : Prop where
  opens : opening c = .word
  word : smallWord (c :: rest.takeWhile isWordPart) = "is"
  follows : rest.dropWhile isWordPart = ' ' :: following

/-- The two letters of `is` are a word, if a space follows them. -/
theorem beginsIs_of_lowercaseChars {first : List Char} (following : List Char)
    (plain : ∀ c ∈ first, c.toNat < 128) (small : lowercaseChars first = "is".toList) :
    ∃ c second, first = [c, second] ∧ BeginsIs c (second :: ' ' :: following) following := by
  have letters := small
  rw [lowercaseChars, lowercaseAfter_of_plain plain] at letters
  obtain ⟨c, tail, rfl, begins, goes⟩ := map_eq_cons_iff.mp letters
  obtain ⟨second, last, rfl, ends, done⟩ := map_eq_cons_iff.mp goes
  obtain rfl := map_eq_nil_iff.mp done
  have run : (second :: ' ' :: following).takeWhile isWordPart = [second] ∧
      (second :: ' ' :: following).dropWhile isWordPart = ' ' :: following :=
    takeWhile_run (forall_mem_singleton.mpr
      (tests_of_isAlpha (isAlpha_of_toLower ends (by decide))).2.1) rfl
  refine ⟨c, second, rfl, (tests_of_isAlpha (isAlpha_of_toLower begins (by decide))).1, ?_, run.2⟩
  rw [run.1, smallWord, small]
  rfl

theorem beginsComparison_iff {c : Char} {rest : List Char}
    (plain : ∀ x ∈ c :: rest, x.toNat < 128) :
    BeginsComparison (c :: rest) ↔
      ∃ following, BeginsIs c rest following ∧ comparison? following ≠ none := by
  constructor
  · rintro ⟨first, spaces, more, entry, listed, whole, small, some, blank, goes⟩
    obtain ⟨space, spaces, rfl⟩ := exists_cons_of_ne_nil some
    obtain ⟨rfl, blankRest⟩ := forall_mem_cons.mp blank
    rw [whole] at plain
    obtain ⟨plainFirst, plainRest⟩ := forall_mem_append.mp plain
    obtain ⟨x, second, rfl, begins⟩ := beginsIs_of_lowercaseChars
      (spaces ++ (entry.1.toList ++ more)) plainFirst small
    obtain ⟨rfl, rfl⟩ := List.cons.inj whole
    exact ⟨_, begins, (comparison?_ne_none_iff (forall_mem_cons.mp plainRest).2).mpr
      ⟨spaces, more, entry, listed, rfl, blankRest, goes⟩⟩
  · rintro ⟨following, begins, found⟩
    have plainFollowing : ∀ x ∈ following, x.toNat < 128 := fun x member =>
      plain x (mem_cons_of_mem _ ((dropWhile_suffix _).subset
        (begins.follows ▸ mem_cons_of_mem _ member)))
    obtain ⟨spaces, more, entry, listed, rfl, blank, goes⟩ :=
      (comparison?_ne_none_iff plainFollowing).mp found
    refine ⟨c :: rest.takeWhile isWordPart, ' ' :: spaces, more, entry, listed, ?_, ?_,
      cons_ne_nil _ _, forall_mem_cons.mpr ⟨rfl, blank⟩, goes⟩
    · rw [cons_append, cons_append, ← begins.follows, takeWhile_append_dropWhile]
    · rw [← begins.word, smallWord, String.toList_ofList]

namespace BeginsIs

variable {c d : Char} {rest more following further : List Char}
  (begins : BeginsIs c rest following)

include begins

theorem compares_iff (plain : ∀ x ∈ c :: rest, x.toNat < 128) :
    BeginsComparison (c :: rest) ↔ comparison? following ≠ none := by
  rw [beginsComparison_iff plain]
  constructor
  · rintro ⟨other, beginsToo, found⟩
    obtain ⟨-, rfl⟩ := List.cons.inj (beginsToo.follows.symm.trans begins.follows)
    exact found
  · exact fun found => ⟨following, begins, found⟩

theorem piece_eq (before : List Char) : piece before c rest =
      .ok (wordPiece before "is" (rest.takeWhile isWordPart).length (' ' :: following)) := by
  rw [← begins.word, ← begins.follows, piece, begins.opens]
  rfl

theorem of_alike (here : IsAlike c d) (later : AreAlike rest more) :
    ∃ further, BeginsIs d more further ∧ AreAlike following further := by
  have left := later.dropWhile _ IsAlike.isWordPart_eq
  rw [begins.follows] at left
  obtain ⟨space, further, isSpace, following, split⟩ := forall₂_cons_left_iff.mp left
  obtain rfl := (isSpace.eq_iff (by decide)).mp rfl
  refine ⟨further, ⟨here.opening_eq.symm.trans begins.opens, ?_, split⟩, following⟩
  rw [← begins.word, smallWord, smallWord,
    AreAlike.lowercaseChars_eq (.cons here (later.takeWhile _ IsAlike.isWordPart_eq))]

end BeginsIs

/-! ### Pieces of alike texts -/

/-- Whether a word is followed by what makes it count one line more. -/
def breaksLine (word : String) (after : List Char) : Bool :=
  word = "does" && after.take 2 = ['\n', ' ']

/-- A word that cannot go on means itself. -/
theorem wordPiece_eq_plainWord (before : List Char) {word : String} (times : word ≠ "times")
    (phrase : word ∈ ["is", "divided"] → after.head? ≠ some ' ') (extent : Nat) :
    wordPiece before word extent after =
      { plainWord word extent with extraLine := breaksLine word after } := by
  simp only [wordPiece]
  split
  · exact absurd rfl times
  · exact absurd rfl (phrase (by decide))
  · exact absurd rfl (phrase (by decide))
  · rename_i c rest
    have breaks : breaksLine "does" (c :: ' ' :: rest) = decide (c = '\n') := by simp [breaksLine]
    rw [beginsNotEqual_space, breaks]
    rfl
  · rename_i other
    have unbroken : breaksLine word after = false := by
      refine Bool.eq_false_iff.mpr fun breaks => ?_
      obtain ⟨does, follows⟩ := Bool.and_eq_true_iff.mp breaks
      refine other '\n' (after.drop 2) (of_decide_eq_true does) ?_
      conv_lhs => rw [← take_append_drop 2 after, of_decide_eq_true follows]
      rfl
    rw [unbroken, plainWord]
    cases Symbol.ofWord? word <;> rfl

section

variable {before around after others : List Char}

theorem followsCount_of_alike (alike : AreAlike before around) :
    followsCount before = followsCount around := by
  have same := AreAlike.lowercaseChars_eq (forall₂_reverse_iff.mpr (forall₂_take lookBehind alike))
  rw [followsCount, followsCount, same]

theorem endsWord_of_alike (alike : AreAlike after others) : endsWord after = endsWord others := by
  cases alike with
  | nil => rfl
  | cons here _ =>
    rw [endsWord, endsWord, decide_eq_decide.mpr (here.eq_iff (by decide)),
      decide_eq_decide.mpr (here.eq_iff (by decide))]

theorem breaksLine_of_alike (alike : AreAlike after others) (word : String) :
    breaksLine word after = breaksLine word others := by
  have same : after.take 2 = ['\n', ' '] ↔ others.take 2 = ['\n', ' '] :=
    AreAlike.eq_iff (forall₂_take 2 alike) (by decide)
  rw [breaksLine, breaksLine, decide_eq_decide.mpr same]

theorem wordPiece_of_alike (alikeBefore : AreAlike before around) (alike : AreAlike after others)
    {word : String} (same : word = "is" → ∀ rest more, after = ' ' :: rest → others = ' ' :: more →
      comparison? rest = comparison? more) (extent : Nat) :
    wordPiece before word extent after = wordPiece around word extent others := by
  rcases word_cases word after with rfl | ⟨times, phrase⟩ | ⟨rest, rfl, phrase⟩
  · rw [wordPiece_times_eq, wordPiece_times_eq, followsCount_of_alike alikeBefore,
      endsWord_of_alike alike]
  · have phraseToo : word ∈ ["is", "divided"] → others.head? ≠ some ' ' := by
      intro member space
      obtain ⟨more, rfl⟩ := List.head?_eq_some_iff.mp space
      obtain ⟨c, rest, isSpace, -, rfl⟩ := forall₂_cons_right_iff.mp alike
      exact phrase member (congrArg some ((isSpace.eq_iff (by decide)).mpr rfl))
    rw [wordPiece_eq_plainWord before times phrase, wordPiece_eq_plainWord around times phraseToo,
      breaksLine_of_alike alike]
  · obtain ⟨c, more, isSpace, later, rfl⟩ := forall₂_cons_left_iff.mp alike
    obtain rfl := (isSpace.eq_iff (by decide)).mp rfl
    rcases phrase with rfl | rfl
    · have equal := same rfl rest more rfl rfl
      cases means : comparison? rest with
      | none => rw [wordPiece_is means, wordPiece_is (equal.symm.trans means)]
      | some found =>
        rw [wordPiece_comparison means, wordPiece_comparison (equal.symm.trans means)]
    · rw [wordPiece_divided_eq, wordPiece_divided_eq,
        AreAlike.lowercaseChars_eq (forall₂_take 3 later)]

theorem numeral_of_alike (alike : AreAlike after others) : numeral after = numeral others := by
  have digits {cs more : List Char} (same : AreAlike cs more) :
      cs.takeWhile isDigit = more.takeWhile isDigit := by
    have alikeDigits := AreAlike.takeWhile same _ IsAlike.isDigit_eq
    refine ((alikeDigits.eq_iff (all_eq_true.mpr fun c member => ?_)).mp rfl).symm
    cases letter : c.isAlpha with
    | false => rfl
    | true => cases (tests_of_isAlpha letter).2.2.2.symm.trans (mem_takeWhile_imp member)
  have left := AreAlike.dropWhile alike _ IsAlike.isDigit_eq
  rw [numeral, numeral, digits alike]
  generalize after.dropWhile isDigit = rest at left
  generalize others.dropWhile isDigit = more at left
  cases left with
  | nil => rfl
  | cons here later =>
    rename_i x y rest more
    by_cases dot : x = '.'
    · obtain rfl := (here.eq_iff (by decide)).mp dot
      subst dot
      exact congrArg (fun part => (others.takeWhile isDigit ++ '.' :: part, true)) (digits later)
    · have dotToo : y ≠ '.' := fun same => dot ((here.eq_iff (by decide)).mpr same)
      split
      · rename_i same
        cases same
        exact absurd rfl dot
      · split
        · rename_i same
          cases same
          exact absurd rfl dotToo
        · rfl

variable {c d : Char} {rest : List Char}

/-- The comparisons that follow `is` in alike texts are the same, if both texts begin with a
comparison or none does. -/
theorem comparison?_eq_of_iff {more following further : List Char} (here : IsAlike c d)
    (later : AreAlike rest more)
    (same : BeginsComparison (c :: rest) ↔ BeginsComparison (d :: more))
    (begins : BeginsIs c rest following) (follows : more.dropWhile isWordPart = ' ' :: further) :
    comparison? following = comparison? further := by
  have whole : AreAlike (c :: rest) (d :: more) := .cons here later
  obtain ⟨other, beginsToo, alike⟩ := begins.of_alike here later
  obtain ⟨-, rfl⟩ := List.cons.inj (beginsToo.follows.symm.trans follows)
  rw [begins.compares_iff whole.plain, beginsToo.compares_iff whole.plainToo] at same
  cases means : comparison? following with
  | none => exact (not_not.mp fun found => same.mpr found means).symm
  | some found =>
    rcases comparison?_of_alike alike means with equal | none
    · exact equal.symm
    · exact absurd none (same.mp (by rw [means]; exact Option.some_ne_none _))

/-- A piece is the same in alike texts, if both begin with a comparison or none does. -/
theorem piece_of_alike (alikeBefore : AreAlike before around) (here : IsAlike c d)
    (later : AreAlike rest others)
    (same : BeginsComparison (c :: rest) ↔ BeginsComparison (d :: others)) :
    piece before c rest = piece around d others := by
  have told := tells_opening c
  rw [piece, piece, ← here.opening_eq]
  cases begins : opening c with
  | blank | other | mark => rfl
  | comment =>
    have inLine := (later.takeWhile (fun c => decide (c ≠ '\n')) fun same =>
      decide_eq_decide.mpr (not_congr (same.eq_iff (by decide)))).length_eq
    dsimp only
    rw [inLine]
  | number =>
    dsimp only
    rw [numberPiece, numberPiece, numeral_of_alike (.cons here later)]
  | string =>
    rw [begins] at told
    refine absurd ?_ here.unquoted
    simpa [Opening.Tells] using told
  | word =>
    have run := later.takeWhile _ IsAlike.isWordPart_eq
    have small : lowercaseChars (c :: rest.takeWhile isWordPart) =
        lowercaseChars (d :: others.takeWhile isWordPart) :=
      AreAlike.lowercaseChars_eq (.cons here run)
    dsimp only
    rw [← small, ← run.length_eq]
    refine congrArg Except.ok
      (wordPiece_of_alike alikeBefore (later.dropWhile _ IsAlike.isWordPart_eq) ?_ _)
    intro word following more after afterToo
    exact comparison?_eq_of_iff here later same ⟨begins, word, after⟩ afterToo

end

/-! ### Readings of alike texts -/

/-- Whether a piece begins between the two parts of a text that has `before` in front of it. -/
inductive PieceBegins : (before cs front rest : List Char) → Prop
  | here (before cs : List Char) : PieceBegins before cs [] cs
  | later {before rest front left : List Char} {c : Char} {found : Piece} :
    piece before c rest = .ok found →
      PieceBegins ((c :: rest.take found.extent).reverse ++ before) (rest.drop found.extent) front
        left →
      PieceBegins before (c :: rest) (c :: rest.take found.extent ++ front) left

/-- Whether two texts begin comparisons in the same places, as far as pieces of both begin there. -/
def CompareAlike (before around cs others : List Char) : Prop :=
  ∀ front rest frontToo restToo, PieceBegins before cs front rest →
    PieceBegins around others frontToo restToo → front.length = frontToo.length →
      (BeginsComparison rest ↔ BeginsComparison restToo)

section

variable {before around cs others : List Char}

theorem foldl_after_of_alike (alike : AreAlike cs others) (place : Place) :
    cs.foldl Place.after place = others.foldl Place.after place := by
  induction alike generalizing place with
  | nil => rfl
  | cons here later ih =>
    rename_i c d rest more
    have same : place.after c = place.after d := if_congr (here.eq_iff (by decide)) rfl rfl
    rw [foldl_cons, foldl_cons, same, ih]

theorem placeAfter_of_alike (alike : AreAlike cs others) (found : Piece) (place : Place) :
    found.placeAfter place cs = found.placeAfter place others := by
  rw [Piece.placeAfter, Piece.placeAfter, foldl_after_of_alike alike]

theorem scan_of_alike (alikeBefore : AreAlike before around) (alike : AreAlike cs others)
    (same : CompareAlike before around cs others) (place : Place) :
    scan before place cs = scan around place others := by
  induction cs using piecewise generalizing before around others place with
  | nil =>
    cases alike
    rw [scan_nil, scan_nil]
  | cons c rest ih =>
    cases alike with
    | @cons _ d _ more here later =>
      have first := piece_of_alike alikeBefore here later
        (same [] _ [] _ (.here _ _) (.here _ _) rfl)
      cases next : piece before c rest with
      | error failure =>
        rw [scan_of_failure next, scan_of_failure (first.symm.trans next)]
      | ok found =>
        have taken : AreAlike (c :: rest.take found.extent) (d :: more.take found.extent) :=
          .cons here (forall₂_take _ later)
        have others := ih _ (rel_append (forall₂_reverse_iff.mpr taken) alikeBefore)
          (forall₂_drop found.extent later)
          (fun front left frontToo leftToo begins beginsToo equal =>
            same _ _ _ _ (.later next begins) (.later (first.symm.trans next) beginsToo)
              (by rw [length_append, length_append, taken.length_eq, equal]))
          (found.placeAfter place (c :: rest.take found.extent))
        rw [scan_of_piece next, scan_of_piece (first.symm.trans next), others,
          placeAfter_of_alike taken]

/-- A piece that is a comparison differs from the piece of an alike text that is none: the other
piece is the word `is` itself. -/
theorem tokens_ne_of_comparison {c d : Char} {rest more : List Char} {found other : Piece}
    (here : IsAlike c d) (later : AreAlike rest more) (compares : BeginsComparison (c :: rest))
    (hidden : ¬BeginsComparison (d :: more)) (next : piece before c rest = .ok found)
    (nextToo : piece around d more = .ok other) (tokens tokensToo : List Token) :
    found.token?.toList ++ tokens ≠ other.token?.toList ++ tokensToo := by
  have whole : AreAlike (c :: rest) (d :: more) := .cons here later
  obtain ⟨following, begins, compared⟩ := (beginsComparison_iff whole.plain).mp compares
  obtain ⟨further, beginsToo, -⟩ := begins.of_alike here later
  rw [beginsToo.compares_iff whole.plainToo, not_not] at hidden
  obtain ⟨⟨sign, taken⟩, means⟩ := Option.ne_none_iff_exists'.mp compared
  obtain ⟨-, -, -, -, listed, -⟩ := comparison?_cases means
  rw [begins.piece_eq, wordPiece_comparison means] at next
  rw [beginsToo.piece_eq, wordPiece_is hidden] at nextToo
  rw [← Except.ok.inj next, ← Except.ok.inj nextToo]
  intro same
  obtain ⟨equal, -⟩ := List.cons.inj same
  have isSign : sign = .isWord := Token.symbol.inj equal
  exact absurd (isSign ▸ listed) (by decide)

theorem compareAlike_of_scan (alikeBefore : AreAlike before around) (alike : AreAlike cs others)
    {place : Place} {lexemes : List Lexeme} (read : scan before place cs = .ok lexemes)
    (readToo : scan around place others = .ok lexemes) : CompareAlike before around cs others := by
  induction cs using piecewise generalizing before around others place lexemes with
  | nil =>
    intro front rest frontToo restToo begins beginsToo equal
    cases alike
    cases begins
    cases beginsToo
    rfl
  | cons c left ih =>
    intro front rest frontToo restToo begins beginsToo equal
    cases alike with
    | @cons _ d _ leftToo here later =>
      obtain ⟨found, lexed, next, scanned, whole⟩ := scan_cons read
      obtain ⟨other, lexedToo, nextToo, scannedToo, wholeToo⟩ := scan_cons readToo
      have tokens := congrArg (List.map Lexeme.token) (whole.symm.trans wholeToo)
      rw [map_append, map_append, map_token_lexeme, map_token_lexeme] at tokens
      have first : BeginsComparison (c :: left) ↔ BeginsComparison (d :: leftToo) := by
        constructor
        · intro compares
          by_contra hidden
          exact tokens_ne_of_comparison here later compares hidden next nextToo _ _ tokens
        · intro compares
          by_contra hidden
          exact tokens_ne_of_comparison here.symm (AreAlike.symm later) compares hidden nextToo next
            _ _ tokens.symm
      have same := piece_of_alike alikeBefore here later first
      rw [next, nextToo] at same
      obtain rfl := Except.ok.inj same
      have taken : AreAlike (c :: left.take found.extent) (d :: leftToo.take found.extent) :=
        .cons here (forall₂_take _ later)
      -- The lexeme of the first piece is the same, so those of the rest are.
      rw [← placeAfter_of_alike taken] at scannedToo wholeToo
      obtain rfl := append_cancel_left (whole.symm.trans wholeToo)
      cases begins with
      | here =>
        cases beginsToo with
        | here => exact first
        | later => cases equal
      | later nextAgain begins =>
        cases beginsToo with
        | here => cases equal
        | later nextAgainToo beginsToo =>
          obtain rfl := Except.ok.inj (next.symm.trans nextAgain)
          obtain rfl := Except.ok.inj (nextToo.symm.trans nextAgainToo)
          refine ih _ (rel_append (forall₂_reverse_iff.mpr taken) alikeBefore)
            (forall₂_drop found.extent later) scanned scannedToo _ _ _ _ begins beginsToo ?_
          rw [length_append, length_append, taken.length_eq] at equal
          exact Nat.add_left_cancel equal

end

end Lexer

/-- Two plain texts without quotes that differ only in the case of letters are read alike, whether
reading ends or fails, if their comparisons begin in the same places; and where one of them has
lexemes, the other has the same ones only then. -/
theorem lex_eq_iff_comparisons_are_alike (text other : String)
    (plain : ∀ c ∈ text.toList, c.toNat < 128) (plainToo : ∀ c ∈ other.toList, c.toNat < 128)
    (unquoted : '"' ∉ text.toList ∧ '\'' ∉ text.toList)
    (same : lowercase text = lowercase other) :
    (Lexer.CompareAlike [] [] text.toList other.toList → lex text = lex other) ∧
      ∀ lexemes, lex text = .ok lexemes →
        (lex other = .ok lexemes ↔ Lexer.CompareAlike [] [] text.toList other.toList) := by
  have alike : AreAlike text.toList other.toList :=
    .of_lowercase plain plainToo unquoted (String.ofList_injective same)
  have equal (compared : Lexer.CompareAlike [] [] text.toList other.toList) :
      lex text = lex other := scan_of_alike .nil alike compared _
  refine ⟨equal, fun lexemes read => ⟨fun readToo => ?_, fun compared => ?_⟩⟩
  · exact compareAlike_of_scan .nil alike read readToo
  · rw [← equal compared, read]

theorem lex_eq_iff_comparisons_are_alike_if_greater :
    lex "IF Sum Is greater THAN 2" = lex "if sum is greater than 2" ∧
      Lexer.CompareAlike [] [] "IF Sum Is greater THAN 2".toList
        "if sum is greater than 2".toList := by
  have read : lex "IF Sum Is greater THAN 2" =
      .ok [⟨.symbol .ifWord, 1, 1⟩, ⟨.identifier "sum", 1, 4⟩, ⟨.symbol .isGreaterThan, 1, 8⟩,
        ⟨.number (.int 2), 1, 24⟩, ⟨.symbol .endOfText, 1, 25⟩] := by decide +kernel
  have readToo : lex "if sum is greater than 2" =
      .ok [⟨.symbol .ifWord, 1, 1⟩, ⟨.identifier "sum", 1, 4⟩, ⟨.symbol .isGreaterThan, 1, 8⟩,
        ⟨.number (.int 2), 1, 24⟩, ⟨.symbol .endOfText, 1, 25⟩] := by decide +kernel
  have plain (text : String) (all : (text.toList.all fun c => decide (c.toNat < 128)) = true) :
      ∀ c ∈ text.toList, c.toNat < 128 := fun c member =>
    of_decide_eq_true (all_eq_true.mp all c member)
  have agree := lex_eq_iff_comparisons_are_alike "IF Sum Is greater THAN 2"
    "if sum is greater than 2" (plain _ (by decide)) (plain _ (by decide)) (by decide) (by decide)
  have compared := (agree.2 _ read).mp readToo
  exact ⟨agree.1 compared, compared⟩

/-- A capital after `is` hides a comparison: the same words are read as other tokens. -/
theorem capital_hides_comparison :
    let kinds (text : String) : Option (List (String × Place)) :=
      (lex text).toOption.map fun lexemes =>
        lexemes.map fun lexeme => (lexeme.token.kindName, lexeme.place)
    lowercase "1 is Greater than 2" = lowercase "1 is greater than 2" ∧
      kinds "1 is greater than 2" = some [("NUMBER", ⟨1, 1⟩), ("IS_GREATER_THAN", ⟨1, 3⟩),
        ("NUMBER", ⟨1, 19⟩), ("EOF", ⟨1, 20⟩)] ∧
      kinds "1 is Greater than 2" = some [("NUMBER", ⟨1, 1⟩), ("IS", ⟨1, 3⟩),
        ("IDENTIFIER", ⟨1, 6⟩), ("IDENTIFIER", ⟨1, 14⟩), ("NUMBER", ⟨1, 19⟩), ("EOF", ⟨1, 20⟩)] := by
  decide +kernel

end Parlance
