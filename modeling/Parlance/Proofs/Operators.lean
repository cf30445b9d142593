import Parlance.Parse.Expression
import Parlance.Proofs.Numerals

/-!
Operators as they are written between two operands. Three operators are not read back from their
words: the words of `divided by` are one symbol, after which another `by` is due, and those of `does
not equal` and `is at most` are scanned word by word. `times` after a count belongs to a loop.
-/

namespace Parlance

open BinaryOperator

/-! ### Operands -/

/-- Operands: names that are no keywords, and numerals. -/
inductive Operand where
  | name (chars : List Char) (spelt : Lexer.isWord chars = true)
    (free : Symbol.ofWord? (Lexer.smallWord chars) = none)
  | numeral (number : Numeral)

namespace Operand

open Lexer

def chars : Operand → List Char
  | .name chars _ _ => chars
  | .numeral number => number.chars

def text (operand : Operand) : String := String.ofList operand.chars

def token : Operand → Token
  | .name chars _ _ => .identifier (smallWord chars)
  | .numeral number => .number number.value

def expression : Operand → Expr
  | .name chars _ _ => .identifier (smallWord chars)
  | .numeral number => .number number.value

/-- Whether an operand is no numeral with too many digits. -/
def fits : Operand → Bool
  | .name _ _ _ => true
  | .numeral number => number.fits

/-- Whether an operand ends in a digit or in `repeat`. -/
def endsInCount (operand : Operand) : Bool :=
  Text.endsInCount (Text.lowercaseChars operand.chars)

variable {c : Char} {after : List Char}

theorem isBlank_of_isWordPart (part : isWordPart c = true) : Text.isBlank c = false := by
  rcases Bool.or_eq_true_iff.mp part with member | underscore
  · exact Text.isBlank_of_isLetterOrNumeral member
  · rw [of_decide_eq_true underscore]
    decide

theorem isWordPart_of_isLetter (letter : Text.isLetter c = true) : isWordPart c = true := by
  refine Bool.or_eq_true_iff.mpr (.inl ?_)
  unfold Text.isLetter at letter
  unfold Text.isLetterOrNumeral
  split at letter
  case isTrue small => rw [if_pos small, Char.isAlphanum, letter, Bool.true_or]
  case isFalse large => rw [if_neg large, letter, Bool.true_or]

/-- No word holds white space. -/
theorem isBlank_of_isWord {word : List Char} (spelt : isWord word = true) :
    ∀ c ∈ word, Text.isBlank c = false := by
  intro c member
  refine isBlank_of_isWordPart ?_
  cases word with
  | nil => cases member
  | cons first others =>
    obtain ⟨begins, goesOn⟩ := Bool.and_eq_true_iff.mp spelt
    rcases List.mem_cons.mp member with rfl | later
    · rcases Bool.or_eq_true_iff.mp (Bool.and_eq_true_iff.mp begins).1 with letter | underscore
      · exact isWordPart_of_isLetter letter
      · exact Bool.or_eq_true_iff.mpr (.inr underscore)
    · exact List.all_eq_true.mp goesOn c later

variable (operand : Operand)

/-- No operand holds white space. -/
theorem isBlank_chars : ∀ c ∈ operand.chars, Text.isBlank c = false := by
  cases operand with
  | name chars spelt free => exact isBlank_of_isWord spelt
  | numeral number => exact number.isBlank_chars

theorem tokensFrom_chars (fits : operand.fits = true) (before : List Char) (ends : Ends after)
    (apart : Text.lowercaseChars ((after.drop 1).take 3) ≠ "by ".toList) :
    tokensFrom before (operand.chars ++ after) =
      (tokensFrom (operand.chars.reverse ++ before) after).map (operand.token :: ·) := by
  cases operand with
  | name chars spelt free =>
    exact tokensFrom_name spelt rfl free (ends.any_eq_false (by decide))
      (ends.ne_some (by decide)) fun _ _ => apart
  | numeral number => exact (number.tokensFrom_numeral before ends).trans (if_pos fits)

theorem tokensFrom_chars_long (long : operand.fits = false) (before : List Char)
    (ends : Ends after) :
    ∃ failure, tokensFrom before (operand.chars ++ after) = .error failure := by
  cases operand with
  | name chars spelt free => cases long
  | numeral number =>
    exact ⟨_, (number.tokensFrom_numeral before ends).trans (if_neg (Bool.eq_false_iff.mp long))⟩

end Operand

/-! ### The words of operators -/

namespace BinaryOperator

open Lexer

/-- The words of each operator that the language knows. -/
def words? : BinaryOperator → Option String
  | .plus => some "plus"
  | .minus => some "minus"
  | .times => some "times"
  | .dividedBy => some "divided by"
  | .equals => some "equals"
  | .doesNotEqual => some "does not equal"
  | .isGreaterThan => some "is greater than"
  | .isLessThan => some "is less than"
  | .isAtLeast => some "is at least"
  | .isAtMost => some "is at most"
  | .and => some "and"
  | .or => some "or"
  | .unknown _ => none

/-- The tokens of the words of an operator, after a count or elsewhere. -/
def scanned : BinaryOperator → (counted : Bool) → List Token
  | .plus, _ => [.symbol .plus]
  | .minus, _ => [.symbol .minus]
  | .times, counted => [.symbol (if counted then .timesWord else .timesOperator)]
  | .dividedBy, _ => [.symbol .divided]
  | .equals, _ => [.symbol .equals]
  | .doesNotEqual, _ => [.identifier "does", .symbol .notWord, .identifier "equal"]
  | .isGreaterThan, _ => [.symbol .isGreaterThan]
  | .isLessThan, _ => [.symbol .isLessThan]
  | .isAtLeast, _ => [.symbol .isAtLeast]
  | .isAtMost, _ => [.symbol .isWord, .symbol .atWord, .identifier "most"]
  | .and, _ => [.symbol .andWord]
  | .or, _ => [.symbol .orWord]
  | .unknown _, _ => []

def isWritten : BinaryOperator → (counted : Bool) → Bool
  | .times, counted => !counted
  | .dividedBy, _ | .doesNotEqual, _ | .isAtMost, _ | .unknown _, _ => false
  | _, _ => true

variable {before rest : List Char}

/-- Whether a text is a word in small letters. -/
def IsSmallWord (word : String) : Prop := isWord word.toList = true ∧ smallWord word.toList = word

variable (word : String)

theorem tokensFrom_keyword_space (sign : Symbol) (before rest : List Char)
    (spelt : IsSmallWord word) (keyword : Symbol.ofWord? word = some sign)
    (plain : word ∉ ["times", "is"]) :
    tokensFrom before (word.toList ++ ' ' :: rest) =
      (tokensFrom (' ' :: (word.toList.reverse ++ before)) rest).map (.symbol sign :: ·) := by
  rw [tokensFrom_keyword spelt.1 spelt.2 keyword plain rfl, tokensFrom_space]

theorem tokensFrom_name_space (before rest : List Char) (spelt : IsSmallWord word)
    (free : Symbol.ofWord? word = none) (alone : word ≠ "divided") :
    tokensFrom before (word.toList ++ ' ' :: rest) =
      (tokensFrom (' ' :: (word.toList.reverse ++ before)) rest).map (.identifier word :: ·) := by
  rw [tokensFrom_name spelt.1 spelt.2 free rfl ((Ends.space rest).ne_some (by decide))
    fun same => absurd same alone, tokensFrom_space]

theorem tokensFrom_comparison (words : List Char) {sign : Symbol}
    (means : comparison? (words ++ ' ' :: rest) = some (sign, words.length)) :
    tokensFrom before ("is".toList ++ (' ' :: words ++ ' ' :: rest)) =
      (tokensFrom (' ' :: (("is".toList ++ ' ' :: words).reverse ++ before)) rest).map
        (.symbol sign :: ·) := by
  have spelt : IsSmallWord "is" := ⟨by decide, by decide⟩
  rw [tokensFrom_phrase (' ' :: words) spelt.1 spelt.2 rfl
    (wordPiece_comparison means), tokensFrom_space]

variable {words : String} {operator : BinaryOperator} {counted : Bool}

/-- What the words of each operator are scanned as. -/
theorem tokensFrom_words (operator : BinaryOperator) (spelt : operator.words? = some words)
    (before rest : List Char) :
    ∃ further, tokensFrom before (words.toList ++ ' ' :: rest) =
      (tokensFrom further rest).map (operator.scanned (followsCount before) ++ ·) := by
  cases operator with
  | plus | minus | equals | and | or =>
    cases spelt
    exact ⟨_, tokensFrom_keyword_space _ _ _ _ ⟨by decide, by decide⟩ (by decide) (by decide)⟩
  | times =>
    cases spelt
    have spelt : IsSmallWord "times" := ⟨by decide, by decide⟩
    rw [tokensFrom_word spelt.1 spelt.2 rfl fun extent =>
      wordPiece_times extent rest, tokensFrom_space]
    exact ⟨_, rfl⟩
  | isGreaterThan =>
    cases spelt
    exact ⟨_, tokensFrom_comparison "greater than".toList rfl⟩
  | isLessThan =>
    cases spelt
    exact ⟨_, tokensFrom_comparison "less than".toList rfl⟩
  | isAtLeast =>
    cases spelt
    exact ⟨_, tokensFrom_comparison "at least".toList rfl⟩
  | dividedBy =>
    cases spelt
    have spelt : IsSmallWord "divided" := ⟨by decide, by decide⟩
    exact ⟨_, tokensFrom_phrase " by ".toList spelt.1 spelt.2 rfl (wordPiece_divided rfl)⟩
  | doesNotEqual =>
    cases spelt
    have spaced : "does not equal".toList ++ ' ' :: rest =
        "does".toList ++ ' ' :: ("not".toList ++ ' ' :: ("equal".toList ++ ' ' :: rest)) := rfl
    rw [spaced, tokensFrom_name_space "does" _ _ ⟨by decide, by decide⟩ (by decide) (by decide),
      tokensFrom_keyword_space "not" .notWord _ _ ⟨by decide, by decide⟩ (by decide) (by decide),
      tokensFrom_name_space "equal" _ _ ⟨by decide, by decide⟩ (by decide) (by decide), map_map,
      map_map]
    exact ⟨_, rfl⟩
  | isAtMost =>
    cases spelt
    have spaced : "is at most".toList ++ ' ' :: rest =
        "is".toList ++ ' ' :: ("at".toList ++ ' ' :: ("most".toList ++ ' ' :: rest)) := rfl
    have spelt : IsSmallWord "is" := ⟨by decide, by decide⟩
    rw [spaced, tokensFrom_word spelt.1 spelt.2 rfl (wordPiece_is rfl), tokensFrom_space,
      tokensFrom_keyword_space "at" .atWord _ _ ⟨by decide, by decide⟩ (by decide) (by decide),
      tokensFrom_name_space "most" _ _ ⟨by decide, by decide⟩ (by decide) (by decide), map_map,
      map_map]
    exact ⟨_, rfl⟩
  | unknown name => cases spelt

/-! ### Reading operations -/

/-- An operator that can be written is read between two operands. -/
theorem expression_scanned (written : operator.isWritten counted = true) (left right : Operand) :
    Parse.expression (left.token :: (operator.scanned counted ++
        [right.token, .symbol .endOfText])) =
      .ok (.binary left.expression operator right.expression, [.symbol .endOfText]) := by
  cases operator with
  | times =>
    cases counted with
    | true => cases written
    | false => cases left <;> cases right <;> rfl
  | dividedBy | doesNotEqual | isAtMost | unknown => cases written
  | _ => cases left <;> cases right <;> rfl

/-- An operator that cannot be written is not read, whatever its operands are. -/
theorem expression_scanned_ne (spelt : operator.words? = some words)
    (unwritten : operator.isWritten counted = false) (left right : Operand) :
    Parse.expression (left.token :: (operator.scanned counted ++
        [right.token, .symbol .endOfText])) ≠
      .ok (.binary left.expression operator right.expression, [.symbol .endOfText]) := by
  intro read
  cases operator with
  | times =>
    cases counted with
    | true => cases left <;> cases right <;> cases read
    | false => cases unwritten
  | dividedBy | doesNotEqual | isAtMost => cases left <;> cases right <;> cases read
  | unknown => cases spelt
  | _ => cases unwritten

/-- No words of an operator make a phrase of an operand that is the name `divided`. -/
theorem take_words_ne (spelt : operator.words? = some words) (rest : List Char) :
    Text.lowercaseChars ((words.toList ++ ' ' :: rest).take 3) ≠ "by ".toList := by
  have checked : 3 ≤ (words.toList ++ [' ']).length ∧
      Text.lowercaseChars ((words.toList ++ [' ']).take 3) ≠ "by ".toList := by
    cases operator <;> cases spelt <;> decide
  rw [List.append_cons, List.take_append_of_le_length checked.1]
  exact checked.2

end BinaryOperator

/-- Whether a text is an expression, from its beginning to its end. -/
def IsExpression (text : String) (expression : Expr) : Prop :=
  ∃ read, tokens text = .ok read ∧
    Parse.expression read = .ok (expression, [.symbol .endOfText])

section Operations

open Lexer

variable {operator : BinaryOperator} {words : String} {left right : Operand}

theorem tokens_text (left right : Operand) (words : String) :
    tokens (left.text ++ " " ++ words ++ " " ++ right.text) =
      tokensFrom [] (left.chars ++ ' ' :: (words.toList ++ ' ' :: right.chars)) := by
  have spelt : (left.text ++ " " ++ words ++ " " ++ right.text).toList =
      left.chars ++ ' ' :: (words.toList ++ ' ' :: right.chars) := by
    simp [Operand.text]
  rw [← spelt]
  rfl

/-- The tokens of the first operand and of the operator stand before those of the second operand. -/
theorem exists_tokens_eq (right : Operand) (spelt : operator.words? = some words)
    (fits : left.fits = true) :
    ∃ before, tokens (left.text ++ " " ++ words ++ " " ++ right.text) =
      (tokensFrom before right.chars).map fun read =>
        left.token :: (operator.scanned left.endsInCount ++ read) := by
  have apart := take_words_ne spelt right.chars
  rw [tokens_text, left.tokensFrom_chars fits [] (.space _) apart, tokensFrom_space,
    List.append_nil]
  obtain ⟨before, scanned⟩ :=
    operator.tokensFrom_words spelt (' ' :: left.chars.reverse) right.chars
  rw [scanned, map_map, followsCount_space left.isBlank_chars]
  exact ⟨before, rfl⟩

theorem tokens_operation (spelt : operator.words? = some words) (leftFits : left.fits = true)
    (rightFits : right.fits = true) :
    tokens (left.text ++ " " ++ words ++ " " ++ right.text) =
      .ok (left.token :: (operator.scanned left.endsInCount ++
        [right.token, .symbol .endOfText])) := by
  obtain ⟨before, scanned⟩ := exists_tokens_eq right spelt leftFits
  have last := right.tokensFrom_chars rightFits before .nil (by decide)
  rw [List.append_nil, tokensFrom_nil] at last
  rw [scanned, last]
  rfl

/-- A numeral with too many digits spoils the text. -/
theorem fits_of_tokens {read : List Token} (spelt : operator.words? = some words)
    (scanned : tokens (left.text ++ " " ++ words ++ " " ++ right.text) = .ok read) :
    left.fits = true ∧ right.fits = true := by
  have leftFits : left.fits = true := by
    refine Bool.of_not_eq_false fun long => ?_
    obtain ⟨failure, failed⟩ := left.tokensFrom_chars_long long [] (.space _)
    rw [tokens_text, failed] at scanned
    cases scanned
  refine ⟨leftFits, Bool.of_not_eq_false fun long => ?_⟩
  obtain ⟨before, same⟩ := exists_tokens_eq right spelt leftFits
  obtain ⟨failure, failed⟩ := right.tokensFrom_chars_long long before .nil
  rw [List.append_nil] at failed
  rw [same, failed] at scanned
  cases scanned

/-- An operator that cannot be written after its first operand is not read. -/
theorem not_isExpression_of_unwritten (left right : Operand) (spelt : operator.words? = some words)
    (unwritten : operator.isWritten left.endsInCount = false) :
    ¬ IsExpression (left.text ++ " " ++ words ++ " " ++ right.text)
      (.binary left.expression operator right.expression) := by
  rintro ⟨read, scanned, whole⟩
  obtain ⟨leftFits, rightFits⟩ := fits_of_tokens spelt scanned
  rw [tokens_operation spelt leftFits rightFits] at scanned
  cases scanned
  exact expression_scanned_ne spelt unwritten left right whole

/-- An operation is read back from its text exactly if no operand is too long and the operator can
be written after its first operand. -/
theorem operation_isExpression_iff (left right : Operand) (spelt : operator.words? = some words) :
    IsExpression (left.text ++ " " ++ words ++ " " ++ right.text)
        (.binary left.expression operator right.expression) ↔
      left.fits = true ∧ right.fits = true ∧ operator.isWritten left.endsInCount = true := by
  constructor
  · intro whole
    obtain ⟨leftFits, rightFits⟩ := fits_of_tokens spelt whole.choose_spec.1
    refine ⟨leftFits, rightFits, Bool.of_not_eq_false fun unwritten => ?_⟩
    exact not_isExpression_of_unwritten left right spelt unwritten whole
  · rintro ⟨leftFits, rightFits, written⟩
    exact ⟨_, tokens_operation spelt leftFits rightFits, expression_scanned written left right⟩

end Operations

/-- `times` is read after a name, unless the name ends in a digit. -/
theorem operation_isExpression_iff_at_times : times.words? = some "times" ∧
      IsExpression "Rate times 30" (.binary (.identifier "rate") .times (.number (.int 30))) ∧
      ¬ IsExpression "rate9 times 30"
        (.binary (.identifier "rate9") .times (.number (.int 30))) := by
  let thirty : Operand :=
    .numeral ⟨['3', '0'], none, by decide, List.all_eq_true.mp (by decide), nofun⟩
  have plain := operation_isExpression_iff (.name "Rate".toList (by decide) (by decide)) thirty
    (rfl : times.words? = some "times")
  have counted := operation_isExpression_iff (.name "rate9".toList (by decide) (by decide)) thirty
    (rfl : times.words? = some "times")
  exact ⟨rfl, plain.mpr ⟨rfl, rfl, rfl⟩, fun whole => Bool.false_ne_true (counted.mp whole).2.2⟩

/-- One number being at most another cannot be written. -/
theorem isAtMost_not_isExpression :
    ¬ IsExpression "1 is at most 2" (.binary (.number (.int 1)) .isAtMost (.number (.int 2))) := by
  let one : Operand := .numeral ⟨['1'], none, by decide, List.all_eq_true.mp (by decide), nofun⟩
  let two : Operand := .numeral ⟨['2'], none, by decide, List.all_eq_true.mp (by decide), nofun⟩
  have unread := not_isExpression_of_unwritten one two
    (rfl : isAtMost.words? = some "is at most") rfl
  exact unread

end Parlance
