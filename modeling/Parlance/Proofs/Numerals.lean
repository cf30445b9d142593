import Parlance.Proofs.Scanning

/-!
Numerals: what digits with at most one point between them are read as. A numeral without a point
stands for a whole number, which must not have too many digits; one with a point stands for a
double.
-/

namespace Parlance

open Text List

theorem Text.isBlank_of_isDigit {c : Char} (digit : isDigit c = true) : isBlank c = false := by
  rcases Bool.or_eq_true_iff.mp digit with decimal | other
  · exact isBlank_of_isDecimal decimal
  · exact inRanges_of_apart (by decide +kernel) other

/-- Decimal digits, at least one, with a point and more digits or without. -/
structure Numeral where
  whole : List Char
  fraction : Option (List Char)
  nonempty : whole ≠ []
  wholeDigits : ∀ c ∈ whole, isDecimal c = true
  fractionDigits : ∀ part ∈ fraction, ∀ c ∈ part, isDecimal c = true

namespace Numeral

open Decimal Lexer

def chars (numeral : Numeral) : List Char :=
  numeral.whole ++ (numeral.fraction.map ('.' :: ·)).getD []

def value (numeral : Numeral) : Number :=
  match numeral.fraction with
  | none => .int (ofDigits (digitValues numeral.whole))
  | some part =>
    .float (ofScientific (ofDigits (digitValues (numeral.whole ++ part))) (-part.length))

/-- Whether a numeral has a point or not more digits than are read. -/
def fits (numeral : Numeral) : Bool :=
  numeral.fraction.isSome || numeral.whole.length ≤ digitLimit

variable {c : Char} {digits part after : List Char}

/-- A numeral holds digits and points. -/
theorem mem_chars {number : Numeral} (member : c ∈ number.chars) :
    isDecimal c = true ∨ c = '.' := by
  obtain ⟨whole, fraction, nonempty, wholeDigits, fractionDigits⟩ := number
  rcases mem_append.mp member with inWhole | later
  · exact .inl (wholeDigits c inWhole)
  · cases fraction with
    | none => cases later
    | some part =>
      rcases mem_cons.mp later with point | inPart
      · exact .inr point
      · exact .inl (fractionDigits part rfl c inPart)

variable (number : Numeral)

theorem isBlank_chars : ∀ c ∈ number.chars, isBlank c = false := by
  intro c member
  rcases mem_chars member with decimal | rfl
  · exact isBlank_of_isDecimal decimal
  · decide

theorem exists_chars_eq_cons : ∃ c rest, number.chars = c :: rest ∧ isDecimal c = true := by
  obtain ⟨c, rest, whole⟩ := exists_cons_of_ne_nil number.nonempty
  refine ⟨c, _, by rw [chars, whole, cons_append], number.wholeDigits c ?_⟩
  rw [whole]
  exact mem_cons_self

/-! ### Decimal digits -/

theorem ne_of_isDecimal {other : Char} (decimal : isDecimal c = true)
    (none : isDecimal other = false) : c ≠ other := by
  rintro rfl
  rw [none] at decimal
  cases decimal

theorem digitsBetween_cons (decimal : isDecimal c = true) (afterDigit : Bool)
    (rest : List Char) : digitsBetween afterDigit (c :: rest) =
      (digitsBetween true rest).map (digitValues [c] ++ ·) := by
  obtain ⟨digit, found⟩ := Option.isSome_iff_exists.mp decimal
  rw [digitsBetween, found, digitValues, filterMap_cons_some found]
  · rfl
  · exact ne_of_isDecimal decimal (by decide)

/-- Digits without underscores between them are read as they stand. -/
theorem digitsBetween_digits (nonempty : digits ≠ []) (all : ∀ c ∈ digits, isDecimal c = true) :
    digitsBetween false digits = some (digitValues digits) := by
  have later {digits : List Char} (all : ∀ c ∈ digits, isDecimal c = true) :
      digitsBetween true digits = some (digitValues digits) := by
    induction digits with
    | nil => rfl
    | cons c rest ih =>
      obtain ⟨here, others⟩ := forall_mem_cons.mp all
      rw [digitsBetween_cons here, ih others, Option.map_some, digitValues,
        digitValues, ← filterMap_append]
      rfl
  cases digits with
  | nil => exact absurd rfl nonempty
  | cons c rest =>
    obtain ⟨here, others⟩ := forall_mem_cons.mp all
    rw [digitsBetween_cons here, later others, Option.map_some, digitValues, digitValues,
      ← filterMap_append]
    rfl

theorem length_digitValues (all : ∀ c ∈ digits, isDecimal c = true) :
    (digitValues digits).length = digits.length := by
  induction digits with
  | nil => rfl
  | cons c rest ih =>
    obtain ⟨here, others⟩ := forall_mem_cons.mp all
    obtain ⟨digit, found⟩ := Option.isSome_iff_exists.mp here
    rw [digitValues, filterMap_cons_some found, length_cons, length_cons]
    exact congrArg (· + 1) (ih others)

theorem isDigit_of_isDecimal (decimal : isDecimal c = true) : isDigit c = true := by
  rw [isDigit, decimal, Bool.true_or]

/-! ### Digits and points -/

section

variable {cs : List Char} (marks : ∀ c ∈ cs, isDigit c = true ∨ c = '.')

include marks

theorem notMem_of_marks (other : isDigit c = false ∧ c ≠ '.') : c ∉ cs := by
  intro member
  rcases marks c member with digit | point
  · exact Bool.false_ne_true (other.1.symm.trans digit)
  · exact other.2 point

theorem trimBoth_marks : trimBoth isMargin cs = cs := by
  refine trimBoth_of_none fun c member => ?_
  have shown : isBlank c = false := by
    rcases marks c member with digit | rfl
    · exact isBlank_of_isDigit digit
    · decide
  rw [isMargin, shown, Bool.false_and]

theorem takeSign_marks : takeSign cs = (false, cs) := by
  rw [takeSign]
  · rintro _ rfl
    exact notMem_of_marks marks (by decide) mem_cons_self
  · rintro _ rfl
    exact notMem_of_marks marks (by decide) mem_cons_self

theorem readInteger_marks : readInteger (String.ofList cs) =
    (digitsBetween false cs).elim (.error .malformed) fun digits =>
      if digitLimit < digits.length then .error (.tooLong digits.length)
      else .ok (ofDigits digits) := by
  rw [readInteger, String.toList_ofList, trimBoth_marks marks, takeSign_marks marks]
  dsimp only
  cases digitsBetween false cs <;> rfl

end

/-! ### Whole numbers -/

theorem readInteger_digits (nonempty : digits ≠ []) (all : ∀ c ∈ digits, isDecimal c = true) :
    readInteger (String.ofList digits) =
      if digitLimit < digits.length then .error (.tooLong digits.length)
      else .ok (ofDigits (digitValues digits)) := by
  rw [readInteger_marks fun c member => .inl (isDigit_of_isDecimal (all c member)),
    digitsBetween_digits nonempty all, Option.elim_some, length_digitValues all]

/-! ### Doubles -/

theorem dropUnderscores_of_none {cs : List Char} (none : '_' ∉ cs) (afterDigit : Bool) :
    dropUnderscores afterDigit cs = some cs := by
  induction cs generalizing afterDigit with
  | nil => rfl
  | cons c rest ih =>
    have other : c ≠ '_' := fun same => none (same ▸ mem_cons_self)
    rw [dropUnderscores, ih fun member => none (mem_cons_of_mem _ member)]
    · rfl
    · exact fun _ _ same => absurd same other
    · exact fun same => absurd same other

/-- Digits with a point are neither infinite nor no number. -/
theorem readFloat?_marks {cs : List Char} (marks : ∀ c ∈ cs, isDigit c = true ∨ c = '.')
    (point : '.' ∈ cs) : readFloat? (String.ofList cs) = readUnsigned? cs := by
  have underscores := dropUnderscores_of_none (notMem_of_marks marks (by decide)) false
  have noWord {word : String} (pointless : '.' ∉ word.toList) :
      String.ofList (cs.map Char.toLower) ≠ word := by
    rintro rfl
    refine pointless ?_
    rw [String.toList_ofList]
    exact mem_map.mpr ⟨'.', point, rfl⟩
  simp only [readFloat?, String.toList_ofList, trimBoth_marks marks, underscores,
    takeSign_marks marks, noWord (by decide : '.' ∉ "inf".toList),
    noWord (by decide : '.' ∉ "infinity".toList), noWord (by decide : '.' ∉ "nan".toList),
    decide_false, Bool.or_false, Bool.false_eq_true, if_false, Option.map_id']

theorem leadingDigits_digits (all : ∀ c ∈ digits, isDecimal c = true) (after : List Char)
    (ends : after.head?.any isDecimal = false) :
    leadingDigits (digits ++ after) = (digits, after) :=
  Prod.ext (takeWhile_run all ends).1 (takeWhile_run all ends).2

theorem readUnsigned_digits {whole : List Char} (nonempty : whole ≠ [])
    (wholeDigits : ∀ c ∈ whole, isDecimal c = true)
    (partDigits : ∀ c ∈ part, isDecimal c = true) :
    readUnsigned? (whole ++ '.' :: part) =
      some (ofScientific (ofDigits (digitValues (whole ++ part))) (-part.length)) := by
  have before := leadingDigits_digits wholeDigits ('.' :: part) rfl
  have behind := leadingDigits_digits partDigits [] rfl
  rw [append_nil] at behind
  have digits : (whole.isEmpty && part.isEmpty) = false := by
    rw [isEmpty_eq_false_iff.mpr nonempty, Bool.false_and]
  simp only [readUnsigned?, before, behind, digits, Bool.false_eq_true, if_false, readExponent?,
    Option.map_some, Int.zero_sub]

theorem readFloat_chars (point : number.fraction = some part) :
    readFloat? (String.ofList number.chars) =
      some (ofScientific (ofDigits (digitValues (number.whole ++ part))) (-part.length)) := by
  have spelt : number.chars = number.whole ++ '.' :: part := by
    rw [chars, point, Option.map_some, Option.getD_some]
  rw [readFloat?_marks fun c member => (mem_chars member).imp_left isDigit_of_isDecimal, spelt]
  · exact readUnsigned_digits number.nonempty number.wholeDigits
      (number.fractionDigits part point)
  · rw [spelt]
    exact mem_append_right _ mem_cons_self

/-! ### Numerals in a text -/

theorem numeral_chars (ends : Ends after) :
    Lexer.numeral (number.chars ++ after) = (number.chars, number.fraction.isSome) := by
  obtain ⟨whole, fraction, nonempty, wholeDigits, fractionDigits⟩ := number
  have digits : ∀ c ∈ whole, isDigit c = true :=
    fun c member => isDigit_of_isDecimal (wholeDigits c member)
  cases fraction with
  | none =>
    have run := takeWhile_run digits (ends.any_eq_false (by decide))
    simp only [chars, Option.map_none, Option.getD_none, append_nil, Lexer.numeral, run]
    split
    · exact absurd rfl (ends.ne_some (by decide))
    · rfl
  | some part =>
    have partDigits : ∀ c ∈ part, isDigit c = true :=
      fun c member => isDigit_of_isDecimal (fractionDigits part rfl c member)
    have run := takeWhile_run digits (rfl : ('.' :: (part ++ after)).head?.any isDigit = false)
    have behind := takeWhile_run partDigits (ends.any_eq_false (by decide))
    simp only [chars, Option.map_some, Option.getD_some, append_assoc, cons_append,
      Lexer.numeral, run, behind, Option.isSome_some]

theorem numeralValue_chars : numeralValue number.chars number.fraction.isSome =
      if number.fits then .ok number.value else .error (.longNumeral number.whole.length) := by
  cases fraction : number.fraction with
  | none =>
    have read := readInteger_digits number.nonempty number.wholeDigits
    simp only [chars, fraction, Option.map_none, Option.getD_none, append_nil, numeralValue,
      read, fits, Option.isSome_none, Bool.false_or, Bool.false_eq_true, if_false,
      decide_eq_true_eq, value]
    rcases Nat.lt_or_ge digitLimit number.whole.length with long | short
    · rw [if_pos long, if_neg (Nat.not_le.mpr long)]
    · rw [if_neg (Nat.not_lt.mpr short), if_pos short]
  | some part =>
    simp only [numeralValue, number.readFloat_chars fraction, fits, fraction, Option.isSome_some,
      Bool.true_or, if_true, value]

theorem piece_digit {before rest : List Char} (digit : isDigit c = true) :
    piece before c rest = numberPiece c rest := by
  have none : [' ', '\t', '\r', '#', '\n'].any isDigit = false := by decide
  have marks : ∀ mark ∈ [' ', '\t', '\r', '#', '\n'], c ≠ mark := by
    rintro mark member rfl
    exact any_eq_false.mp none c member digit
  simp only [forall_mem_cons] at marks
  have begins : opening c = .number := by
    simp only [opening, marks, digit, decide_false, Bool.or_false, Bool.false_eq_true, if_false,
      if_true]
  rw [piece, begins]

/-- A numeral is one token, if it has not too many digits. -/
theorem tokensFrom_numeral (before : List Char) (ends : Ends after) :
    tokensFrom before (number.chars ++ after) =
      if number.fits then
        (tokensFrom (number.chars.reverse ++ before) after).map (.number number.value :: ·)
      else .error (.longNumeral number.whole.length) := by
  have run := number.numeral_chars ends
  have read := number.numeralValue_chars
  obtain ⟨c, rest, spelt, decimal⟩ := number.exists_chars_eq_cons
  rw [spelt] at run read ⊢
  have next : piece before c (rest ++ after) =
      (if number.fits then .ok number.value
        else .error (.longNumeral number.whole.length) : Except LexFailure Number).map fun value =>
          { token? := some (.number value), extent := rest.length } := by
    rw [piece_digit (isDigit_of_isDecimal decimal), ← read, numberPiece, ← cons_append, run]
    rfl
  split at next
  case isTrue fits =>
    rw [if_pos fits, cons_append, tokensFrom_of_piece next, take_left, drop_left]
    rfl
  case isFalse long =>
    rw [if_neg long]
    exact tokensFrom_of_failure next

end Numeral

end Parlance
