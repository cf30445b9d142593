import Mathlib.Data.List.Forall2
import Mathlib.Logic.Relation
import Parlance.Proofs.Saying

/-!
Literals. Every string can be written between quotes, and the text behind it is cut as if it stood
alone.
-/

namespace Parlance

open Text List Lexer Numeral Decimal

/-! ### Strings that are written -/

/-- What a character of a string can be written as between such quotes. -/
inductive IsWrittenAs (quote : Char) : Char → List Char → Prop
  | plain {c : Char} : c ≠ quote → c ≠ '\\' → IsWrittenAs quote c [c]
  | marked {c : Char} : c = '\\' ∨ c = quote → IsWrittenAs quote c ['\\', c]
  | newline : IsWrittenAs quote '\n' ['\\', 'n']
  | tab : IsWrittenAs quote '\t' ['\\', 't']

theorem Lexer.map_eq_error {α β : Type} {result : Except LexFailure α} {f : α → β}
    {failure : LexFailure} (failed : result.map f = .error failure) : result = .error failure := by
  cases result with
  | error other => exact congrArg Except.error (Except.error.inj failed)
  | ok value => cases failed

namespace IsWrittenAs

variable {quote c : Char} {cs : List Char} (isQuote : quote = '"' ∨ quote = '\'')

theorem exists_isWrittenAs (quote c : Char) : ∃ cs, IsWrittenAs quote c cs := by
  by_cases special : c = '\\' ∨ c = quote
  · exact ⟨_, .marked special⟩
  · exact ⟨_, .plain (fun same => special (.inr same)) fun same => special (.inl same)⟩

include isQuote

theorem exists_letter (writes : IsWrittenAs quote c cs) :
    ∃ letter : Letter, letter.chars = cs ∧ letter.char = c ∧
      ∀ x, letter = .plain x → x ≠ quote ∧ x ≠ '\\' := by
  cases writes with
  | plain other unmarked =>
    refine ⟨.plain c, rfl, rfl, ?_⟩
    rintro x ⟨⟩
    exact ⟨other, unmarked⟩
  | marked special =>
    refine ⟨.escaped c, rfl, ?_, by rintro x ⟨⟩⟩
    rcases special with rfl | rfl
    · rfl
    · rcases isQuote with rfl | rfl <;> rfl
  | newline => exact ⟨.escaped 'n', rfl, rfl, by rintro x ⟨⟩⟩
  | tab => exact ⟨.escaped 't', rfl, rfl, by rintro x ⟨⟩⟩

theorem exists_quotation {value : List Char} {written : List (List Char)}
    (writes : Forall₂ (IsWrittenAs quote) value written) :
    ∃ quotation : Quotation, quotation.quote = quote ∧ quotation.inside = written.flatten ∧
      quotation.value = String.ofList value := by
  suffices spelt : ∃ letters : List Letter, letters.flatMap Letter.chars = written.flatten ∧
      letters.map Letter.char = value ∧ ∀ c, .plain c ∈ letters → c ≠ quote ∧ c ≠ '\\' by
    obtain ⟨letters, chars, same, apart⟩ := spelt
    exact ⟨⟨quote, letters, isQuote, apart⟩, rfl, chars, congrArg String.ofList same⟩
  induction writes with
  | nil => exact ⟨[], rfl, rfl, by rintro c ⟨⟩⟩
  | cons here _ ih =>
    obtain ⟨letter, chars, char, plain⟩ := here.exists_letter isQuote
    obtain ⟨letters, rest, value, apart⟩ := ih
    refine ⟨letter :: letters, ?_, ?_, fun c member => ?_⟩
    · rw [flatMap_cons, chars, rest, flatten_cons]
    · rw [map_cons, char, value]
    · rcases mem_cons.mp member with same | later
      · exact plain c same.symm
      · exact apart c later

end IsWrittenAs

/-! ### What follows a string -/

section

variable {quote : Char} (isQuote : quote = '"' ∨ quote = '\'')

include isQuote

/-- A quote is visible and no part of a count. -/
theorem endsInCount_trimBoth_append_quote (front cs : List Char) :
    endsInCount (trimBoth isBlank (front ++ quote :: cs)) = endsInCount (trimBoth isBlank cs) := by
  have bar (front small : List Char) :
      endsInCount (front ++ quote :: small) = endsInCount small := by
    rcases isQuote with rfl | rfl <;>
      exact endsInCount_append_bar (by decide) (by decide) front small
  have shown : isBlank quote = false := by rcases isQuote with rfl | rfl <;> decide
  rw [endsInCount_trimBoth ⟨quote, mem_append_right _ mem_cons_self, shown⟩]
  by_cases visible : ∃ c ∈ cs, isBlank c = false
  · rw [append_cons, dropWhile_reverse_append visible, ← append_cons, bar,
      endsInCount_trimBoth visible]
  · have blank : ∀ c ∈ cs, isBlank c = true := by simpa using visible
    have none : trimBoth isBlank cs = [] := by
      rw [trimBoth, dropWhile_eq_nil_iff.mpr blank]
      rfl
    have all : ∀ c ∈ cs.reverse, isBlank c = true := fun c member => blank c (mem_reverse.mp member)
    rw [reverse_append, reverse_cons, append_assoc, dropWhile_append_of_pos all, singleton_append,
      dropWhile_cons_of_neg (by rw [shown]; exact Bool.false_ne_true), reverse_cons,
      reverse_reverse, bar front [], none]

theorem followsCount_append_quote (seen before : List Char) :
    followsCount (seen ++ quote :: before) = followsCount seen :=
  followsCount_append_bar (by rcases isQuote with rfl | rfl <;> decide)
    (fun front => endsInCount_trimBoth_append_quote isQuote front _) before

end

/-- What stands before a text matters only for whether `times` follows a count. -/
theorem tokensFrom_congr {before around : List Char}
    (same : ∀ seen, followsCount (seen ++ before) = followsCount (seen ++ around))
    (cs : List Char) : tokensFrom before cs = tokensFrom around cs := by
  induction cs using piecewise generalizing before around with
  | nil => rw [tokensFrom_nil, tokensFrom_nil]
  | cons c rest ih =>
    have equal : piece before c rest = piece around c rest := by
      rw [piece, piece]
      cases opening c with
      | word => exact congrArg Except.ok (wordPiece_congr (fun _ => same []) _ _)
      | _ => rfl
    cases next : piece around c rest with
    | error failure =>
      rw [tokensFrom_of_failure next, tokensFrom_of_failure (equal.trans next)]
    | ok found =>
      rw [tokensFrom_of_piece next, tokensFrom_of_piece (equal.trans next)]
      refine congrArg _ (ih _ fun seen => ?_)
      rw [← append_assoc, ← append_assoc, same]

/-- A string between quotes, in which quotes and backslashes are marked, and line ends and tabs may
be, is one token with the value that was written, and the tokens of any text behind it are those
that the text has by itself. -/
theorem string_is_read_as_it_was_written {quote : Char} (isQuote : quote = '"' ∨ quote = '\'')
    (value : List Char) :
    (∃ written, Forall₂ (IsWrittenAs quote) value written) ∧
    ∀ written, Forall₂ (IsWrittenAs quote) value written → ∀ rest,
      piece [] quote (written.flatten ++ quote :: rest) = .ok
        { token? := some (.string (String.ofList value)), extent := written.flatten.length + 1 } ∧
      tokens (String.ofList (quote :: (written.flatten ++ quote :: rest))) =
        (tokens (String.ofList rest)).map (.string (String.ofList value) :: ·) := by
  constructor
  · choose write writes using IsWrittenAs.exists_isWrittenAs quote
    exact ⟨value.map write, forall₂_map_right_iff.mpr (forall₂_same.mpr fun c _ => writes c)⟩
  · intro written writes rest
    obtain ⟨quotation, rfl, inside, same⟩ := IsWrittenAs.exists_quotation isQuote writes
    have next := quotation.piece_chars [] rest
    have cut := quotation.tokensFrom_chars [] rest
    have after (seen : List Char) :
        followsCount (seen ++ (quotation.chars.reverse ++ [])) = followsCount (seen ++ []) := by
      rw [Quotation.chars, append_nil, append_nil, reverse_cons, reverse_concat, cons_append]
      exact followsCount_append_quote isQuote seen _
    rw [inside, same] at next
    rw [tokensFrom_congr after, Quotation.chars, inside, same, cons_append, append_assoc,
      singleton_append] at cut
    refine ⟨next, ?_⟩
    rw [tokens, tokens, lex, lex, String.toList_ofList, String.toList_ofList]
    exact cut

/-- A string of a backslash, a quote and a line end, before a word that looks back. -/
theorem string_is_read_as_it_was_written_before_times :
    tokens "'\\\\\\'\\n5' times" =
      (tokens " times").map (.string "\\'\n5" :: ·) :=
  ((string_is_read_as_it_was_written (.inr rfl) "\\'\n5".toList).2
    ["\\\\".toList, "\\'".toList, "\\n".toList, "5".toList]
    (.cons (.marked (.inl rfl)) (.cons (.marked (.inr rfl)) (.cons .newline
      (.cons (.plain (by decide) (by decide)) .nil)))) " times".toList).2

/-! ### Strings that cannot be read -/

/-- A string cannot be read exactly if the text ends behind a backslash before it is closed. -/
theorem stringBody_eq_error_iff {quote : Char} {cs : List Char} {failure : LexFailure} :
    stringBody quote cs = .error failure ↔ failure = .openEscape ∧
      ∃ letters : List Letter, cs = letters.flatMap Letter.chars ++ ['\\'] ∧
        ∀ c, .plain c ∈ letters → c ≠ quote ∧ c ≠ '\\' := by
  constructor
  · intro failed
    fun_induction stringBody quote cs with
    | case1 => cases failed
    | case2 =>
      cases failed
      exact ⟨rfl, [], rfl, by rintro c ⟨⟩⟩
    | case3 c rest ih =>
      obtain ⟨same, letters, rfl, apart⟩ := ih (map_eq_error failed)
      exact ⟨same, .escaped c :: letters, rfl, fun x member => apart x (by simpa using member)⟩
    | case4 => cases failed
    | case5 c rest single escaped other ih =>
      obtain ⟨same, letters, rfl, apart⟩ := ih (map_eq_error failed)
      refine ⟨same, .plain c :: letters, rfl, fun x member => ?_⟩
      rcases mem_cons.mp member with here | later
      · cases here
        refine ⟨other, ?_⟩
        rintro rfl
        cases rest : letters.flatMap Letter.chars with
        | nil => exact escaped '\\' [] rfl (by rw [rest]; rfl)
        | cons next others => exact escaped next _ rfl (by rw [rest]; rfl)
      · exact apart x later
  · rintro ⟨rfl, letters, rfl, apart⟩
    rw [Quotation.stringBody_letters apart]
    rfl

/-! ### Digits that are no numeral -/

/-- Whether digits with at most one point go as far as they can. -/
inductive IsRun : (run after : List Char) → Prop
  | whole {digits after : List Char} : (∀ c ∈ digits, isDigit c = true) →
    after.head?.any isDigit = false → after.head? ≠ some '.' → IsRun digits after
  | pointed {whole part after : List Char} : (∀ c ∈ whole, isDigit c = true) →
    (∀ c ∈ part, isDigit c = true) → after.head?.any isDigit = false →
      IsRun (whole ++ '.' :: part) after

/-- What a run cannot be read for: a digit that is not decimal, or too many digits without a
point. -/
inductive IsRefused (run : List Char) : LexFailure → Prop
  | other {d : Char} : d ∈ run → isDigit d = true → isDecimal d = false →
    IsRefused run (.badNumeral (String.ofList run) (decide ('.' ∈ run)))
  | long : (∀ d ∈ run, isDecimal d = true) → 4300 < run.length →
    IsRefused run (.longNumeral run.length)

theorem digitsBetween_eq_none {cs : List Char} {d : Char} (plain : '_' ∉ cs) (member : d ∈ cs)
    (other : isDecimal d = false) (afterDigit : Bool) :
    digitsBetween afterDigit cs = none := by
  induction cs generalizing afterDigit with
  | nil => cases member
  | cons c rest ih =>
    have here : c ≠ '_' := fun same => plain (same ▸ mem_cons_self)
    cases decimal : isDecimal c with
    | true =>
      have later : d ∈ rest := by
        rcases mem_cons.mp member with rfl | later
        · exact absurd (decimal.symm.trans other) (by decide)
        · exact later
      rw [digitsBetween_cons decimal, ih (fun inside => plain (mem_cons_of_mem _ inside))
        later]
      rfl
    | false =>
      have none : decimalValue? c = none := by simpa [isDecimal] using decimal
      rw [digitsBetween, none]
      exact here

/-- What begins neither with a digit nor with the mark of an exponent does not end a numeral. -/
theorem readExponent?_digit {d : Char} (digit : isDigit d = true) (rest : List Char) :
    readExponent? (d :: rest) = none := by
  have apart : d ∉ ['e', 'E'] := fun member =>
    any_eq_false.mp (by decide : ['e', 'E'].any isDigit = false) d member digit
  rw [readExponent?, if_neg (by simpa using apart)]

namespace IsRun

variable {run after : List Char}

theorem exists_isRun (cs : List Char) : ∃ run after, cs = run ++ after ∧ IsRun run after := by
  have digits {cs : List Char} : ∀ c ∈ cs.takeWhile isDigit, isDigit c = true :=
    fun c member => mem_takeWhile_imp member
  have stops {cs : List Char} : (cs.dropWhile isDigit).head?.any isDigit = false := by
    have ends := List.head?_dropWhile_not isDigit cs
    cases first : (cs.dropWhile isDigit).head? with
    | none => rfl
    | some c =>
      rw [first] at ends
      simpa using ends
  have whole := takeWhile_append_dropWhile (p := isDigit) (l := cs)
  by_cases point : (cs.dropWhile isDigit).head? = some '.'
  · obtain ⟨others, rest⟩ := List.head?_eq_some_iff.mp point
    refine ⟨_, _, ?_, .pointed (@digits cs) (@digits others) (@stops others)⟩
    rw [append_assoc, cons_append, takeWhile_append_dropWhile, ← rest, whole]
  · exact ⟨_, _, whole.symm, .whole digits stops point⟩

theorem point_notMem {digits : List Char} (each : ∀ c ∈ digits, isDigit c = true) :
    '.' ∉ digits := fun member => absurd (each _ member) (by decide)

theorem numeral_eq (isRun : IsRun run after) :
    numeral (run ++ after) = (run, decide ('.' ∈ run)) := by
  cases isRun with
  | whole digits stops point =>
    simp only [numeral, takeWhile_run digits stops]
    split
    · exact absurd rfl point
    · rw [decide_eq_false (point_notMem digits)]
  | @pointed whole part _ digits more stops =>
    have front := takeWhile_run digits (rfl : ('.' :: (part ++ after)).head?.any isDigit = false)
    simp only [numeral, append_assoc, cons_append, front, takeWhile_run more stops]
    simp

/-- Decimal digits, at least one before the point, are a numeral. -/
theorem exists_numeral (isRun : IsRun run after) (begins : run.head?.any isDigit = true)
    (decimal : ∀ c ∈ run, isDigit c = true → isDecimal c = true) :
    ∃ number : Numeral, number.chars = run ∧ number.fraction.isSome = decide ('.' ∈ run) := by
  cases isRun with
  | whole digits =>
    have nonempty : run ≠ [] := by
      rintro rfl
      cases begins
    exact ⟨⟨run, none, nonempty, fun c member => decimal c member (digits c member),
      by rintro _ ⟨⟩⟩, append_nil run, (decide_eq_false (point_notMem digits)).symm⟩
  | @pointed whole part _ digits more =>
    have nonempty : whole ≠ [] := by
      rintro rfl
      exact absurd (show isDigit '.' = true from begins) (by decide)
    refine ⟨⟨whole, some part, nonempty, fun c member => ?_, ?_⟩, rfl, by simp⟩
    · exact decimal c (mem_append_left _ member) (digits c member)
    · rintro _ ⟨⟩ c member
      exact decimal c (mem_append_right _ (mem_cons_of_mem _ member)) (more c member)

theorem readUnsigned?_eq_none {whole part : List Char} (digits : ∀ c ∈ whole, isDigit c = true)
    (more : ∀ c ∈ part, isDigit c = true)
    (other : ∃ d ∈ whole ++ '.' :: part, isDigit d = true ∧ isDecimal d = false) :
    readUnsigned? (whole ++ '.' :: part) = none := by
  have stops {cs : List Char} (digits : ∀ c ∈ cs, isDigit c = true)
      (other : ∃ d ∈ cs, isDecimal d = false) :
      ∃ d left, cs.dropWhile isDecimal = d :: left ∧ isDigit d = true := by
    obtain ⟨d, left, split⟩ := exists_cons_of_ne_nil
      (mt (dropWhile_eq_nil_iff (p := isDecimal) (l := cs)).mp (by simpa using other))
    exact ⟨d, left, split, digits d ((dropWhile_suffix _).subset (split ▸ mem_cons_self))⟩
  by_cases inWhole : ∃ d ∈ whole, isDecimal d = false
  · obtain ⟨d, left, split, digit⟩ := stops digits inWhole
    have behind : (whole ++ '.' :: part).dropWhile isDecimal = d :: (left ++ '.' :: part) := by
      rw [dropWhile_append, split]
      rfl
    simp only [readUnsigned?, leadingDigits, behind]
    split
    · rename_i same
      cases same
      exact absurd digit (by decide)
    · rw [readExponent?_digit digit, Option.map_none, ite_self]
  · obtain ⟨d, member, digit, notDecimal⟩ := other
    have inPart : d ∈ part := by
      rcases mem_append.mp member with first | later
      · exact absurd ⟨d, first, notDecimal⟩ inWhole
      · refine (mem_cons.mp later).resolve_left ?_
        rintro rfl
        exact absurd digit (by decide)
    obtain ⟨c, left, split, isDigit⟩ := stops more ⟨d, inPart, notDecimal⟩
    have front := leadingDigits_digits (fun c member => Bool.of_not_eq_false
      fun not => inWhole ⟨c, member, not⟩) ('.' :: part) rfl
    simp only [readUnsigned?, front]
    rw [leadingDigits, split]
    dsimp only
    rw [readExponent?_digit isDigit, Option.map_none, ite_self]

/-- A digit that is not decimal has no place in a numeral. -/
theorem numeralValue_of_other (isRun : IsRun run after)
    (other : ∃ d ∈ run, isDigit d = true ∧ isDecimal d = false) :
    numeralValue run (decide ('.' ∈ run)) =
      .error (.badNumeral (String.ofList run) (decide ('.' ∈ run))) := by
  cases isRun with
  | whole digits =>
    have marks : ∀ c ∈ run, isDigit c = true ∨ c = '.' := fun c member => .inl (digits c member)
    obtain ⟨d, member, _, notDecimal⟩ := other
    have read := digitsBetween_eq_none (notMem_of_marks marks (by decide)) member
      notDecimal false
    simp only [numeralValue, decide_eq_false (point_notMem digits), Bool.false_eq_true, if_false,
      readInteger_marks marks, read, Option.elim_none]
  | @pointed whole part _ digits more =>
    have point : '.' ∈ whole ++ '.' :: part := mem_append_right _ mem_cons_self
    have marks : ∀ c ∈ whole ++ '.' :: part, isDigit c = true ∨ c = '.' := fun c member =>
      (mem_append.mp member).elim (fun first => .inl (digits c first)) fun later =>
        (mem_cons.mp later).symm.imp_left (more c)
    simp only [numeralValue, decide_eq_true point, if_true, readFloat?_marks marks point,
      readUnsigned?_eq_none digits more other]

theorem numeralValue_eq_error_iff (isRun : IsRun run after)
    (begins : run.head?.any isDigit = true) {failure : LexFailure} :
    numeralValue run (decide ('.' ∈ run)) = .error failure ↔ IsRefused run failure := by
  by_cases other : ∃ d ∈ run, isDigit d = true ∧ isDecimal d = false
  · rw [isRun.numeralValue_of_other other]
    obtain ⟨d, member, digit, notDecimal⟩ := other
    constructor
    · rintro ⟨⟩
      exact .other member digit notDecimal
    · rintro (_ | ⟨decimal, _⟩)
      · rfl
      · exact absurd ((decimal d member).symm.trans notDecimal) (by decide)
  · have decimal (d : Char) (member : d ∈ run) (digit : isDigit d = true) : isDecimal d = true :=
      Bool.of_not_eq_false fun not => other ⟨d, member, digit, not⟩
    obtain ⟨number, rfl, point⟩ := isRun.exists_numeral begins decimal
    rw [← point, number.numeralValue_chars]
    have known {d : Char} (member : d ∈ number.chars) (digit : isDigit d = true) :
        isDecimal d ≠ false := fun not => other ⟨d, member, digit, not⟩
    cases fraction : number.fraction with
    | none =>
      have chars : number.chars = number.whole := by
        rw [chars, fraction]
        exact append_nil _
      have fits : number.fits = decide (number.whole.length ≤ 4300) := by
        rw [fits, fraction]
        rfl
      rw [chars] at known ⊢
      simp only [fits, decide_eq_true_eq]
      constructor
      · intro failed
        split at failed
        · cases failed
        · cases failed
          exact .long number.wholeDigits (by omega)
      · rintro (⟨member, digit, not⟩ | ⟨_, long⟩)
        · exact absurd not (known member digit)
        · exact if_neg (by omega)
    | some part =>
      have fits : number.fits = true := by
        rw [fits, fraction]
        rfl
      rw [if_pos fits]
      constructor
      · rintro ⟨⟩
      · rintro (⟨member, digit, not⟩ | ⟨all, _⟩)
        · exact absurd not (known member digit)
        · refine absurd (all '.' ?_) (by decide)
          rw [chars, fraction]
          exact mem_append_right _ mem_cons_self

end IsRun

/-! ### Texts that cannot be cut -/

/-- What a text that begins with a character cannot be cut for. -/
inductive FailsAt (c : Char) (rest : List Char) : LexFailure → Prop
  /-- A string is not closed, and the text ends behind a backslash that is not marked itself. -/
  | openEscape {letters : List Letter} : c = '"' ∨ c = '\'' →
    rest = letters.flatMap Letter.chars ++ ['\\'] →
    (∀ x, .plain x ∈ letters → x ≠ c ∧ x ≠ '\\') → FailsAt c rest .openEscape
  | numeral {run after : List Char} {failure : LexFailure} : isDigit c = true →
    c :: rest = run ++ after → IsRun run after → IsRefused run failure → FailsAt c rest failure

theorem numberPiece_eq_error_iff {c : Char} {rest run after : List Char} {failure : LexFailure}
    (digit : isDigit c = true) (whole : c :: rest = run ++ after) (isRun : IsRun run after) :
    numberPiece c rest = .error failure ↔ IsRefused run failure := by
  have begins : run.head?.any isDigit = true := by
    have first : (run ++ after).head?.any isDigit = true := by
      rw [← whole]
      exact digit
    cases isRun with
    | whole _ stops =>
      cases run with
      | nil => exact absurd (first.symm.trans stops) (by decide)
      | cons => exact first
    | @pointed front => cases front <;> exact first
  rw [← isRun.numeralValue_eq_error_iff begins, numberPiece, whole, isRun.numeral_eq]
  constructor
  · exact map_eq_error
  · intro failed
    dsimp only
    rw [failed]
    rfl

theorem piece_eq_error_iff {before rest : List Char} {c : Char} {failure : LexFailure} :
    piece before c rest = .error failure ↔ FailsAt c rest failure := by
  constructor
  · intro failed
    have told := tells_opening c
    rw [piece] at failed
    generalize opening c = result at failed told
    cases result with
    | string =>
      obtain ⟨rfl, letters, same, apart⟩ := stringBody_eq_error_iff.mp (map_eq_error failed)
      exact .openEscape (by simpa [Opening.Tells] using told) same apart
    | number =>
      obtain ⟨run, after, whole, isRun⟩ := IsRun.exists_isRun (c :: rest)
      exact .numeral told whole isRun ((numberPiece_eq_error_iff told whole isRun).mp failed)
    | _ => cases failed
  · rintro (⟨isQuote, same, apart⟩ | ⟨digit, whole, isRun, refused⟩)
    · have opens : opening c = .string := by rcases isQuote with rfl | rfl <;> decide
      rw [piece, opens]
      exact congrArg (Except.map _) (stringBody_eq_error_iff.mpr ⟨rfl, _, same, apart⟩)
    · rw [piece_digit digit]
      exact (numberPiece_eq_error_iff digit whole isRun).mpr refused

/-- A place in a text: what stands before it, nearest first, and what follows it. Cutting a piece
leads to the next one. -/
inductive CutsTo : List Char × List Char → List Char × List Char → Prop
  | piece {before rest : List Char} {c : Char} {found : Piece} :
    piece before c rest = .ok found →
      CutsTo (before, c :: rest)
        ((c :: rest.take found.extent).reverse ++ before, rest.drop found.extent)

theorem scan_eq_error_iff {before cs : List Char} {place : Place} {failure : LexFailure} :
    scan before place cs = .error failure ↔ ∃ around c rest,
      Relation.ReflTransGen CutsTo (before, cs) (around, c :: rest) ∧ FailsAt c rest failure := by
  induction cs using piecewise generalizing before place with
  | nil =>
    rw [scan_nil]
    constructor
    · rintro ⟨⟩
    · rintro ⟨around, c, rest, reaches, _⟩
      rcases reaches.cases_head with same | ⟨_, ⟨⟩, _⟩
      cases same
  | cons c rest ih =>
    cases next : piece before c rest with
    | error other =>
      rw [scan_of_failure next]
      constructor
      · rintro ⟨⟩
        exact ⟨before, c, rest, .refl, piece_eq_error_iff.mp next⟩
      · rintro ⟨around, d, others, reaches, fails⟩
        rcases reaches.cases_head with same | ⟨_, ⟨found⟩, _⟩
        · cases same
          exact congrArg Except.error
            (Except.error.inj (next.symm.trans (piece_eq_error_iff.mpr fails)))
        · cases next.symm.trans found
    | ok found =>
      rw [scan_of_piece next]
      constructor
      · intro failed
        obtain ⟨around, d, others, reaches, fails⟩ := (ih _).mp (map_eq_error failed)
        exact ⟨around, d, others, .head (.piece next) reaches, fails⟩
      · rintro ⟨around, d, others, reaches, fails⟩
        rcases reaches.cases_head with same | ⟨_, ⟨foundToo⟩, later⟩
        · cases same
          cases next.symm.trans (piece_eq_error_iff.mpr fails)
        · cases next.symm.trans foundToo
          rw [(ih _).mpr ⟨around, d, others, later, fails⟩]
          rfl

/-- Cutting a text fails exactly if it comes to a string or to digits that cannot be read; otherwise
there are lexemes, and the end of the text is the last of them and no other. -/
theorem lexing_fails_iff_it_comes_to_a_bad_literal (text : String) :
    let fails (failure : LexFailure) := ∃ before c rest,
      Relation.ReflTransGen CutsTo ([], text.toList) (before, c :: rest) ∧ FailsAt c rest failure
    (∀ failure, lex text = .error failure ↔ fails failure) ∧
      ((∀ failure, ¬ fails failure) → ∃ body last, lex text = .ok (body ++ [last]) ∧
        last.token = .symbol .endOfText ∧
        ∀ lexeme ∈ body, lexeme.token ≠ .symbol .endOfText) := by
  intro fails
  have failure (failure : LexFailure) : lex text = .error failure ↔ fails failure :=
    scan_eq_error_iff
  refine ⟨failure, fun none => ?_⟩
  cases read : lex text with
  | error cause => exact absurd ((failure cause).mp read) (none cause)
  | ok lexemes =>
    have cut : tokensFrom [] text.toList = .ok (lexemes.map Lexeme.token) :=
      congrArg (Except.map (List.map Lexeme.token)) read
    obtain ⟨body, split, absent⟩ := exists_of_tokensFrom cut
    obtain ⟨first, rest, rfl, rfl, ended⟩ := map_eq_append_iff.mp split
    obtain ⟨last, rfl, same⟩ := map_eq_singleton_iff.mp ended
    exact ⟨first, last, rfl, same, fun lexeme member ends => absent (ends ▸ mem_map_of_mem member)⟩

end Parlance
