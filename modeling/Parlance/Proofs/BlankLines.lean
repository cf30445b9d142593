import Parlance.Proofs.Abreast

/-!
Blank lines mean nothing. Tokens that differ only in how many line ends stand where there is one are
read alike: as the same program, with the same failure, or with a stall in both.
-/

namespace Parlance

/-! ### Line ends -/

/-- The tokens with a single line end in the place of every run of line ends. -/
def squeeze : List Token → List Token
  | [] => []
  | token :: rest =>
    if token.isNewline && rest.head?.any Token.isNewline then squeeze rest
    else token :: squeeze rest

example : squeeze [.symbol .newline, .symbol .newline, .identifier "x", .symbol .newline] =
    [.symbol .newline, .identifier "x", .symbol .newline] := rfl

theorem squeeze_word {token : Token} (word : token.isNewline = false) (rest : List Token) :
    squeeze (token :: rest) = token :: squeeze rest := by
  rw [squeeze, word]
  rfl

/-- What follows a line end counts from the first token that is none. -/
theorem squeeze_newline (rest : List Token) : squeeze (.symbol .newline :: rest) =
      .symbol .newline :: squeeze (Parse.afterNewlines rest) := by
  induction rest with
  | nil => rfl
  | cons token rest ih =>
    cases newline : token.isNewline with
    | true =>
      obtain rfl := Token.eq_newline newline
      exact ih
    | false =>
      rw [Parse.afterNewlines_word newline, squeeze, List.head?_cons, Option.any_some, newline,
        Bool.and_false]
      rfl

variable (tokens : List Token)

theorem head?_squeeze : (squeeze tokens).head? = tokens.head? := by
  cases tokens with
  | nil => rfl
  | cons token rest =>
    cases newline : token.isNewline with
    | true =>
      obtain rfl := Token.eq_newline newline
      rw [squeeze_newline]
      rfl
    | false =>
      rw [squeeze_word newline]
      rfl

theorem wordsAhead_squeeze : wordsAhead (squeeze tokens) = wordsAhead tokens := by
  induction tokens with
  | nil => rfl
  | cons token rest ih =>
    rw [squeeze]
    split
    · rename_i both
      obtain rfl := Token.eq_newline (Bool.and_eq_true_iff.mp both).1
      exact ih
    · rw [wordsAhead_cons, wordsAhead_cons, ih]

/-! ### Tokens on the same lines -/

/-- Whether two lists of tokens differ in blank lines only. -/
def SameLines (tokens others : List Token) : Prop := squeeze tokens = squeeze others

namespace SameLines

variable {tokens others : List Token}

/-- The same token comes first in both. -/
theorem head_eq (same : SameLines tokens others) : tokens.head? = others.head? := by
  rw [← head?_squeeze tokens, ← head?_squeeze others, same]

theorem eq_nil (same : SameLines [] others) : others = [] :=
  List.head?_eq_none_iff.mp same.head_eq.symm

theorem exists_cons {token : Token} {rest : List Token} (same : SameLines (token :: rest) others) :
    ∃ left, others = token :: left :=
  List.head?_eq_some_iff.mp same.head_eq.symm

theorem afterNewlines (same : SameLines tokens others) :
    SameLines (Parse.afterNewlines tokens) (Parse.afterNewlines others) := by
  cases tokens with
  | nil =>
    rw [same.eq_nil]
    rfl
  | cons token rest =>
    obtain ⟨left, rfl⟩ := same.exists_cons
    cases newline : token.isNewline with
    | true =>
      obtain rfl := Token.eq_newline newline
      rw [SameLines, squeeze_newline, squeeze_newline] at same
      exact List.tail_eq_of_cons_eq same
    | false =>
      rw [Parse.afterNewlines_word newline, Parse.afterNewlines_word newline]
      exact same

end SameLines

/-- Readers cannot tell how many line ends stand where there is one. -/
theorem parallel_sameLines : Parallel SameLines where
  head_eq := SameLines.head_eq
  tail word same := by
    have word := Token.isNewline_of_word word
    rw [SameLines, squeeze_word word, squeeze_word word] at same
    exact List.tail_eq_of_cons_eq same
  afterNewlines := SameLines.afterNewlines
  wordsAhead_eq same := by
    rw [← wordsAhead_squeeze, same, wordsAhead_squeeze]

theorem SameLines.parse_eq {tokens others : List Token} (same : SameLines tokens others) :
    parse tokens = parse others := by
  have read := parallel_sameLines.parse Parse.silent same
  rw [parseWatched_silent] at read
  rcases read with ⟨_, first, second⟩ | ⟨_, first, second⟩ | ⟨first, _, _, _, second⟩
  all_goals exact first.trans second.symm

theorem sameLines_squeeze : SameLines (squeeze tokens) tokens := by
  induction tokens with
  | nil => rfl
  | cons token rest ih =>
    rw [SameLines, squeeze]
    split
    · exact ih
    · rename_i apart
      rw [← head?_squeeze] at apart
      rw [squeeze, if_neg apart, ih]

/-- Blank lines mean nothing: with a single line end in the place of every run of line ends, tokens
are read as the same program, fail with the same error or stall as well. -/
theorem parse_squeeze (tokens : List Token) : parse (squeeze tokens) = parse tokens :=
  (sameLines_squeeze tokens).parse_eq

end Parlance
