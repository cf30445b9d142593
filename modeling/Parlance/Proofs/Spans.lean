import Parlance.Proofs.LineTokens

/-!
Where lexemes stand in their text. Each lexeme but the last is read from a part of the text of its
own; the parts follow one another, and what lies between them is blank, a comment or means nothing.
-/

namespace Parlance

open List

/-! ### Spans -/

/-- A part of a text, from the code point at `start` to the one before `stop`. -/
structure Span where
  start : Nat
  stop : Nat
  nonempty : start < stop

instance : Membership Nat Span := ⟨fun span index => span.start ≤ index ∧ index < span.stop⟩

instance (index : Nat) (span : Span) : Decidable (index ∈ span) :=
  inferInstanceAs (Decidable (span.start ≤ index ∧ index < span.stop))

/-- A lexeme and the part of the text that it is read from. -/
structure Located where
  lexeme : Lexeme
  span : Span

/-- Whether a code point belongs to no lexeme. -/
def IsOutside (located : List Located) (index : Nat) : Prop := ∀ item ∈ located, index ∉ item.span

def Token.isString : Token → Bool
  | .string _ => true
  | _ => false

/-- Whether a code point is part of a comment that begins at an index or later: from a `#` up to it
there is no line end, and nothing that belongs to a lexeme. -/
def IsInComment (text : List Char) (begin : Nat) (located : List Located) (index : Nat) : Prop :=
  ∃ sharp, begin ≤ sharp ∧ sharp ≤ index ∧ text[sharp]? = some '#' ∧
    ∀ between, sharp ≤ between → between ≤ index →
      text[between]? ≠ some '\n' ∧ IsOutside located between

/-- Whether a character neither begins a token nor ends a line. -/
def isMeaningless (c : Char) : Bool :=
  c ∉ ['\n', '"', '\'', '.', '[', ']', ',', '_'] && !Text.isDigit c && !Text.isLetter c

/-- The column of a code point: one more than the code points since the last line end. -/
def columnAt (text : List Char) (index : Nat) : Nat :=
  1 + ((text.take index).reverse.takeWhile (· ≠ '\n')).length

/-- Whether lexemes partition a text from an index on: the located ones, and one more for its end. -/
structure Partition (text : List Char) (begin : Nat) (located : List Located) (last : Lexeme) :
    Prop where
  last_token : last.token = .symbol .endOfText
  last_column : last.place.column = columnAt text text.length
  token_ne : ∀ item ∈ located, item.lexeme.token ≠ .symbol .endOfText
  within : ∀ item ∈ located, begin ≤ item.span.start ∧ item.span.stop ≤ text.length
  increasing : located.Pairwise fun first second => first.span.stop ≤ second.span.start
  column : ∀ item ∈ located, item.lexeme.place.column = columnAt text item.span.start
  between : ∀ index c, begin ≤ index → text[index]? = some c → IsOutside located index →
    c ∈ [' ', '\t', '\r', '='] ∨ IsInComment text begin located index ∨ isMeaningless c = true
  newline_span : ∀ item ∈ located, item.lexeme.token = .symbol .newline →
    item.span.stop = item.span.start + 1
  newline_iff : ∀ index, begin ≤ index →
    ((∃ item ∈ located, item.lexeme.token = .symbol .newline ∧ item.span.start = index) ↔
      text[index]? = some '\n' ∧
        ∀ item ∈ located, item.lexeme.token.isString = true → index ∉ item.span)

namespace Partition

variable {text : List Char} {begin next : Nat} {located : List Located} {last : Lexeme}

theorem notMem_of_lt (later : Partition text next located last) {index : Nat}
    (before : index < next) : IsOutside located index :=
  fun item member inside => absurd (later.within item member).1 (by have := inside.1; omega)

/-- A piece that is passed over. -/
theorem pass (later : Partition text next located last) (step : begin ≤ next)
    (inLine : ∀ index, begin ≤ index → index < next → text[index]? ≠ some '\n')
    (idle : text[begin]? = some '#' ∨ ∀ index c, begin ≤ index → index < next →
      text[index]? = some c → c ∈ [' ', '\t', '\r', '='] ∨ isMeaningless c = true) :
    Partition text begin located last where
  last_token := later.last_token
  last_column := later.last_column
  token_ne := later.token_ne
  within item member := ⟨Nat.le_trans step (later.within item member).1, (later.within item member).2⟩
  increasing := later.increasing
  column := later.column
  newline_span := later.newline_span
  between := by
    intro index c low found outside
    rcases Nat.lt_or_ge index next with here | there
    · rcases idle with sharp | plain
      · refine .inr (.inl ⟨begin, Nat.le_refl _, low, sharp, fun middle above below => ?_⟩)
        exact ⟨inLine middle above (by omega), later.notMem_of_lt (by omega)⟩
      · rcases plain index c low here found with blank | meaningless
        · exact .inl blank
        · exact .inr (.inr meaningless)
    · rcases later.between index c there found outside with blank | comment | meaningless
      · exact .inl blank
      · obtain ⟨sharp, above, line⟩ := comment
        exact .inr (.inl ⟨sharp, Nat.le_trans step above, line⟩)
      · exact .inr (.inr meaningless)
  newline_iff := by
    intro index low
    rcases Nat.lt_or_ge index next with here | there
    · refine iff_of_false ?_ fun both => inLine index low here both.1
      rintro ⟨item, member, _, rfl⟩
      exact absurd (later.within item member).1 (by omega)
    · exact later.newline_iff index there

/-- What the lexeme of a piece must be, so that line ends are lexemes. -/
structure Accounts (text : List Char) (item : Located) : Prop where
  token_ne : item.lexeme.token ≠ .symbol .endOfText
  within : item.span.stop ≤ text.length
  column : item.lexeme.place.column = columnAt text item.span.start
  newline_span : item.lexeme.token = .symbol .newline → item.span.stop = item.span.start + 1
  newline_iff : ∀ index ∈ item.span, item.lexeme.token.isString = false →
    (item.lexeme.token = .symbol .newline ↔ text[index]? = some '\n')

/-- A piece that is a token. -/
theorem place {item : Located} (later : Partition text item.span.stop located last)
    (accounts : Accounts text item) :
    Partition text item.span.start (item :: located) last where
  last_token := later.last_token
  last_column := later.last_column
  token_ne := forall_mem_cons.mpr ⟨accounts.token_ne, later.token_ne⟩
  within := by
    refine forall_mem_cons.mpr ⟨⟨Nat.le_refl _, accounts.within⟩, fun other member => ?_⟩
    have bounds := later.within other member
    have := item.span.nonempty
    exact ⟨by omega, bounds.2⟩
  increasing :=
    pairwise_cons.mpr ⟨fun other member => (later.within other member).1, later.increasing⟩
  column := forall_mem_cons.mpr ⟨accounts.column, later.column⟩
  newline_span := forall_mem_cons.mpr ⟨accounts.newline_span, later.newline_span⟩
  between := by
    intro index c low found outside
    obtain ⟨notHere, notLater⟩ := forall_mem_cons.mp outside
    have there : item.span.stop ≤ index := Nat.le_of_not_lt fun short => notHere ⟨low, short⟩
    rcases later.between index c there found notLater with blank | comment | meaningless
    · exact .inl blank
    · obtain ⟨sharp, above, below, mark, line⟩ := comment
      have nonempty := item.span.nonempty
      refine .inr (.inl ⟨sharp, by omega, below, mark, fun middle first second => ?_⟩)
      refine ⟨(line middle first second).1, forall_mem_cons.mpr ⟨fun inside => ?_, ?_⟩⟩
      · exact absurd inside.2 (by omega)
      · exact (line middle first second).2
    · exact .inr (.inr meaningless)
  newline_iff := by
    intro index low
    rcases Nat.lt_or_ge index item.span.stop with here | there
    · have inside : index ∈ item.span := ⟨low, here⟩
      constructor
      · rintro ⟨other, member, ends, rfl⟩
        rcases mem_cons.mp member with rfl | among
        · have plain : other.lexeme.token.isString = false := by rw [ends]; rfl
          refine ⟨(accounts.newline_iff _ inside plain).mp ends, forall_mem_cons.mpr ⟨?_, ?_⟩⟩
          · exact fun string => absurd string (by rw [plain]; exact Bool.false_ne_true)
          · exact fun other member _ => later.notMem_of_lt here other member
        · exact absurd (later.within other among).1 (by omega)
      · rintro ⟨ended, strings⟩
        have plain : item.lexeme.token.isString = false :=
          Bool.eq_false_iff.mpr fun string => strings item mem_cons_self string inside
        have ends := (accounts.newline_iff index inside plain).mpr ended
        have single := accounts.newline_span ends
        exact ⟨item, mem_cons_self, ends, by omega⟩
    · have apart : index ∉ item.span := fun inside => absurd inside.2 (by omega)
      constructor
      · rintro ⟨other, member, ends, rfl⟩
        rcases mem_cons.mp member with rfl | among
        · have := other.span.nonempty
          omega
        · obtain ⟨ended, strings⟩ := (later.newline_iff _ there).mp ⟨other, among, ends, rfl⟩
          exact ⟨ended, forall_mem_cons.mpr ⟨fun _ => apart, strings⟩⟩
      · rintro ⟨ended, strings⟩
        obtain ⟨_, others⟩ := forall_mem_cons.mp strings
        obtain ⟨other, among, ends⟩ := (later.newline_iff index there).mpr ⟨ended, others⟩
        exact ⟨other, mem_cons_of_mem _ among, ends⟩

end Partition

/-! ### Columns -/

namespace Lexer

variable {place : Place} {before rest : List Char} {c : Char} {found : Piece}
  {lexemes : List Lexeme}

/-- The column after characters counts them from the last line end on. -/
theorem column_foldl_after (cs before : List Char)
    (column : place.column = 1 + (before.takeWhile (· ≠ '\n')).length) :
    (cs.foldl Place.after place).column =
      1 + ((cs.reverse ++ before).takeWhile (· ≠ '\n')).length := by
  induction cs generalizing before place with
  | nil => exact column
  | cons c rest ih =>
    have here : (place.after c).column = 1 + ((c :: before).takeWhile (· ≠ '\n')).length := by
      by_cases ended : c = '\n'
      · rw [Place.after, if_pos ended, takeWhile_cons_of_neg (by simpa using ended)]
        rfl
      · rw [Place.after, if_neg ended, takeWhile_cons_of_pos (by simpa using ended), column]
        rfl
    rw [foldl_cons, ih (c :: before) here, reverse_cons, append_assoc]
    rfl

/-- Pieces end where their characters do; a further line does not change the column. -/
theorem column_placeAfter (piece : Piece) (place : Place) (taken : List Char) :
    (piece.placeAfter place taken).column = (taken.foldl Place.after place).column := by
  unfold Piece.placeAfter
  dsimp only
  split <;> rfl

theorem column_lexeme {piece : Piece} {reached : Place} {lexeme : Lexeme}
    (found : piece.lexeme? place reached = some lexeme) :
    lexeme.place.column = place.column ∧ piece.token? = some lexeme.token := by
  obtain ⟨token, same, rfl⟩ := Option.map_eq_some_iff.mp found
  rw [same]
  split <;> exact ⟨rfl, rfl⟩

/-! ### Pieces -/

/-- A piece that is no string does not reach beyond the end of its line. -/
theorem extent_le_of_newline {others more : List Char} (plain : opening c ≠ .string)
    (next : piece before c (others ++ '\n' :: more) = .ok found) :
    found.extent ≤ others.length := by
  have closes : (c = '"' || c = '\'') = true → closesString c others = true := by
    intro quote
    refine absurd ?_ plain
    simp only [Bool.or_eq_true, decide_eq_true_eq] at quote
    rcases quote with rfl | rfl <;> decide
  obtain ⟨alone, reads⟩ : ∃ alone, piece before c others = .ok alone := by
    rw [piece] at next ⊢
    cases begins : opening c with
    | string => exact absurd begins plain
    | number =>
      rw [begins] at next
      refine ⟨found, ?_⟩
      dsimp only at next ⊢
      rwa [numberPiece, ← cons_append, numeral_append_newline] at next
    | _ => exact ⟨_, rfl⟩
  obtain ⟨whole, same, _, extent⟩ := piece_append_newline closes reads more
  obtain rfl : whole = found := Except.ok.inj (same.symm.trans next)
  rw [extent]
  exact extent_piece_le reads

/-- The characters of a piece that begins neither a string nor a line end are on one line. -/
theorem newline_notMem_piece (next : piece before c rest = .ok found) (plain : opening c ≠ .string)
    (here : c ≠ '\n') : '\n' ∉ c :: rest.take found.extent := by
  refine not_mem_cons_of_ne_of_not_mem (Ne.symm here) fun member => ?_
  obtain ⟨others, more, rfl, first⟩ :=
    eq_append_cons_of_mem (mem_of_mem_take member)
  rw [take_append_of_le_length (extent_le_of_newline plain next)] at member
  exact first (mem_of_mem_take member)

/-- A piece that is passed over is on one line, and is a comment or one character. -/
theorem piece_passed (next : piece before c rest = .ok found) (passed : found.token? = none) :
    '\n' ∉ c :: rest.take found.extent ∧
      (c = '#' ∨ found.extent = 0 ∧ (c ∈ [' ', '\t', '\r', '='] ∨ isMeaningless c = true)) := by
  have told := tells_opening c
  have line := newline_notMem_piece next
  rw [piece] at next
  generalize opening c = begun at told line next
  cases begun with
  | blank =>
    cases next
    have blank : c ≠ '\n' ∧ c ∈ [' ', '\t', '\r', '='] := by
      simp only [Opening.Tells, mem_cons, not_mem_nil, or_false] at told
      rcases told with rfl | rfl | rfl <;> decide
    exact ⟨line (by rintro ⟨⟩) blank.1, .inr ⟨rfl, .inl blank.2⟩⟩
  | other =>
    cases next
    obtain ⟨marks, digit, letter⟩ := told
    have meaningless : isMeaningless c = true := by
      simp only [isMeaningless, marks, digit, letter, not_false_eq_true, decide_true, Bool.not_false,
        Bool.and_self]
    have here : c ≠ '\n' := fun same => marks (same ▸ mem_cons_self)
    exact ⟨line (by rintro ⟨⟩) here, .inr ⟨rfl, .inr meaningless⟩⟩
  | comment =>
    obtain rfl : c = '#' := told
    exact ⟨line (by rintro ⟨⟩) (by decide), .inl rfl⟩
  | mark sign =>
    cases next
    cases passed
  | number | string =>
    obtain ⟨_, _, rfl⟩ := map_eq_ok next
    cases passed
  | word =>
    cases next
    exact absurd passed (token_wordPiece_ne_none _ _ _ _)

/-- A piece that is a token, but no string, is a line end or is on one line. -/
theorem piece_taken {token : Token} (next : piece before c rest = .ok found)
    (means : found.token? = some token) (plain : token.isString = false) :
    (token = .symbol .newline ∧ c = '\n' ∧ found.extent = 0) ∨
      (token ≠ .symbol .newline ∧ '\n' ∉ c :: rest.take found.extent) := by
  have told := tells_opening c
  have line := newline_notMem_piece next
  rw [piece] at next
  generalize opening c = begun at told line next
  cases begun with
  | blank | other | comment =>
    cases next
    cases means
  | string =>
    obtain ⟨body, _, rfl⟩ := map_eq_ok next
    cases means
    cases plain
  | mark sign =>
    cases next
    cases means
    rcases mem_cons.mp told with ended | other
    · cases ended
      exact .inl ⟨rfl, rfl, rfl⟩
    · have apart : marks.tail.all (fun mark => mark.1 ≠ '\n' ∧ mark.2 ≠ .newline) = true := by decide
      obtain ⟨here, sign⟩ := of_decide_eq_true (all_eq_true.mp apart _ other)
      exact .inr ⟨fun same => sign (Token.symbol.inj same), line (by rintro ⟨⟩) here⟩
  | number =>
    obtain ⟨value, _, rfl⟩ := map_eq_ok next
    cases means
    have here : c ≠ '\n' := by rintro rfl; cases told
    exact .inr ⟨by rintro ⟨⟩, line (by rintro ⟨⟩) here⟩
  | word =>
    cases next
    have here : c ≠ '\n' := by rintro rfl; cases told
    refine .inr ⟨?_, line (by rintro ⟨⟩) here⟩
    rintro rfl
    exact absurd (mem_wordSymbols_of_token_wordPiece means) (by decide)

/-! ### The text -/

theorem columnAt_length (before cs : List Char) :
    columnAt (before.reverse ++ cs) before.length = 1 + (before.takeWhile (· ≠ '\n')).length := by
  rw [columnAt, take_left' length_reverse, reverse_reverse]

/-- What stands at an index inside a part of a text is in the part. -/
theorem mem_of_getElem? {taken after : List Char} {index : Nat} (low : before.length ≤ index)
    (high : index < before.length + taken.length)
    (found : (before.reverse ++ (taken ++ after))[index]? = some c) : c ∈ taken := by
  rw [List.getElem?_append_right (by rwa [length_reverse]), length_reverse,
    List.getElem?_append_left (by omega)] at found
  exact List.mem_of_getElem? found

theorem scan_cons (read : scan before place (c :: rest) = .ok lexemes) :
    ∃ found later, piece before c rest = .ok found ∧
      scan ((c :: rest.take found.extent).reverse ++ before)
        (found.placeAfter place (c :: rest.take found.extent)) (rest.drop found.extent) =
          .ok later ∧
      lexemes = (found.lexeme? place
        (found.placeAfter place (c :: rest.take found.extent))).toList ++ later := by
  cases next : piece before c rest with
  | error failure =>
    rw [scan_of_failure next] at read
    cases read
  | ok found =>
    rw [scan_of_piece next] at read
    cases rest : scan ((c :: rest.take found.extent).reverse ++ before)
        (found.placeAfter place (c :: rest.take found.extent)) (rest.drop found.extent) with
    | error failure =>
      rw [rest] at read
      cases read
    | ok later =>
      rw [rest] at read
      exact ⟨found, later, rfl, rest, (Except.ok.inj read).symm⟩

/-- The end of the text. -/
theorem partition_nil (before : List Char)
    (column : place.column = 1 + (before.takeWhile (· ≠ '\n')).length) :
    Partition before.reverse before.length [] ⟨.symbol .endOfText, place⟩ := by
  have beyond {index : Nat} (low : before.length ≤ index) : before.reverse[index]? = none :=
    List.getElem?_eq_none (by rwa [length_reverse])
  have none {holds : Located → Prop} : ∀ item ∈ [], holds item := forall_mem_nil _
  refine ⟨rfl, ?_, none, none, .nil, none, fun index c low found => ?_, none, fun index low => ?_⟩
  · have atEnd := columnAt_length before []
    rw [append_nil] at atEnd
    rw [length_reverse, atEnd]
    exact column
  · cases (beyond low).symm.trans found
  · refine iff_of_false ?_ fun both => ?_
    · rintro ⟨item, member, _⟩
      cases member
    · cases (beyond low).symm.trans both.1

/-- A piece in front of what is partitioned already. -/
theorem partition_cons {located : List Located} {last : Lexeme}
    (column : place.column = 1 + (before.takeWhile (· ≠ '\n')).length)
    (next : piece before c rest = .ok found) (later : Partition (before.reverse ++ c :: rest)
      (before.length + (c :: rest.take found.extent).length) located last) (reached : Place) :
    ∃ here, (found.lexeme? place reached).toList = here.map Located.lexeme ∧
      Partition (before.reverse ++ c :: rest) before.length (here ++ located) last := by
  have whole : c :: rest = (c :: rest.take found.extent) ++ rest.drop found.extent := by
    rw [cons_append, take_append_drop]
  have first : (before.reverse ++ c :: rest)[before.length]? = some c := by
    rw [List.getElem?_append_right (by rw [length_reverse]), length_reverse, Nat.sub_self]
    rfl
  have inside {index : Nat} {x : Char} (low : before.length ≤ index)
      (high : index < before.length + (c :: rest.take found.extent).length)
      (same : (before.reverse ++ c :: rest)[index]? = some x) : x ∈ c :: rest.take found.extent := by
    rw [whole] at same
    exact mem_of_getElem? low high same
  cases means : found.lexeme? place reached with
  | none =>
    obtain ⟨inLine, idle⟩ := piece_passed next (Option.map_eq_none_iff.mp means)
    refine ⟨[], rfl, later.pass (Nat.le_add_right _ _) (fun index low high ended => ?_) ?_⟩
    · exact inLine (inside low high ended)
    · rcases idle with sharp | ⟨single, plain⟩
      · exact .inl (sharp ▸ first)
      · refine .inr fun index x low high same => ?_
        have member := inside low high same
        rw [single] at member
        obtain rfl := mem_singleton.mp member
        exact plain
  | some lexeme =>
    obtain ⟨sameColumn, token⟩ := column_lexeme means
    let item : Located := ⟨lexeme, before.length,
      before.length + (c :: rest.take found.extent).length, by simp⟩
    suffices accounts : Partition.Accounts (before.reverse ++ c :: rest) item from
      ⟨[item], rfl, @Partition.place _ _ _ item later accounts⟩
    refine ⟨fun ended => ?_, ?_, ?_, fun ended => ?_, fun index member plain => ?_⟩
    · exact token_piece_ne next (token.trans (congrArg some ended))
    · rw [length_append, length_reverse]
      exact Nat.add_le_add_left (Nat.succ_le_succ (take_sublist _ _).length_le) _
    · exact sameColumn.trans (column.trans (columnAt_length before _).symm)
    · rcases piece_taken next token (by rw [ended]; rfl) with ⟨_, _, single⟩ | ⟨other, _⟩
      · show before.length + (c :: rest.take found.extent).length = before.length + 1
        rw [single]
        rfl
      · exact absurd ended other
    · rcases piece_taken next token plain with ⟨ended, rfl, single⟩ | ⟨other, inLine⟩
      · refine iff_of_true ended ?_
        obtain rfl : index = before.length := by
          have high := member.2
          have low := member.1
          simp only [item, single, take_zero, length_cons, length_nil] at high low
          omega
        exact first
      · exact iff_of_false other fun same => inLine (inside member.1 member.2 same)

/-- The lexemes of a text partition it from the place on where scanning begins. -/
theorem exists_partition {cs : List Char}
    (column : place.column = 1 + (before.takeWhile (· ≠ '\n')).length)
    (read : scan before place cs = .ok lexemes) :
    ∃ located last, lexemes = located.map Located.lexeme ++ [last] ∧
      Partition (before.reverse ++ cs) before.length located last := by
  induction cs using piecewise generalizing before place lexemes with
  | nil =>
    rw [scan_nil] at read
    cases read
    rw [append_nil]
    exact ⟨[], _, rfl, partition_nil before column⟩
  | cons c rest ih =>
    obtain ⟨found, later, next, others, rfl⟩ := scan_cons read
    have columnLater : (found.placeAfter place (c :: rest.take found.extent)).column =
        1 + (((c :: rest.take found.extent).reverse ++ before).takeWhile (· ≠ '\n')).length := by
      rw [column_placeAfter, column_foldl_after _ _ column]
    obtain ⟨located, last, rfl, partition⟩ := ih _ columnLater others
    have whole : ((c :: rest.take found.extent).reverse ++ before).reverse ++
        rest.drop found.extent = before.reverse ++ c :: rest := by
      rw [reverse_append, reverse_reverse, append_assoc, cons_append, take_append_drop]
    rw [whole, length_append, length_reverse, Nat.add_comm] at partition
    obtain ⟨here, same, placed⟩ := partition_cons column next partition
      (found.placeAfter place (c :: rest.take found.extent))
    refine ⟨here ++ located, last, ?_, placed⟩
    rw [same, map_append, append_assoc]

end Lexer

/-- The lexemes of a text but the last are read from parts of the text of their own, in order. What
lies outside them is blank, a comment or means nothing, the line ends outside strings are lexemes,
and the columns are those where the parts begin. -/
theorem lexemes_partition_text {text : String} {lexemes : List Lexeme}
    (read : lex text = .ok lexemes) :
    ∃ located last, lexemes = located.map Located.lexeme ++ [last] ∧
      Partition text.toList 0 located last :=
  Lexer.exists_partition rfl read

theorem lexemes_partition_text_over_lines :
    let text := "a = '\n' # b\n"
    let lexemes : List Lexeme := [⟨.identifier "a", 1, 1⟩, ⟨.string "\n", 2, 5⟩,
      ⟨.symbol .newline, 2, 6⟩, ⟨.symbol .endOfText, 3, 1⟩]
    lex text = .ok lexemes ∧ ∃ located last, lexemes = located.map Located.lexeme ++ [last] ∧
      Partition text.toList 0 located last := by
  intro text lexemes
  have read : lex text = .ok lexemes := by decide +kernel
  exact ⟨read, lexemes_partition_text read⟩

end Parlance
