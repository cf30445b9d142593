import Mathlib.Data.List.Nodup
import Mathlib.Data.List.TakeWhile
import Parlance.Package
import Parlance.Proofs.Scanning

/-!
Manifests that are written and read again. A text keeps its characters unless it has a double quote
at one of its ends, and an item of a list that can be read back without a backslash is the item that
was written.
-/

namespace Parlance

open List Table

/-! ### Texts without something at their ends -/

namespace Text

/-- Whether neither end of a text satisfies a test. -/
def IsTrimmed (test : Char → Bool) (cs : List Char) : Prop :=
  cs.head?.any test = false ∧ cs.getLast?.any test = false

variable {test : Char → Bool} {cs : List Char} {c : Char}

theorem dropWhile_of_head? (ends : cs.head?.any test = false) : cs.dropWhile test = cs := by
  cases cs with
  | nil => rfl
  | cons c rest => exact dropWhile_cons_of_neg (Bool.eq_false_iff.mp ends)

theorem any_head?_dropWhile (test : Char → Bool) (cs : List Char) :
    (cs.dropWhile test).head?.any test = false := by
  induction cs with
  | nil => rfl
  | cons c rest ih =>
    rw [dropWhile_cons]
    split
    · exact ih
    · rename_i stops
      exact Bool.eq_false_iff.mpr stops

theorem trimBoth_of_isTrimmed (trimmed : IsTrimmed test cs) : trimBoth test cs = cs := by
  rw [trimBoth, dropWhile_of_head? trimmed.1, dropWhile_of_head?, reverse_reverse]
  rw [List.head?_reverse]
  exact trimmed.2

/-- What is taken away at either end satisfies the test. -/
theorem exists_trimBoth (test : Char → Bool) (cs : List Char) :
    ∃ front back, cs = front ++ trimBoth test cs ++ back ∧ (∀ c ∈ front, test c = true) ∧
      ∀ c ∈ back, test c = true := by
  refine ⟨cs.takeWhile test, ((cs.dropWhile test).reverse.takeWhile test).reverse, ?_,
    fun c member => mem_takeWhile_imp member,
    fun c member => mem_takeWhile_imp (mem_reverse.mp member)⟩
  rw [trimBoth, append_assoc, ← reverse_append, takeWhile_append_dropWhile,
    reverse_reverse, takeWhile_append_dropWhile]

theorem mem_of_mem_trimBoth (member : c ∈ trimBoth test cs) : c ∈ cs := by
  obtain ⟨front, back, whole, _⟩ := exists_trimBoth test cs
  rw [whole]
  exact mem_append_left _ (mem_append_right _ member)

theorem mem_trimBoth (kept : test c = false) (member : c ∈ cs) : c ∈ trimBoth test cs := by
  obtain ⟨front, back, whole, before, after⟩ := exists_trimBoth test cs
  rw [whole] at member
  rcases mem_append.mp member with member | member
  · rcases mem_append.mp member with member | member
    · cases (before c member).symm.trans kept
    · exact member
  · cases (after c member).symm.trans kept

theorem head?_trimBoth (ends : cs.head?.any test = false) :
    (trimBoth test cs).head? = cs.head? := by
  obtain ⟨front, back, whole, before, after⟩ := exists_trimBoth test cs
  cases front with
  | cons c rest =>
    rw [whole] at ends
    cases (before c mem_cons_self).symm.trans ends
  | nil =>
    cases kept : trimBoth test cs with
    | cons c rest =>
      rw [whole, kept]
      rfl
    | nil =>
      rw [kept] at whole
      cases back with
      | nil => rw [whole]; rfl
      | cons c rest =>
        rw [whole] at ends
        cases (after c mem_cons_self).symm.trans ends

theorem isTrimmed_trimBoth (test : Char → Bool) (cs : List Char) :
    IsTrimmed test (trimBoth test cs) := by
  have left : trimBoth test cs = trimBoth test (cs.dropWhile test) := by
    rw [trimBoth, trimBoth, dropWhile_of_head? (any_head?_dropWhile test cs)]
  refine ⟨?_, ?_⟩
  · rw [left, head?_trimBoth (any_head?_dropWhile test cs)]
    exact any_head?_dropWhile test cs
  · rw [trimBoth, List.getLast?_reverse]
    exact any_head?_dropWhile test _

theorem trimBoth_enclosed {first last : Char} (before : test first = false)
    (after : test last = false) (cs : List Char) :
    trimBoth test (first :: (cs ++ [last])) = first :: (cs ++ [last]) := by
  refine trimBoth_of_isTrimmed ⟨before, ?_⟩
  rw [← cons_append, List.getLast?_concat]
  exact after

/-- What satisfies the test at either end changes nothing. -/
theorem trimBoth_surrounded {front back : List Char} (before : ∀ c ∈ front, test c = true)
    (after : ∀ c ∈ back, test c = true) (cs : List Char) :
    trimBoth test (front ++ cs ++ back) = trimBoth test cs := by
  have gone : back.dropWhile test = [] := dropWhile_eq_nil_iff.mpr after
  have backward : ∀ c ∈ back.reverse, test c = true :=
    fun c member => after c (mem_reverse.mp member)
  rw [trimBoth, trimBoth, append_assoc, dropWhile_append_of_pos before, dropWhile_append, gone]
  split
  · rename_i nothing
    rw [isEmpty_iff.mp nothing]
  · rw [reverse_append, dropWhile_append_of_pos backward]

theorem trimBoth_between (mark : Char) (cs : List Char) :
    trimBoth (· = mark) (mark :: (cs ++ [mark])) = trimBoth (· = mark) cs :=
  @trimBoth_surrounded (· = mark) [mark] [mark] (by simp) (by simp) cs

theorem universalNewlines_of_notMem (none : '\r' ∉ cs) : universalNewlines cs = cs := by
  fun_induction universalNewlines cs with
  | case1 => rfl
  | case2 rest ih => exact absurd mem_cons_self none
  | case3 rest _ ih => exact absurd mem_cons_self none
  | case4 c rest _ _ ih =>
    rw [ih fun later => none (mem_cons_of_mem _ later)]

theorem notMem_universalNewlines (cs : List Char) : '\r' ∉ universalNewlines cs := by
  fun_induction universalNewlines cs with
  | case1 => exact not_mem_nil
  | case2 rest ih => simpa using ih
  | case3 rest _ ih => simpa using ih
  | case4 c rest _ other ih =>
    intro member
    rcases mem_cons.mp member with rfl | later
    · exact other rfl
    · exact ih later

end Text

/-! ### Quotes -/

namespace Text

/-- What characters that are escaped are written with. -/
def escapeLetters : List Char := "\\nrtxuU0123456789abcdef".toList

theorem mem_toDigits (number : Nat) : ∀ c ∈ Nat.toDigits 16 number, c ∈ escapeLetters := by
  induction number using Nat.strongRecOn with
  | _ number ih =>
    have digit (value : Nat) (small : value < 16) : value.digitChar ∈ escapeLetters := by
      have each : (List.range 16).all (fun value => escapeLetters.contains value.digitChar) =
          true := by decide
      exact contains_iff_mem.mp (all_eq_true.mp each value (mem_range.mpr small))
    rw [Nat.toDigits_eq_if (by decide)]
    split
    · rename_i small
      intro c member
      rw [mem_singleton.mp member]
      exact digit number small
    · rename_i large
      intro c member
      rcases mem_append.mp member with earlier | last
      · exact ih (number / 16) (by omega) c earlier
      · rw [mem_singleton.mp last]
        exact digit _ (Nat.mod_lt _ (by decide))

theorem mem_hexadecimal (width point : Nat) : ∀ c ∈ hexadecimal width point, c ∈ escapeLetters := by
  intro c member
  rcases mem_append.mp member with filling | digit
  · rw [eq_of_mem_replicate filling]
    decide
  · exact mem_toDigits point c digit

/-- A character between quotes is written as it is, or escaped. -/
theorem quotedChar_cases (quote c : Char) :
    quotedChar quote c = [c] ∧ c ≠ quote ∧ c ≠ '\n' ∧ c ≠ '\r' ∨
      ∃ rest, quotedChar quote c = '\\' :: rest ∧ rest ⊆ quote :: escapeLetters := by
  have letters {mark : Char} {others : List Char} (listed : escapeLetters.contains mark = true)
      (later : ∀ x ∈ others, x ∈ escapeLetters) : mark :: others ⊆ quote :: escapeLetters :=
    subset_cons_of_subset _ (cons_subset.mpr ⟨contains_iff_mem.mp listed, later⟩)
  rw [quotedChar]
  split
  · rename_i marked
    refine .inr ⟨_, rfl, ?_⟩
    rcases Bool.or_eq_true_iff.mp marked with same | same <;> rw [of_decide_eq_true same]
    · exact letters (by decide) (forall_mem_nil _)
    · exact cons_subset.mpr ⟨mem_cons_self, nil_subset _⟩
  rename_i unmarked
  split
  · exact .inr ⟨_, rfl, letters (by decide) (forall_mem_nil _)⟩
  rename_i noBreak
  split
  · exact .inr ⟨_, rfl, letters (by decide) (forall_mem_nil _)⟩
  rename_i noReturn
  split
  · exact .inr ⟨_, rfl, letters (by decide) (forall_mem_nil _)⟩
  split
  · refine .inl ⟨rfl, fun same => unmarked ?_, noBreak, noReturn⟩
    rw [decide_eq_true same, Bool.or_true]
  split
  · exact .inr ⟨_, rfl, letters (by decide) (mem_hexadecimal 2 c.toNat)⟩
  split
  · exact .inr ⟨_, rfl, letters (by decide) (mem_hexadecimal 4 c.toNat)⟩
  · exact .inr ⟨_, rfl, letters (by decide) (mem_hexadecimal 8 c.toNat)⟩

/-- Where nothing is escaped, everything is written as it is. -/
theorem flatMap_quotedChar {quote : Char} {cs : List Char}
    (plain : '\\' ∉ cs.flatMap (quotedChar quote)) : cs.flatMap (quotedChar quote) = cs := by
  induction cs with
  | nil => rfl
  | cons c rest ih =>
    rw [flatMap_cons] at plain ⊢
    rcases quotedChar_cases quote c with ⟨same, _⟩ | ⟨others, escaped, _⟩
    · rw [same, ih fun later => plain (mem_append_right _ later)]
      rfl
    · rw [escaped] at plain
      exact absurd mem_cons_self plain

theorem quoteFor_cases (cs : List Char) : quoteFor cs = '"' ∧ '"' ∉ cs ∨ quoteFor cs = '\'' := by
  rw [quoteFor]
  split
  · rename_i mixed
    exact .inl ⟨rfl, mixed.2⟩
  · exact .inr rfl

theorem toList_quoted (text : String) : (quoted text).toList =
    quoteFor text.toList :: (text.toList.flatMap (quotedChar (quoteFor text.toList)) ++
      [quoteFor text.toList]) := by
  rw [quoted, String.toList_ofList]
  rfl

/-- A quoted text has its own characters but line ends, quotes, and letters of escapes. -/
theorem mem_quoted {text : String} {c : Char} (member : c ∈ (quoted text).toList) :
    c ∈ text.toList ∧ c ≠ '\n' ∧ c ≠ '\r' ∨ c ∈ '"' :: '\'' :: escapeLetters := by
  have isQuote (same : c = quoteFor text.toList) : c ∈ '"' :: '\'' :: escapeLetters := by
    rcases quoteFor_cases text.toList with ⟨double, _⟩ | single
    · exact same.trans double ▸ mem_cons_self
    · exact same.trans single ▸ mem_cons_of_mem _ mem_cons_self
  rw [toList_quoted, mem_cons, mem_append, mem_singleton] at member
  rcases member with first | inside | last
  · exact .inr (isQuote first)
  · obtain ⟨source, held, written⟩ := mem_flatMap.mp inside
    rcases quotedChar_cases (quoteFor text.toList) source with ⟨same, _, line⟩ |
      ⟨rest, escaped, letters⟩
    · rw [same, mem_singleton] at written
      subst written
      exact .inl ⟨held, line⟩
    · rw [escaped] at written
      rcases mem_cons.mp written with rfl | later
      · exact .inr (by decide)
      · rcases mem_cons.mp (letters later) with same | letter
        · exact .inr (isQuote same)
        · exact .inr (mem_cons_of_mem _ (mem_cons_of_mem _ letter))
  · exact .inr (isQuote last)

end Text

/-! ### Items of lists -/

namespace Manifest

open Text

/-- An item that is read back without a backslash is the item that was written: quotes at the ends
are taken away, and backslashes are not. -/
theorem bare_quoted {item : String} (trimmed : IsTrimmed (· = '\'') item.toList)
    (plain : '\\' ∉ bare (quoted item).toList) : bare (quoted item).toList = item.toList := by
  rw [bare, toList_quoted] at plain ⊢
  rcases quoteFor_cases item.toList with ⟨quote, absent⟩ | quote
  · rw [quote, trimBoth_enclosed (by decide) (by decide), trimBoth_between] at plain ⊢
    have kept := flatMap_quotedChar fun member =>
      plain (mem_trimBoth (by decide) (mem_trimBoth (by decide) member))
    have double : trimBoth (· = '"') item.toList = item.toList :=
      Lexer.trimBoth_of_none fun c member => decide_eq_false fun same => absent (same ▸ member)
    rw [kept, double, trimBoth_of_isTrimmed trimmed]
  · rw [quote, trimBoth_enclosed (by decide) (by decide), trimBoth_enclosed (by decide) (by decide),
      trimBoth_between] at plain ⊢
    have kept := flatMap_quotedChar fun member => plain (mem_trimBoth (by decide) member)
    rw [kept, trimBoth_of_isTrimmed trimmed]

end Manifest

/-! ### Tables that are entered anew -/

namespace Table

variable {α : Type} {table : Table α} {name : String}

theorem insert_of_notMem (fresh : name ∉ table.names) (value : α) :
    insert table name value = table ++ [(name, value)] := by
  induction table with
  | nil => rfl
  | cons entry rest ih =>
    obtain ⟨key, old⟩ := entry
    obtain ⟨here, later⟩ := not_or.mp (mem_cons.not.mp fresh)
    rw [insert, if_neg (Ne.symm here), ih later]
    rfl

theorem names_insert_of_mem (known : name ∈ table.names) (value : α) :
    names (insert table name value) = names table := by
  induction table with
  | nil => cases known
  | cons entry rest ih =>
    obtain ⟨key, old⟩ := entry
    rw [insert]
    split
    · rfl
    · rename_i other
      have later : name ∈ names rest :=
        (mem_cons.mp known).resolve_left fun same => other same.symm
      exact congrArg (key :: ·) (ih later)

theorem names_insert (table : Table α) (name : String) (value : α) :
    names (insert table name value) =
      if name ∈ table.names then table.names else table.names ++ [name] := by
  split
  · rename_i known
    exact names_insert_of_mem known value
  · rename_i fresh
    rw [insert_of_notMem fresh, names, map_append]
    rfl

theorem nodup_names_insert (distinct : table.names.Nodup) (name : String) (value : α) :
    (names (insert table name value)).Nodup := by
  rw [names_insert]
  split
  · exact distinct
  · rename_i fresh
    rw [← concat_eq_append]
    exact distinct.concat fresh

theorem mem_names_insert {other : String} {value : α}
    (member : other ∈ names (insert table name value)) : other ∈ table.names ∨ other = name := by
  rw [names_insert] at member
  split at member
  · exact .inl member
  · exact (mem_append.mp member).imp_right mem_singleton.mp

/-- Distinct names are entered in their order. -/
theorem foldl_insert {entries : Table α} (distinct : (table ++ entries).names.Nodup) :
    entries.foldl (fun grown entry => insert grown entry.1 entry.2) table = table ++ entries := by
  induction entries generalizing table with
  | nil => exact (append_nil table).symm
  | cons entry rest ih =>
    have fresh : entry.1 ∉ table.names := by
      rw [names, map_append] at distinct
      exact fun known => disjoint_of_nodup_append distinct known mem_cons_self
    rw [foldl_cons, insert_of_notMem fresh, ih, append_assoc]
    · rfl
    · rwa [append_assoc]

end Table

/-! ### What is read -/

namespace Manifest

open Text

/-- Whether a text has no end of a line. -/
def IsLine (cs : List Char) : Prop := '\n' ∉ cs ∧ '\r' ∉ cs

/-- Whether a text can be a key. -/
structure IsKey (cs : List Char) : Prop where
  trimmed : IsTrimmed isBlank cs
  noSign : '=' ∉ cs
  noMark : cs.head? ≠ some '#'
  isLine : IsLine cs

/-- Whether a value can have been read. -/
def IsValue : ManifestValue → Prop
  | .text value => IsTrimmed (· = '\'') value.toList ∧ isBracketed value.toList = false ∧
    IsLine value.toList
  | .list items => items ≠ [] ∧ ∀ item ∈ items, IsTrimmed (· = '\'') item.toList ∧ ',' ∉ item.toList

/-- Whether a manifest can have been read. -/
structure IsRead (manifest : Manifest) : Prop where
  distinct : manifest.names.Nodup
  key : ∀ name ∈ manifest.names, IsKey name.toList
  value : ∀ entry ∈ manifest, IsValue entry.2

variable {cs : List Char} {c : Char} {value : ManifestValue} {pieces : List (List Char)}
  {entry : String × ManifestValue} {manifest : Manifest} {item : String}

theorem IsLine.of_subset {others : List Char} (line : IsLine others)
    (subset : ∀ c ∈ cs, c ∈ others) : IsLine cs :=
  ⟨fun member => line.1 (subset _ member), fun member => line.2 (subset _ member)⟩

theorem mem_of_mem_bare (member : c ∈ bare cs) : c ∈ cs :=
  mem_of_mem_trimBoth (mem_of_mem_trimBoth (mem_of_mem_trimBoth member))

theorem isValue_readValue (line : IsLine cs) : IsValue (readValue cs) := by
  rw [readValue]
  split
  · refine ⟨fun empty => splitAt_ne_nil _ _ (map_eq_nil_iff.mp empty), fun item member => ?_⟩
    obtain ⟨piece, found, rfl⟩ := mem_map.mp member
    rw [String.toList_ofList]
    exact ⟨isTrimmed_trimBoth _ _, fun comma =>
      (mem_of_mem_splitAt found _ (mem_of_mem_bare comma)).2 rfl⟩
  · rename_i open'
    rw [IsValue, String.toList_ofList]
    exact ⟨isTrimmed_trimBoth _ _, Bool.eq_false_iff.mpr open',
      line.of_subset fun c => mem_of_mem_bare⟩

theorem readLine_some {key : String} (line : IsLine cs) (read : readLine cs = some (key, value)) :
    IsKey key.toList ∧ IsValue value := by
  rw [readLine] at read
  generalize trimmed : trimBoth isBlank cs = shown at read
  have first : shown.head?.any isBlank = false := trimmed ▸ (isTrimmed_trimBoth isBlank cs).1
  have shownLine : IsLine shown := by
    rw [← trimmed]
    exact line.of_subset fun c => mem_of_mem_trimBoth
  split at read
  · cases read
  · cases read
  · rename_i noMark
    split at read
    · cases read
    · rename_i sign rest dropped
      cases read
      have later : ∀ c ∈ rest, c ∈ shown := fun c member =>
        (dropWhile_suffix _).subset (dropped ▸ mem_cons_of_mem _ member)
      refine ⟨?_, isValue_readValue (shownLine.of_subset later)⟩
      rw [String.toList_ofList]
      have before : ∀ c ∈ shown.takeWhile (· ≠ '='), c ∈ shown ∧ c ≠ '=' := fun c member =>
        ⟨(List.takeWhile_prefix _).subset member, by simpa using mem_takeWhile_imp member⟩
      refine ⟨isTrimmed_trimBoth _ _, fun found => (before _ (mem_of_mem_trimBoth found)).2 rfl, ?_,
        shownLine.of_subset fun c member => (before c (mem_of_mem_trimBoth member)).1⟩
      cases shown with
      | nil =>
        intro found
        cases found
      | cons c others =>
        by_cases sign : c = '='
        · subst sign
          intro found
          cases found
        · have kept : (c :: others).takeWhile (· ≠ '=') = c :: others.takeWhile (· ≠ '=') :=
            takeWhile_cons_of_pos (by simpa using sign)
          have begun : (c :: others.takeWhile (· ≠ '=')).head?.any isBlank = false := first
          rw [kept, head?_trimBoth begun]
          exact fun found => noMark others (by rw [Option.some.inj found])

theorem isRead_parse (text : String) : IsRead (parse text) := by
  rw [parse]
  have lines : ∀ entry ∈ (splitAt '\n' (universalNewlines text.toList)).filterMap readLine,
      IsKey entry.1.toList ∧ IsValue entry.2 := by
    intro entry member
    obtain ⟨piece, found, read⟩ := mem_filterMap.mp member
    refine readLine_some ⟨fun newline => ?_, fun mark => ?_⟩ read
    · exact (mem_of_mem_splitAt found _ newline).2 rfl
    · exact notMem_universalNewlines _ (mem_of_mem_splitAt found _ mark).1
  generalize (splitAt '\n' (universalNewlines text.toList)).filterMap readLine = entries at lines
  -- Entering a line keeps what all entries are like.
  have grown (manifest : Manifest) (read : IsRead manifest) :
      IsRead (entries.foldl (fun manifest entry => manifest.insert entry.1 entry.2) manifest) := by
    induction entries generalizing manifest with
    | nil => exact read
    | cons entry rest ih =>
      obtain ⟨key, value⟩ := lines entry mem_cons_self
      refine ih (fun other member => lines other (mem_cons_of_mem _ member)) _ ?_
      refine ⟨nodup_names_insert read.distinct _ _, fun other member => ?_,
        fun other member => ?_⟩
      · rcases mem_names_insert member with old | same
        · exact read.key other old
        · rw [same]
          exact key
      · rcases mem_insert member with old | same
        · exact read.value other old
        · rw [same]
          exact value
  exact grown [] ⟨nodup_nil, forall_mem_nil _, forall_mem_nil _⟩

/-! ### What is written -/

def reread (value : ManifestValue) : ManifestValue := readValue (writtenValue value).toList

def lineOf (entry : String × ManifestValue) : List Char :=
  entry.1.toList ++ ' ' :: '=' :: ' ' :: (writtenValue entry.2).toList

theorem toList_written (manifest : Manifest) :
    (written manifest).toList = manifest.flatMap fun entry => lineOf entry ++ ['\n'] := by
  rw [written, String.toList_join, flatMap_map]
  refine flatMap_congr fun entry _ => ?_
  simp [lineOf]

theorem notMem_intercalate {separator : List Char} (between : c ∉ separator)
    (each : ∀ piece ∈ pieces, c ∉ piece) : c ∉ separator.intercalate pieces := by
  induction pieces with
  | nil => exact not_mem_nil
  | cons piece rest ih =>
    obtain ⟨here, later⟩ := forall_mem_cons.mp each
    cases rest with
    | nil =>
      rw [intercalate_singleton]
      exact here
    | cons next others =>
      rw [intercalate_cons_cons]
      intro member
      rcases mem_append.mp member with member | member
      · exact (mem_append.mp member).elim here between
      · exact ih later member

theorem toList_writtenValue_list (items : List String) : (writtenValue (.list items)).toList =
    '[' :: ([',', ' '].intercalate (items.map fun item => (quoted item).toList) ++ [']']) := by
  rw [writtenValue, String.toList_append, String.toList_append, String.toList_intercalate, map_map]
  rfl

theorem isLine_writtenValue (read : IsValue value) : IsLine (writtenValue value).toList := by
  cases value with
  | text value =>
    have line := read.2.2
    rw [writtenValue]
    exact ⟨by simpa using line.1, by simpa using line.2⟩
  | list items =>
    have none (mark : Char) (other : mark = '\n' ∨ mark = '\r') :
        mark ∉ (writtenValue (.list items)).toList := by
      rw [toList_writtenValue_list, mem_cons, mem_append, mem_singleton]
      rintro (rfl | inside | rfl)
      · revert other; decide
      · refine notMem_intercalate ?_ (fun piece found member => ?_) inside
        · rcases other with rfl | rfl <;> decide
        · obtain ⟨item, _, rfl⟩ := mem_map.mp found
          rcases mem_quoted member with ⟨_, noBreak, noReturn⟩ | letter
          · exact other.elim noBreak noReturn
          · rcases other with rfl | rfl <;> revert letter <;> decide
      · revert other; decide
    exact ⟨none _ (.inl rfl), none _ (.inr rfl)⟩

theorem exists_last_writtenValue (value : ManifestValue) :
    ∃ front last, (writtenValue value).toList = front ++ [last] ∧ isBlank last = false := by
  cases value with
  | text value => exact ⟨"\"".toList ++ value.toList, '"', by simp [writtenValue], by decide⟩
  | list items => exact ⟨"[".toList ++ (", ".intercalate (items.map quoted)).toList, ']',
      by simp [writtenValue], by decide⟩

theorem readLine_of_trimmed {front value : List Char}
    (trimmed : trimBoth isBlank cs = front ++ '=' :: value) (noSign : '=' ∉ front)
    (noMark : front.head? ≠ some '#') :
    readLine cs = some (String.ofList (trimBoth isBlank front), readValue value) := by
  have before : ∀ c ∈ front, decide (c ≠ '=') = true :=
    fun c member => decide_eq_true fun same => noSign (same ▸ member)
  obtain ⟨taken, dropped⟩ := Lexer.takeWhile_run before (by rfl : ('=' :: value).head?.any _ = false)
  rw [readLine, trimmed, taken, dropped]
  split
  · rename_i empty
    cases front <;> cases empty
  · rename_i rest marked
    cases front with
    | nil => cases marked
    | cons c others => exact absurd (congrArg List.head? marked) noMark
  · rfl

theorem bare_space (cs : List Char) : bare (' ' :: cs) = bare cs := by
  have same : trimBoth isBlank ([' '] ++ cs ++ []) = trimBoth isBlank cs :=
    trimBoth_surrounded (forall_mem_singleton.mpr rfl) (forall_mem_nil _) cs
  rw [append_nil] at same
  rw [bare, bare]
  exact congrArg _ (congrArg _ same)

theorem readValue_space (cs : List Char) : readValue (' ' :: cs) = readValue cs := by
  rw [readValue, readValue, bare_space]

theorem readLine_lineOf (key : IsKey entry.1.toList) :
    readLine (lineOf entry) = some (entry.1, reread entry.2) := by
  obtain ⟨front, last, shape, visible⟩ := exists_last_writtenValue entry.2
  have ends (before : List Char) (begins : (before ++ '=' :: ' ' :: (front ++ [last])).head?.any
      isBlank = false) : trimBoth isBlank (before ++ '=' :: ' ' :: (front ++ [last])) =
        before ++ '=' :: ' ' :: (front ++ [last]) :=
    trimBoth_of_isTrimmed ⟨begins, by simp [List.getLast?_cons, visible]⟩
  rw [reread, ← readValue_space, lineOf, shape]
  cases letters : entry.1.toList with
  | nil =>
    have same : trimBoth isBlank ([' '] ++ '=' :: ' ' :: (front ++ [last]) ++ []) = _ :=
      trimBoth_surrounded (forall_mem_singleton.mpr rfl) (forall_mem_nil _) _
    rw [append_nil] at same
    change readLine ([' '] ++ '=' :: ' ' :: (front ++ [last])) = _
    rw [readLine_of_trimmed (same.trans (ends [] rfl)) not_mem_nil (by simp), ← letters,
      trimBoth_of_isTrimmed key.trimmed, String.ofList_toList]
  | cons c rest =>
    have begins : isBlank c = false := by
      have trimmed := key.trimmed.1
      rw [letters] at trimmed
      exact trimmed
    have spaced : '=' ∉ c :: rest ++ [' '] := by
      have noSign := key.noSign
      rw [letters] at noSign
      simpa using noSign
    have unmarked : (c :: rest ++ [' ']).head? ≠ some '#' := by
      have noMark := key.noMark
      rw [letters] at noMark
      exact noMark
    have same := ends (c :: rest ++ [' ']) begins
    rw [append_cons, readLine_of_trimmed same spaced unmarked]
    have bare : trimBoth isBlank ([] ++ entry.1.toList ++ [' ']) = _ :=
      trimBoth_surrounded (forall_mem_nil _) (forall_mem_singleton.mpr rfl) _
    rw [nil_append, trimBoth_of_isTrimmed key.trimmed, letters] at bare
    rw [bare, ← letters, String.ofList_toList]

theorem isLine_lineOf (key : IsKey entry.1.toList) (value : IsValue entry.2) :
    IsLine (lineOf entry) := by
  have written := isLine_writtenValue value
  exact ⟨by simpa [lineOf] using ⟨key.isLine.1, written.1⟩,
    by simpa [lineOf] using ⟨key.isLine.2, written.2⟩⟩

theorem splitAt_written (lines : ∀ entry ∈ manifest, IsLine (lineOf entry)) :
    splitAt '\n' (manifest.flatMap fun entry => lineOf entry ++ ['\n']) =
      manifest.map lineOf ++ [[]] := by
  induction manifest with
  | nil => rfl
  | cons entry rest ih =>
    obtain ⟨here, later⟩ := forall_mem_cons.mp lines
    rw [flatMap_cons, append_assoc, singleton_append, splitAt_append here.1, ih later]
    rfl

/-- A manifest that is written and read again has its keys in their order, each with its value as
it is read again. -/
theorem parse_written (read : IsRead manifest) :
    parse (written manifest) = mapValues reread manifest := by
  have key {entry : String × ManifestValue} (member : entry ∈ manifest) : IsKey entry.1.toList :=
    read.key entry.1 (mem_map_of_mem member)
  have lines : ∀ entry ∈ manifest, IsLine (lineOf entry) :=
    fun entry member => isLine_lineOf (key member) (read.value entry member)
  have plain : '\r' ∉ manifest.flatMap fun entry => lineOf entry ++ ['\n'] := by
    intro member
    obtain ⟨entry, found, inside⟩ := mem_flatMap.mp member
    rcases mem_append.mp inside with inside | inside
    · exact (lines entry found).2 inside
    · exact absurd inside (by decide)
  have entries : (manifest.map lineOf).filterMap readLine = mapValues reread manifest := by
    rw [filterMap_map, mapValues, ← filterMap_eq_map]
    exact filterMap_congr fun entry member => readLine_lineOf (key member)
  have distinct : (mapValues reread manifest).names.Nodup := by
    have same : (mapValues reread manifest).names = manifest.names := by
      rw [names, mapValues, map_map]
      rfl
    rw [same]
    exact read.distinct
  rw [parse, toList_written, universalNewlines_of_notMem plain, splitAt_written lines,
    filterMap_append, entries]
  exact (congrArg (List.foldl _ []) (append_nil _)).trans (foldl_insert distinct)

/-! ### Values that are read again -/

/-- A text without a double quote at either end is read again as it is. -/
theorem reread_text {value : String} (read : IsValue (.text value))
    (unquoted : IsTrimmed (· = '"') value.toList) : reread (.text value) = .text value := by
  have shape : (writtenValue (.text value)).toList = '"' :: (value.toList ++ ['"']) := by
    rw [writtenValue, String.toList_append, String.toList_append]
    rfl
  have shown : bare (writtenValue (.text value)).toList = value.toList := by
    rw [bare, shape, trimBoth_enclosed (by decide) (by decide), trimBoth_between,
      trimBoth_of_isTrimmed unquoted, trimBoth_of_isTrimmed read.1]
  rw [reread, readValue, shown, if_neg (Bool.eq_false_iff.mp read.2.1), String.ofList_toList]

theorem splitAt_intercalate (each : ∀ piece ∈ pieces, ',' ∉ piece) (first : List Char)
    (here : ',' ∉ first) :
    splitAt ',' ([',', ' '].intercalate (first :: pieces)) = first :: pieces.map (' ' :: ·) := by
  induction pieces generalizing first with
  | nil =>
    rw [intercalate_singleton]
    exact splitAt_of_notMem here
  | cons next rest ih =>
    obtain ⟨there, later⟩ := forall_mem_cons.mp each
    have spaced : ',' ∉ ' ' :: next := by simpa using there
    have pushed : ' ' :: [',', ' '].intercalate (next :: rest) =
        [',', ' '].intercalate ((' ' :: next) :: rest) := by
      cases rest <;> rfl
    rw [intercalate_cons_cons, append_assoc, cons_append, singleton_append,
      splitAt_append here, pushed, ih later _ spaced]
    rfl

theorem reread_list {items : List String} (read : IsValue (.list items)) : reread (.list items) =
    .list (items.map fun item => String.ofList (bare (quoted item).toList)) := by
  obtain ⟨nonempty, each⟩ := read
  have noComma (item : String) (member : item ∈ items) : ',' ∉ (quoted item).toList := by
    intro comma
    rcases mem_quoted comma with ⟨found, _⟩ | letter
    · exact (each item member).2 found
    · exact absurd letter (by decide)
  rw [reread, readValue, toList_writtenValue_list, bare, trimBoth_enclosed (by decide) (by decide),
    trimBoth_enclosed (by decide) (by decide), trimBoth_enclosed (by decide) (by decide)]
  rw [if_pos (by rw [isBracketed, ← cons_append, List.getLast?_concat]; rfl),
    drop_succ_cons, drop_zero, dropLast_concat]
  cases items with
  | nil => exact absurd rfl nonempty
  | cons item rest =>
    obtain ⟨here, later⟩ := forall_mem_cons.mp noComma
    rw [map_cons, splitAt_intercalate ?_ _ here]
    · simp only [map_cons, map_map, Function.comp_def, bare_space]
    · intro piece member
      obtain ⟨other, found, rfl⟩ := mem_map.mp member
      exact later other found

/-! ### Manifests that come back -/

/-- Whether an item of a list is written as it is, between single quotes. -/
def IsPlainItem (item : String) : Prop :=
  ∀ c ∈ item.toList, isPrintable c = true ∧ c ∉ ['\'', '"', '\\', ',']

/-- Whether a value comes back as it is: a text on one line, without a quote at either end and not
between brackets, or some items that are written as they are. -/
def IsPlain : ManifestValue → Prop
  | .text value => IsLine value.toList ∧ IsTrimmed (· = '\'') value.toList ∧
    IsTrimmed (· = '"') value.toList ∧ isBracketed value.toList = false
  | .list items => items ≠ [] ∧ ∀ item ∈ items, IsPlainItem item

theorem quotedChar_of_isPrintable {quote : Char} (printable : isPrintable c = true)
    (other : c ≠ quote) (unescaped : c ≠ '\\') : quotedChar quote c = [c] := by
  have shown (mark : Char) (hidden : isPrintable mark = false) : c ≠ mark := by
    rintro rfl
    cases printable.symm.trans hidden
  rw [quotedChar, if_neg (by simp [other, unescaped]), if_neg (shown _ (by decide)),
    if_neg (shown _ (by decide)), if_neg (shown _ (by decide)), if_pos printable]

theorem IsPlainItem.notMem (plain : IsPlainItem item) {mark : Char}
    (listed : mark ∈ ['\'', '"', '\\', ',']) : mark ∉ item.toList :=
  fun member => (plain mark member).2 listed

theorem toList_quoted_of_isPlainItem (plain : IsPlainItem item) :
    (quoted item).toList = '\'' :: (item.toList ++ ['\'']) := by
  have unquoted : '\'' ∉ item.toList := plain.notMem (by decide)
  have single : quoteFor item.toList = '\'' := if_neg fun mixed => unquoted mixed.1
  have same : item.toList.flatMap (quotedChar '\'') = item.toList := by
    refine (flatMap_congr fun c member => ?_).trans (flatMap_singleton' _)
    refine quotedChar_of_isPrintable (plain c member).1 ?_ ?_
    · exact fun same => unquoted (same ▸ member)
    · exact fun same => plain.notMem (by decide) (same ▸ member)
  rw [toList_quoted, single, same]

theorem IsPlainItem.isTrimmed (plain : IsPlainItem item) : IsTrimmed (· = '\'') item.toList := by
  have none (c : Char) (member : c ∈ item.toList) : decide (c = '\'') = false :=
    decide_eq_false fun same => plain.notMem (by decide) (same ▸ member)
  have trimmed := isTrimmed_trimBoth (· = '\'') item.toList
  rwa [Lexer.trimBoth_of_none none] at trimmed

theorem IsPlain.isValue (plain : IsPlain value) : IsValue value := by
  cases value with
  | text value => exact ⟨plain.2.1, plain.2.2.2, plain.1⟩
  | list items =>
    exact ⟨plain.1, fun item member =>
      ⟨(plain.2 item member).isTrimmed, (plain.2 item member).notMem (by decide)⟩⟩

/-- An item that is written as it is is read again as it is. -/
theorem IsPlainItem.bare_eq (plain : IsPlainItem item) :
    bare (quoted item).toList = item.toList := by
  refine bare_quoted plain.isTrimmed fun escaped => ?_
  have member := mem_of_mem_bare escaped
  rw [toList_quoted_of_isPlainItem plain] at member
  have unescaped : '\\' ∉ item.toList := plain.notMem (by decide)
  simp [unescaped] at member

theorem IsPlain.reread_eq (plain : IsPlain value) : reread value = value := by
  cases value with
  | text value => exact reread_text plain.isValue plain.2.2.1
  | list items =>
    rw [reread_list plain.isValue]
    have same : items.map (fun item => String.ofList (bare (quoted item).toList)) = items := by
      refine (map_congr_left fun item member => ?_).trans (map_id _)
      rw [(plain.2 item member).bare_eq, String.ofList_toList]
      rfl
    rw [same]

/-- A manifest that is written is read back as it is, with its keys in their order: if the keys
differ from one another and can be keys at all, and if every value comes back. -/
theorem written_manifest_is_read_back {manifest : Manifest} (distinct : manifest.names.Nodup)
    (keys : ∀ name ∈ manifest.names, IsKey name.toList)
    (values : ∀ entry ∈ manifest, IsPlain entry.2) : parse (written manifest) = manifest := by
  rw [parse_written ⟨distinct, keys, fun entry member => (values entry member).isValue⟩,
    Table.mapValues]
  refine (map_congr_left fun entry member => ?_).trans (map_id _)
  rw [(values entry member).reread_eq]
  rfl

/-- Spaces at the ends of values, empty texts, brackets, signs and marks inside values and a key
without a letter all come back. -/
theorem written_manifest_is_read_back_with_marks :
    let manifest : Manifest :=
      [("", .text " [a] = #'b' "), ("two words", .text ""), ("[k]", .list ["", " x = [y] ", "#é"])]
    manifest.names.Nodup ∧ parse (written manifest) = manifest := by
  intro manifest
  have item (text : String) (plain : (text.toList.all fun c =>
      isPrintable c && !(['\'', '"', '\\', ','].contains c)) = true) : IsPlainItem text := by
    intro c member
    simpa using all_eq_true.mp plain c member
  have distinct : manifest.names.Nodup := by decide
  refine ⟨distinct, written_manifest_is_read_back distinct ?_ ?_⟩
  · show ∀ name ∈ ["", "two words", "[k]"], IsKey name.toList
    simp only [forall_mem_cons]
    exact ⟨⟨⟨rfl, rfl⟩, by decide, by decide, by decide, by decide⟩,
      ⟨⟨rfl, rfl⟩, by decide, by decide, by decide, by decide⟩,
      ⟨⟨rfl, rfl⟩, by decide, by decide, by decide, by decide⟩, forall_mem_nil _⟩
  · simp only [manifest, forall_mem_cons]
    exact ⟨⟨⟨by decide, by decide⟩, ⟨rfl, rfl⟩, ⟨rfl, rfl⟩, rfl⟩,
      ⟨⟨by decide, by decide⟩, ⟨rfl, rfl⟩, ⟨rfl, rfl⟩, rfl⟩,
      ⟨by decide, by
        simp only [forall_mem_cons]
        exact ⟨item _ rfl, item _ (by decide), item _ (by decide +kernel), forall_mem_nil _⟩⟩,
      forall_mem_nil _⟩

end Manifest

/-! ### What packages read -/

namespace Package

open Manifest Text

/-- Whether the text of a key, if it has one, has no double quote at either end. -/
def IsUnquoted (manifest : Manifest) (key : String) : Prop :=
  ∀ value, manifest.get? key = some (.text value) → IsTrimmed (· = '"') value.toList

variable {permissions : Permissions}

theorem notMem_of_isRefused {name : String} (refused : isRefused permissions name = true) :
    '\\' ∉ name.toList := by
  have names : requestable.all (fun entry => !entry.1.toList.contains '\\') = true := by decide
  rw [isRefused] at refused
  split at refused
  · rename_i permission found
    obtain ⟨front, rest, whole, _⟩ := lookup_eq_some_iff.mp found
    have plain := all_eq_true.mp names (name, permission)
      (by rw [whole]; exact mem_append_right _ mem_cons_self)
    simpa using plain
  · cases refused

variable {manifest : Manifest} (read : IsRead manifest)

include read

theorem get?_written (key : String) :
    (Manifest.parse (written manifest)).get? key = (manifest.get? key).map reread := by
  rw [parse_written read]
  exact get?_mapValues reread manifest key

theorem pathPart_written {key otherwise part : String} (unquoted : IsUnquoted manifest key)
    (found : pathPart manifest key otherwise = .ok part) :
    pathPart (Manifest.parse (written manifest)) key otherwise = .ok part := by
  rw [pathPart] at found
  rw [pathPart, get?_written read]
  cases held : manifest.get? key with
  | none =>
    rw [held] at found
    exact found
  | some value =>
    rw [held] at found
    cases value with
    | text value =>
      have same := reread_text (read.value _ (mem_of_get? held)) (unquoted value held)
      rw [Option.map_some, same]
      exact found
    | list items => cases found

theorem find?_requested_written (unquoted : IsUnquoted manifest "permissions")
    (allowed : (requested manifest).find? (isRefused permissions) = none) :
    (requested (Manifest.parse (written manifest))).find? (isRefused permissions) = none := by
  rw [requested] at allowed
  rw [requested, get?_written read]
  cases held : manifest.get? "permissions" with
  | none => rfl
  | some value =>
    have sound := read.value _ (mem_of_get? held)
    cases value with
    | text value =>
      rw [Option.map_some, reread_text sound (unquoted value held)]
      rfl
    | list items =>
      rw [held] at allowed
      rw [Option.map_some, reread_list sound]
      refine List.find?_eq_none.mpr fun name member refused => ?_
      obtain ⟨item, found, rfl⟩ := mem_map.mp member
      have same := bare_quoted (sound.2 item found).1 ?_
      · rw [same, String.ofList_toList] at refused
        exact List.find?_eq_none.mp allowed item found refused
      · have plain := notMem_of_isRefused refused
        rwa [String.toList_ofList] at plain

end Package

end Parlance
