import Mathlib.Data.List.Forall2
import Parlance.Builtin

/-!
Tables are aligned. The width of a column is the least one that fits its header and all of its
cells, however long the rows are.
-/

namespace Parlance

open List

namespace Grid

/-! ### Widths -/

variable {i : Nat}

theorem length_widen (columns : List Nat) (cells : List String) :
    (widen columns cells).length = columns.length := by
  induction columns generalizing cells with
  | nil => rfl
  | cons width others ih =>
    cases cells with
    | nil => rfl
    | cons cell rest => exact congrArg (· + 1) (ih rest)

/-- One more row widens a column to the cell that it has there. -/
theorem getD_widen (columns : List Nat) (cells : List String) (inside : i < columns.length) :
    (widen columns cells).getD i 0 = max (columns.getD i 0) (cells.getD i "").length := by
  induction columns generalizing cells i with
  | nil => cases inside
  | cons width others ih =>
    cases cells with
    | nil => exact (Nat.max_zero _).symm
    | cons cell rest =>
      cases i with
      | zero => rfl
      | succ i => exact ih rest (Nat.lt_of_succ_lt_succ inside)

theorem length_foldl_widen (rows : List (List String)) (columns : List Nat) :
    (rows.foldl widen columns).length = columns.length := by
  induction rows generalizing columns with
  | nil => rfl
  | cons row rest ih =>
    exact (ih _).trans (length_widen columns row)

/-- After all rows, a column fits into a bound if it did so before and all of its cells do. -/
theorem getD_foldl_widen_le_iff (rows : List (List String)) (columns : List Nat)
    (inside : i < columns.length) (bound : Nat) :
    (rows.foldl widen columns).getD i 0 ≤ bound ↔
      columns.getD i 0 ≤ bound ∧ ∀ row ∈ rows, (row.getD i "").length ≤ bound := by
  induction rows generalizing columns with
  | nil => simp
  | cons row rest ih =>
    rw [foldl_cons, ih _ (by rwa [length_widen]), getD_widen _ _ inside,
      Nat.max_le, forall_mem_cons, and_assoc]

theorem length_widths (names : List String) (rows : List (List String)) :
    (widths names rows).length = names.length := by
  rw [widths, length_foldl_widen, length_map]

/-- A width is the least one that fits the header and every cell of its column. -/
theorem getD_widths_le_iff (names : List String) (rows : List (List String))
    (inside : i < names.length) (bound : Nat) :
    (widths names rows).getD i 0 ≤ bound ↔
      (names.getD i "").length ≤ bound ∧ ∀ row ∈ rows, (row.getD i "").length ≤ bound := by
  have header : (names.map String.length).getD i 0 = (names.getD i "").length := by
    rw [getD_eq_getElem?_getD, List.getElem?_map, getD_eq_getElem?_getD]
    cases names[i]? <;> rfl
  rw [widths, getD_foldl_widen_le_iff _ _ (by rwa [length_map]), header]

/-! ### Lines -/

/-- Where a column begins: after the columns before it and the bars between them. -/
def offset (columns : List Nat) (i : Nat) : Nat := (columns.take i).foldr Nat.add 0 + 3 * i

/-- How long lines are: the sum of the widths, with bars between the columns. -/
def breadth (columns : List Nat) : Nat := columns.foldr Nat.add 0 + 3 * (columns.length - 1)

/-- Whether a line shows cells: in each column, the text of the cell there and then spaces up to the
width of the column, and bars between the columns. -/
structure Shows (columns : List Nat) (cells : List String) (line : String) : Prop where
  length : line.length = breadth columns
  slice (i : Nat) (inside : i < columns.length) :
    (line.toList.drop (offset columns i)).take (columns.getD i 0) =
      (cells.getD i "").toList ++
        List.replicate (columns.getD i 0 - (cells.getD i "").length) ' '
  bar (i : Nat) (between : i + 1 < columns.length) :
    (line.toList.drop (offset columns i + columns.getD i 0)).take 3 = " | ".toList

theorem toList_padded (width : Nat) (text : String) :
    (padded width text).toList = text.toList ++ List.replicate (width - text.length) ' ' := by
  rw [padded, String.toList_append, String.toList_ofList]

theorem length_padded {width : Nat} {text : String} (fits : text.length ≤ width) :
    (padded width text).toList.length = width := by
  rw [toList_padded, length_append, length_replicate, String.length_toList]
  omega

theorem line_cons (width : Nat) (columns : List Nat) (cells : List String) :
    line (width :: columns) cells = padded width (cells.getD 0 "") :: line columns cells.tail := by
  cases cells <;> rfl

theorem toList_joined_line (width next : Nat) (columns : List Nat) (cells : List String) :
    (joined (line (width :: next :: columns) cells)).toList =
      (padded width (cells.getD 0 "")).toList ++
        (" | ".toList ++ (joined (line (next :: columns) cells.tail)).toList) := by
  rw [line_cons, line_cons, joined, String.intercalate_cons_cons, String.toList_append,
    String.toList_append, append_assoc, ← line_cons, joined]

theorem offset_succ (width : Nat) (columns : List Nat) (i : Nat) :
    offset (width :: columns) (i + 1) = width + 3 + offset columns i := by
  rw [offset, offset, take_succ_cons, foldr_cons, Nat.add_eq]
  omega

theorem breadth_cons_cons (width next : Nat) (columns : List Nat) :
    breadth (width :: next :: columns) = width + 3 + breadth (next :: columns) := by
  simp only [breadth, foldr_cons, length_cons, Nat.add_eq]
  omega

/-- A line whose cells fit into their columns shows them. -/
theorem shows_line {columns : List Nat} {cells : List String}
    (fits : ∀ i < columns.length, (cells.getD i "").length ≤ columns.getD i 0) :
    Shows columns cells (joined (line columns cells)) := by
  induction columns generalizing cells with
  | nil => exact ⟨rfl, nofun, nofun⟩
  | cons width others ih =>
    have first : (cells.getD 0 "").length ≤ width := fits 0 (Nat.succ_pos _)
    have size := length_padded first
    cases others with
    | nil =>
      have alone : (joined (line [width] cells)).toList = (padded width (cells.getD 0 "")).toList := by
        rw [line_cons, line, joined, String.intercalate_singleton]
      refine ⟨?_, fun i inside => ?_, fun i between => ?_⟩
      · rw [← String.length_toList, alone, size]
        rfl
      · obtain rfl := Nat.lt_one_iff.mp inside
        rw [alone, ← toList_padded]
        exact take_of_length_le (Nat.le_of_eq size)
      · exact absurd (Nat.lt_of_succ_lt_succ between) (Nat.not_lt_zero i)
    | cons next others =>
      have tail (i : Nat) : cells.tail.getD i "" = cells.getD (i + 1) "" := by cases cells <;> rfl
      have later : Shows (next :: others) cells.tail (joined (line (next :: others) cells.tail)) :=
        ih fun i inside => by
          rw [tail]
          exact fits (i + 1) (Nat.succ_lt_succ inside)
      have whole := toList_joined_line width next others cells
      -- what stands behind the first column and its bar is the rest of the line
      have past (k : Nat) : (joined (line (width :: next :: others) cells)).toList.drop
          (width + 3 + k) = (joined (line (next :: others) cells.tail)).toList.drop k := by
        rw [whole, Nat.add_assoc, ← drop_drop, drop_left' size, ← drop_drop]
        rfl
      refine ⟨?_, fun i inside => ?_, fun i between => ?_⟩
      · have rest := later.length
        rw [← String.length_toList] at rest ⊢
        rw [whole, length_append, length_append, size, rest, breadth_cons_cons, Nat.add_assoc]
        rfl
      · cases i with
        | zero =>
          rw [whole, ← toList_padded]
          exact take_left' size
        | succ i =>
          rw [offset_succ, past, ← tail]
          exact later.slice i (Nat.lt_of_succ_lt_succ inside)
      · cases i with
        | zero =>
          have behind : offset (width :: next :: others) 0 + (width :: next :: others).getD 0 0 =
              width := Nat.zero_add width
          rw [whole, behind, drop_left' size]
          rfl
        | succ i =>
          rw [offset_succ, Nat.add_assoc, past]
          exact later.bar i (Nat.lt_of_succ_lt_succ between)

/-- A line holds spaces, bars and what stands in its cells. -/
theorem mem_line {columns : List Nat} {cells : List String} {c : Char}
    (member : c ∈ (joined (line columns cells)).toList) :
    c ∈ [' ', '|'] ∨ ∃ cell ∈ cells, c ∈ cell.toList := by
  induction columns generalizing cells with
  | nil => cases member
  | cons width others ih =>
    have first (here : c ∈ (padded width (cells.getD 0 "")).toList) :
        c ∈ [' ', '|'] ∨ ∃ cell ∈ cells, c ∈ cell.toList := by
      rw [toList_padded] at here
      rcases mem_append.mp here with text | space
      · cases cells with
        | nil => cases text
        | cons cell rest => exact .inr ⟨cell, mem_cons_self, text⟩
      · rw [eq_of_mem_replicate space]
        exact .inl mem_cons_self
    cases others with
    | nil =>
      rw [line_cons, line, joined, String.intercalate_singleton] at member
      exact first member
    | cons next others =>
      rw [toList_joined_line] at member
      rcases mem_append.mp member with here | behind
      · exact first here
      rcases mem_append.mp behind with bar | later
      · have marks : " | ".toList ⊆ [' ', '|'] := by decide
        exact .inl (marks bar)
      rcases ih later with mark | ⟨cell, among, inside⟩
      · exact .inl mark
      · exact .inr ⟨cell, mem_of_mem_tail among, inside⟩

/-! ### Tables -/

/-- Whether lines are a table: a header, dashes and a line for each row, all in columns that are as
wide as they have to be and no wider. -/
structure IsAligned (names : List String) (rows : List (List String)) (columns : List Nat)
    (lines : List String) : Prop where
  count : columns.length = names.length
  least (i : Nat) (inside : i < columns.length) (bound : Nat) : columns.getD i 0 ≤ bound ↔
      (names.getD i "").length ≤ bound ∧ ∀ row ∈ rows, (row.getD i "").length ≤ bound
  shown : ∃ header others, lines = header :: dashes (breadth columns) :: others ∧
    Shows columns names header ∧ List.Forall₂ (Shows columns) rows others

theorem isAligned_lines (names : List String) (rows : List (List String)) :
    IsAligned names rows (widths names rows) (lines (widths names rows) names rows) := by
  have count := length_widths names rows
  have fits (i : Nat) (inside : i < (widths names rows).length) :=
    (getD_widths_le_iff names rows (count ▸ inside) _).mp (Nat.le_refl _)
  have header : Shows (widths names rows) names (joined (line (widths names rows) names)) :=
    shows_line fun i inside => (fits i inside).1
  have others : List.Forall₂ (Shows (widths names rows)) rows
      (rows.map fun row => joined (line (widths names rows) row)) := by
    rw [forall₂_map_right_iff, forall₂_same]
    exact fun row member => shows_line fun i inside => (fits i inside).2 row member
  refine ⟨count, fun i inside => getD_widths_le_iff names rows (count ▸ inside), _, _, ?_,
    header, others⟩
  rw [lines, header.length]

/-- A table without line breaks in its cells has its lines as lines. -/
theorem splitOn_lines {names : List String} {rows : List (List String)} (columns : List Nat)
    (unbroken : ∀ row ∈ names :: rows, ∀ cell ∈ row, '\n' ∉ cell.toList) :
    ("\n".intercalate (lines columns names rows)).toList.splitOn '\n' =
      (lines columns names rows).map String.toList := by
  have clean (row : List String) (member : row ∈ names :: rows) :
      '\n' ∉ (joined (line columns row)).toList := by
    intro broken
    rcases mem_line broken with mark | ⟨cell, among, inside⟩
    · exact absurd mark (by decide)
    · exact unbroken row member cell among inside
  rw [String.toList_intercalate]
  refine splitOn_intercalate '\n' ?_ (cons_ne_nil _ _)
  intro text member
  rw [lines, map_cons, map_cons, map_map] at member
  rcases mem_cons.mp member with rfl | member
  · exact clean names mem_cons_self
  rcases mem_cons.mp member with rfl | member
  · rw [dashes, String.toList_ofList]
    exact fun dash => absurd (eq_of_mem_replicate dash) (by decide)
  · obtain ⟨row, among, rfl⟩ := mem_map.mp member
    exact clean row (mem_cons_of_mem _ among)

end Grid

/-! ### Texts of cells -/

/-- Where each action is known to succeed under a condition with a result, so is their sequence. -/
theorem mapM_eq_ok {α β : Type} {action : α → Except Refusal β} {holds : α → Prop} {result : α → β}
    (each : ∀ item value, action item = .ok value ↔ holds item ∧ value = result item)
    {items : List α} {values : List β} :
    items.mapM action = .ok values ↔ (∀ item ∈ items, holds item) ∧ values = items.map result := by
  induction items generalizing values with
  | nil => exact ⟨fun same => ⟨nofun, (Except.ok.inj same).symm⟩, fun both => both.2 ▸ rfl⟩
  | cons item rest ih =>
    rw [mapM_cons, forall_mem_cons, map_cons]
    cases here : action item with
    | error cause =>
      refine ⟨nofun, fun both => ?_⟩
      cases here.symm.trans ((each item _).mpr ⟨both.1.1, rfl⟩)
    | ok value =>
      obtain ⟨first, rfl⟩ := (each item value).mp here
      cases later : rest.mapM action with
      | error cause =>
        refine ⟨nofun, fun both => ?_⟩
        cases later.symm.trans (ih.mpr ⟨both.1.2, rfl⟩)
      | ok others =>
        obtain ⟨all, rfl⟩ := ih.mp later
        constructor
        · rintro ⟨⟩
          exact ⟨⟨first, all⟩, rfl⟩
        · rintro ⟨-, rfl⟩
          rfl

namespace Heap

/-- Whether a value has a text. Numbers with too many digits have none. -/
def HasText (heap : Heap) (value : Value) : Prop := ∃ text, heap.text value = .ok text

/-- The text of a value that has one. -/
def label (heap : Heap) (value : Value) : String := (heap.text value).toOption.getD ""

theorem text_eq_ok (heap : Heap) (value : Value) (text : String) :
    heap.text value = .ok text ↔ heap.HasText value ∧ text = heap.label value := by
  rw [HasText, label]
  cases heap.text value with
  | error cause =>
    refine ⟨nofun, ?_⟩
    rintro ⟨⟨_, ⟨⟩⟩, -⟩
  | ok found =>
    constructor
    · rintro ⟨⟩
      exact ⟨⟨_, rfl⟩, rfl⟩
    · rintro ⟨-, rfl⟩
      rfl

end Heap

namespace Builtin

variable {heap : Heap} {top body : Nat} {rows : List Nat} {text : String}

/-- The texts of the cells of rows, as far as there are columns. -/
def cellsOf (heap : Heap) (columns : Nat) (rows : List Nat) : List (List String) :=
  rows.map fun row => ((heap.items row).take columns).map heap.label

theorem tableUnder_eq_ok {names : List String} (given : heap.items body = rows.map Value.list) :
    tableUnder heap names (.list body) = .ok text ↔
      (∀ row ∈ rows, ∀ cell ∈ (heap.items row).take names.length, heap.HasText cell) ∧
        text = "\n".intercalate (Grid.lines (Grid.widths names (cellsOf heap names.length rows))
          names (cellsOf heap names.length rows)) := by
  -- The cells of a row are read alike to find widths and to be shown.
  have opened : tableUnder heap names (.list body) =
      (rows.mapM fun row => ((heap.items row).take names.length).mapM heap.text).bind
        fun measured => (rows.mapM fun row =>
          ((heap.items row).take names.length).mapM heap.text).bind fun shown =>
            .ok ("\n".intercalate (Grid.lines (Grid.widths names measured) names shown)) := by
    show ((heap.items body).mapM (measuredCells heap names.length)).bind _ = _
    rw [given, mapM_map, mapM_map]
    rfl
  have each (row : Nat) (texts : List String) :
      ((heap.items row).take names.length).mapM heap.text = .ok texts ↔ _ :=
    mapM_eq_ok heap.text_eq_ok
  have all (texts : List (List String)) : (rows.mapM fun row =>
      ((heap.items row).take names.length).mapM heap.text) = .ok texts ↔ _ := mapM_eq_ok each
  rw [opened]
  cases read : rows.mapM fun row => ((heap.items row).take names.length).mapM heap.text with
  | error cause =>
    refine ⟨nofun, fun both => ?_⟩
    cases read.symm.trans ((all _).mpr ⟨both.1, rfl⟩)
  | ok shown =>
    obtain ⟨written, rfl⟩ := (all shown).mp read
    exact ⟨fun same => ⟨written, (Except.ok.inj same).symm⟩, fun both => both.2 ▸ rfl⟩

/-- A table is made exactly if its headers have texts and the cells under them do. -/
theorem apply_printTable (draw : Nat) (given : heap.items body = rows.map Value.list)
    (filled : rows ≠ []) {result : Value × Heap} :
    let names := (heap.items top).map heap.label
    apply heap draw .printTable [.list top, .list body] = .ok result ↔
      ((∀ header ∈ heap.items top, heap.HasText header) ∧
        ∀ row ∈ rows, ∀ cell ∈ (heap.items row).take names.length, heap.HasText cell) ∧
      result = (.string ("\n".intercalate (Grid.lines (Grid.widths names
        (cellsOf heap names.length rows)) names (cellsOf heap names.length rows))), heap) := by
  intro names
  have isTrue : heap.isTrue (.list body) = true := by
    rw [Heap.isTrue, given, isEmpty_map, isEmpty_eq_false_iff.mpr filled]
    rfl
  have opened : apply heap draw .printTable [.list top, .list body] =
      ((heap.items top).mapM heap.text).bind fun names =>
        (tableUnder heap names (.list body)).bind fun text => .ok (.string text, heap) := by
    show (table heap (.list top) (.list body)).bind _ = _
    rw [table, if_pos isTrue]
    show (((heap.items top).mapM heap.text).bind fun names => tableUnder heap names _).bind _ = _
    cases (heap.items top).mapM heap.text <;> rfl
  rw [opened]
  have headers (texts : List String) : (heap.items top).mapM heap.text = .ok texts ↔ _ :=
    mapM_eq_ok heap.text_eq_ok
  cases read : (heap.items top).mapM heap.text with
  | error cause =>
    refine ⟨nofun, fun both => ?_⟩
    cases read.symm.trans ((headers _).mpr ⟨both.1.1, rfl⟩)
  | ok texts =>
    obtain ⟨named, rfl⟩ := (headers texts).mp read
    show (tableUnder heap names (.list body)).bind _ = _ ↔ _
    cases made : tableUnder heap names (.list body) with
    | error cause =>
      refine ⟨nofun, fun both => ?_⟩
      cases made.symm.trans ((tableUnder_eq_ok given).mpr ⟨both.1.2, rfl⟩)
    | ok text =>
      obtain ⟨written, rfl⟩ := (tableUnder_eq_ok given).mp made
      exact ⟨fun same => ⟨⟨named, written⟩, (Except.ok.inj same).symm⟩, fun both => both.2 ▸ rfl⟩

end Builtin

/-- A table under headers, with rows of any lengths, is made exactly if the headers have texts and so
do the cells under them. It has a line of headers, a line of dashes and a line for each row, all of
the same length, in columns of the least widths that fit what stands in them. Without line breaks in
the texts, these are the lines of the result. -/
theorem table_is_aligned (heap : Heap) (draw : Nat) {top body : Nat} {rows : List Nat}
    (given : heap.items body = rows.map Value.list) (filled : rows ≠ []) :
    let names := (heap.items top).map heap.label
    let cells := rows.map fun row => ((heap.items row).take names.length).map heap.label
    ((∃ result, Builtin.apply heap draw .printTable [.list top, .list body] = .ok result) ↔
      (∀ header ∈ heap.items top, heap.HasText header) ∧
        ∀ row ∈ rows, ∀ cell ∈ (heap.items row).take names.length, heap.HasText cell) ∧
    ∀ result, Builtin.apply heap draw .printTable [.list top, .list body] = .ok result →
      ∃ columns lines, result = (.string ("\n".intercalate lines), heap) ∧
        Grid.IsAligned names cells columns lines ∧
        ((∀ row ∈ names :: cells, ∀ cell ∈ row, '\n' ∉ cell.toList) →
          ("\n".intercalate lines).toList.splitOn '\n' = lines.map String.toList) := by
  intro names cells
  refine ⟨⟨?_, fun texts => ⟨_, (Builtin.apply_printTable draw given filled).mpr ⟨texts, rfl⟩⟩⟩, ?_⟩
  · rintro ⟨result, made⟩
    exact ((Builtin.apply_printTable draw given filled).mp made).1
  · intro result made
    have same := ((Builtin.apply_printTable draw given filled).mp made).2
    exact ⟨_, _, same, Grid.isAligned_lines names cells, Grid.splitOn_lines _⟩

/-- A row that lacks its second cell, and one with a cell more than there are headers. -/
theorem table_is_aligned_with_ragged_rows :
    let heap : Heap := ⟨#[.list [.string "id", .string "name"], .list [.list 2, .list 3],
      .list [.string "short"], .list [.boolean true, .nothing, .string "more"]], 0, []⟩
    let text := "id    | name\n------------\nshort |     \nTrue  | None"
    heap.items 1 = [2, 3].map Value.list ∧
      Builtin.apply heap 0 .printTable [.list 0, .list 1] = .ok (.string text, heap) ∧
      ∃ columns lines, Value.string text = .string ("\n".intercalate lines) ∧
        Grid.IsAligned ["id", "name"] [["short"], ["True", "None"]] columns lines := by
  intro heap text
  have given : heap.items 1 = [2, 3].map Value.list := rfl
  have made : Builtin.apply heap 0 .printTable [.list 0, .list 1] = .ok (.string text, heap) := rfl
  obtain ⟨columns, lines, same, aligned, -⟩ :=
    (@table_is_aligned heap 0 0 1 [2, 3] given (by decide)).2 _ made
  exact ⟨given, made, columns, lines, congrArg Prod.fst same, aligned⟩

end Parlance
