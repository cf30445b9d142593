/-!
Parts of texts: where one text stands inside another, what lies between the places where it stands,
and pieces by position.
-/

namespace Parlance.Text

def occursIn (pattern : List Char) : List Char → Bool
  | [] => pattern.isEmpty
  | c :: rest => pattern.isPrefixOf (c :: rest) || occursIn pattern rest

/-- The pieces between the places where a separator stands, from left to right. `skip` counts the
characters of a separator that are still to be passed over. -/
def piecesFrom (separator : List Char) : (skip : Nat) → List Char → List (List Char)
  | _, [] => [[]]
  | skip + 1, _ :: rest => piecesFrom separator skip rest
  | 0, c :: rest =>
    if separator.isPrefixOf (c :: rest) then
      [] :: piecesFrom separator (separator.length - 1) rest
    else
      match piecesFrom separator 0 rest with
      | [] => [[c]]
      | first :: others => (c :: first) :: others

/-- The pieces between the places where a separator, which is not empty, stands. -/
def pieces (separator cs : List Char) : List (List Char) := piecesFrom separator 0 cs

def splitAt (separator : Char) : List Char → List (List Char)
  | [] => [[]]
  | c :: rest =>
    if c = separator then [] :: splitAt separator rest
    else
      match splitAt separator rest with
      | [] => [[c]]
      | first :: others => (c :: first) :: others

/-- The parts of a text between the places where a character stands. -/
def parts (separator : Char) (text : String) : List String :=
  (splitAt separator text.toList).map String.ofList

theorem splitAt_ne_nil (separator : Char) (cs : List Char) : splitAt separator cs ≠ [] := by
  cases cs with
  | nil => exact List.cons_ne_nil _ _
  | cons c rest =>
    unfold splitAt
    split
    · exact List.cons_ne_nil _ _
    · split <;> exact List.cons_ne_nil _ _

theorem splitAt_of_notMem {separator : Char} {cs : List Char} (none : separator ∉ cs) :
    splitAt separator cs = [cs] := by
  induction cs with
  | nil => rfl
  | cons c rest ih =>
    have here : c ≠ separator := fun same => none (same ▸ List.mem_cons_self)
    rw [splitAt, if_neg here, ih fun later => none (List.mem_cons_of_mem _ later)]

theorem splitAt_append {separator : Char} {front : List Char} (none : separator ∉ front)
    (rest : List Char) :
    splitAt separator (front ++ separator :: rest) = front :: splitAt separator rest := by
  induction front with
  | nil => exact if_pos rfl
  | cons c front ih =>
    have here : c ≠ separator := fun same => none (same ▸ List.mem_cons_self)
    rw [List.cons_append, splitAt, if_neg here,
      ih fun later => none (List.mem_cons_of_mem _ later)]

/-- What stands between two places is part of the text, without the character. -/
theorem mem_of_mem_splitAt {separator : Char} {cs piece : List Char}
    (member : piece ∈ splitAt separator cs) : ∀ c ∈ piece, c ∈ cs ∧ c ≠ separator := by
  induction cs generalizing piece with
  | nil =>
    rw [splitAt, List.mem_singleton] at member
    rw [member]
    exact List.forall_mem_nil _
  | cons first rest ih =>
    have later (other : List Char) (found : other ∈ splitAt separator rest) (c : Char)
        (inside : c ∈ other) : c ∈ first :: rest ∧ c ≠ separator :=
      (ih found c inside).imp_left (List.mem_cons_of_mem _)
    rw [splitAt] at member
    split at member
    · rcases List.mem_cons.mp member with rfl | found
      · exact List.forall_mem_nil _
      · exact later piece found
    · rename_i differs
      split at member
      · rw [List.mem_singleton] at member
        rw [member]
        simpa using differs
      · rename_i piece' others split
        rw [split] at later
        rcases List.mem_cons.mp member with rfl | found
        · intro c inside
          rcases List.mem_cons.mp inside with rfl | inside
          · exact ⟨List.mem_cons_self, differs⟩
          · exact later piece' List.mem_cons_self c inside
        · exact later piece (List.mem_cons_of_mem _ found)

/-- The text with another one in every place where the first stands. Nothing stands before every
character and at the end. -/
def replaced (old new cs : List Char) : List Char :=
  if old.isEmpty then new ++ cs.flatMap fun c => c :: new
  else new.intercalate (pieces old cs)

/-- The place that a number means in a text of that length: numbers below zero count from the end,
and what lies outside is moved to the nearest end. -/
def place (length : Nat) (number : Int) : Nat :=
  let counted := if number < 0 then number + length else number
  Nat.min counted.toNat length

def slice (cs : List Char) (start stop : Int) : List Char :=
  let first := place cs.length start
  (cs.take (place cs.length stop)).drop first

end Parlance.Text
