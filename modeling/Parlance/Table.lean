/-!
Tables from names to values in the order in which the names were first entered. Entering a name
again changes its value and keeps its place.
-/

namespace Parlance

/-- Names with their values, each name once, oldest first. -/
abbrev Table (α : Type) := List (String × α)

namespace Table

variable {α : Type}

def get? : Table α → String → Option α
  | [], _ => none
  | (key, value) :: rest, name => if key = name then some value else get? rest name

/-- The table with a value for a name: in the name's place if it has one, else at the end. -/
def insert : Table α → String → α → Table α
  | [], name, value => [(name, value)]
  | (key, old) :: rest, name, value =>
    if key = name then (key, value) :: rest else (key, old) :: insert rest name value

/-- The table without a name. -/
def erase : Table α → String → Table α
  | [], _ => []
  | (key, value) :: rest, name =>
    if key = name then erase rest name else (key, value) :: erase rest name

def names (table : Table α) : List String := table.map Prod.fst

theorem get?_insert (table : Table α) (name other : String) (value : α) :
    get? (insert table name value) other =
      if name = other then some value else get? table other := by
  induction table with
  | nil => simp [insert, get?]
  | cons entry rest ih =>
    obtain ⟨key, old⟩ := entry
    unfold insert
    split
    · rename_i same
      subst same
      unfold get?
      split <;> rfl
    · rename_i different
      unfold get?
      rw [ih]
      split
      · rename_i here
        subst here
        rw [if_neg (Ne.symm different)]
      · rfl

theorem get?_erase (table : Table α) (name : String) : get? (erase table name) name = none := by
  induction table with
  | nil => rfl
  | cons entry rest ih =>
    obtain ⟨key, value⟩ := entry
    unfold erase
    split
    · exact ih
    · rename_i different
      rw [get?, if_neg different, ih]

theorem get?_erase_of_ne (table : Table α) {name other : String} (different : name ≠ other) :
    get? (erase table name) other = get? table other := by
  induction table with
  | nil => rfl
  | cons entry rest ih =>
    obtain ⟨key, value⟩ := entry
    unfold erase
    split
    · rename_i here
      rw [ih, get?, if_neg (here ▸ different)]
    · rw [get?, get?, ih]

theorem mem_of_get? {table : Table α} {name : String} {value : α}
    (found : get? table name = some value) : (name, value) ∈ table := by
  induction table with
  | nil => cases found
  | cons entry rest ih =>
    obtain ⟨key, first⟩ := entry
    unfold get? at found
    split at found
    · rename_i here
      cases found
      rw [here]
      exact List.mem_cons_self
    · exact List.mem_cons_of_mem _ (ih found)

theorem mem_insert {table : Table α} {name : String} {value : α} {entry : String × α}
    (member : entry ∈ insert table name value) : entry ∈ table ∨ entry.2 = value := by
  induction table with
  | nil =>
    rw [insert, List.mem_singleton] at member
    exact .inr (congrArg Prod.snd member)
  | cons other rest ih =>
    obtain ⟨key, old⟩ := other
    unfold insert at member
    split at member
    · rcases List.mem_cons.mp member with rfl | later
      · exact .inr rfl
      · exact .inl (List.mem_cons_of_mem _ later)
    · rcases List.mem_cons.mp member with rfl | later
      · exact .inl List.mem_cons_self
      · exact (ih later).imp_left (List.mem_cons_of_mem _)

theorem mem_of_mem_erase {table : Table α} {name : String} {entry : String × α}
    (member : entry ∈ erase table name) : entry ∈ table := by
  induction table with
  | nil => cases member
  | cons other rest ih =>
    obtain ⟨key, value⟩ := other
    unfold erase at member
    split at member
    · exact List.mem_cons_of_mem _ (ih member)
    · rcases List.mem_cons.mp member with rfl | later
      · exact List.mem_cons_self
      · exact List.mem_cons_of_mem _ (ih later)

/-! ### Changing every value -/

variable {β : Type}

def mapValues (change : α → β) (table : Table α) : Table β :=
  table.map fun entry => (entry.1, change entry.2)

variable (change : α → β)

theorem get?_mapValues (table : Table α) (name : String) :
    get? (mapValues change table) name = (get? table name).map change := by
  induction table with
  | nil => rfl
  | cons entry rest ih =>
    obtain ⟨key, value⟩ := entry
    show get? ((key, change value) :: mapValues change rest) name = _
    rw [get?, get?, ih]
    split <;> rfl

theorem mapValues_insert (table : Table α) (name : String) (value : α) :
    mapValues change (insert table name value) =
      insert (mapValues change table) name (change value) := by
  induction table with
  | nil => rfl
  | cons entry rest ih =>
    obtain ⟨key, old⟩ := entry
    show _ = insert ((key, change old) :: mapValues change rest) name (change value)
    rw [insert, insert, ← ih]
    split <;> rfl

theorem mapValues_erase (table : Table α) (name : String) :
    mapValues change (erase table name) = erase (mapValues change table) name := by
  induction table with
  | nil => rfl
  | cons entry rest ih =>
    obtain ⟨key, value⟩ := entry
    show _ = erase ((key, change value) :: mapValues change rest) name
    rw [erase, erase, ← ih]
    split <;> rfl

end Table

end Parlance
