import Mathlib.Data.List.Infix
import Parlance.Package

/-!
What changes of files can do. Every change is a sequence of puts: a directory is put where nothing
was, and a file where no directory was. Which locations are touched is said once for each change;
what stays as it was, and that directories stay directories, follows from the puts.
-/

namespace Parlance

namespace Except

variable {ε α β : Type} {action : Except ε α} {next : α → Except ε β}

theorem bind_eq_ok {value : β} (ended : (action >>= next) = .ok value) :
    ∃ found, action = .ok found ∧ next found = .ok value := by
  cases action with
  | error cause => cases ended
  | ok found => exact ⟨found, rfl, ended⟩

theorem bind_congr {other : α → Except ε β}
    (same : ∀ found, action = .ok found → next found = other found) :
    (action >>= next) = (action >>= other) := by
  cases action with
  | error cause => rfl
  | ok found => exact same found rfl

end Except

variable {α β : Type}

namespace FileTree

/-! ### Putting -/

theorem lookup_map_put (location : List String) (entry : FileEntry) (other : List String)
    (entries : List (List String × FileEntry)) :
    (entries.map fun old => if old.1 = location then (location, entry) else old).lookup other =
      if other = location ∧ (entries.lookup location).isSome then some entry
      else entries.lookup other := by
  induction entries with
  | nil => simp
  | cons old rest ih =>
    obtain ⟨key, value⟩ := old
    by_cases same : other = key
    · subst same
      by_cases here : other = location
      · subst here
        simp
      · simp [here]
    · have test : (other == key) = false := beq_eq_false_iff_ne.mpr same
      by_cases here : key = location
      · subst here
        simp [List.lookup_cons, test, same, ih]
      · rw [List.map_cons, if_neg here]
        simp only [List.lookup_cons, test, ih]
        by_cases sought : other = location
        · subst sought
          simp only [test]
        · simp only [sought, false_and]

variable {location : List String} {tree : FileTree} {entry : FileEntry}

/-- What is put at a location below the root is there, and everything else is as it was. -/
theorem entry?_put (tree : FileTree) (below : location ≠ []) (entry : FileEntry)
    (other : List String) :
    FileTree.entry? (tree.put location entry) other =
      if other = location then some entry else tree.entry? other := by
  by_cases root : other = []
  · subst root
    rw [ entry?, entry?, if_pos rfl, if_pos rfl, if_neg (Ne.symm below)]
  rw [ entry?, entry?, if_neg root, if_neg root, put]
  split
  · rename_i present
    rw [lookup_map_put]
    simp only [present, and_true]
  · rename_i missing
    rw [List.lookup_append]
    by_cases same : other = location
    · subst same
      rw [Option.not_isSome_iff_eq_none.mp missing, if_pos rfl]
      simp
    · have apart : [(location, entry)].lookup other = none := by
        rw [List.lookup_cons, beq_eq_false_iff_ne.mpr same]
        rfl
      rw [apart, if_neg same, Option.or_none]

theorem mem_entries (below : location ≠ []) (held : tree.entry? location = some entry) :
    (location, entry) ∈ tree.entries := by
  rw [ entry?, if_neg below] at held
  obtain ⟨front, rest, whole, _⟩ := List.lookup_eq_some_iff.mp held
  rw [whole]
  exact List.mem_append_right _ List.mem_cons_self

theorem places_put (tree : FileTree) (location : List String) (entry : FileEntry) :
    (tree.put location entry).work = tree.work ∧ (tree.put location entry).home = tree.home ∧
      (tree.put location entry).library = tree.library := by
  unfold put
  split <;> exact ⟨rfl, rfl, rfl⟩

/-! ### Sequences of puts -/

def CanHold (tree : FileTree) (location : List String) : FileEntry → Prop
  | .directory => tree.entry? location = none
  | .file _ => tree.isDirectory location = false

theorem CanHold.ne_nil (free : tree.CanHold location entry) : location ≠ [] := by
  rintro rfl
  cases entry <;> cases free

theorem CanHold.entry?_put (free : tree.CanHold location entry) :
    FileTree.entry? (tree.put location entry) location = some entry := by
  rw [FileTree.entry?_put tree free.ne_nil, if_pos rfl]

/-- Whether a tree becomes another by puts of entries that may be put where they are. -/
inductive Becomes (may : List String → FileEntry → Prop) : FileTree → FileTree → Prop
  | same (tree : FileTree) : Becomes may tree tree
  | put {before tree : FileTree} {location : List String} {entry : FileEntry} :
    Becomes may before tree → may location entry → tree.CanHold location entry →
    Becomes may before (tree.put location entry)

namespace Becomes

variable {may : List String → FileEntry → Prop} {before between after : FileTree}

theorem one {entry : FileEntry} (allowed : may location entry)
    (free : before.CanHold location entry) : Becomes may before (before.put location entry) :=
  .put (.same before) allowed free

theorem trans (first : Becomes may before between) (second : Becomes may between after) :
    Becomes may before after := by
  induction second with
  | same => exact first
  | put _ allowed free ih => exact .put ih allowed free

theorem mono {more : List String → FileEntry → Prop} (becomes : Becomes may before after)
    (wider : ∀ location entry, may location entry → more location entry) :
    Becomes more before after := by
  induction becomes with
  | same => exact .same _
  | put _ allowed free ih =>
    exact .put ih (wider _ _ allowed) free

theorem places (becomes : Becomes may before after) :
    after.work = before.work ∧ after.home = before.home ∧ after.library = before.library := by
  induction becomes with
  | same => exact ⟨rfl, rfl, rfl⟩
  | put _ _ _ ih =>
    obtain ⟨work, home, library⟩ := places_put _ _ _
    exact ⟨work.trans ih.1, home.trans ih.2.1, library.trans ih.2.2⟩

/-- What is at a location stays there or has been put there; a directory, where nothing was. -/
theorem entry?_cases (becomes : Becomes may before after) (location : List String) :
    after.entry? location = before.entry? location ∨
      ∃ entry, may location entry ∧ after.entry? location = some entry ∧
        (entry = .directory → before.entry? location = none) := by
  induction becomes with
  | same => exact .inl rfl
  | @put tree place entry _ allowed free ih =>
    rw [entry?_put tree free.ne_nil]
    by_cases here : location = place
    · subst here
      rw [if_pos rfl]
      refine .inr ⟨entry, allowed, rfl, ?_⟩
      rintro rfl
      rcases ih with same | ⟨other, _, held, _⟩
      · exact same.symm.trans free
      · cases held.symm.trans free
    · rw [if_neg here]
      exact ih

variable {location : List String}

theorem entry?_eq (becomes : Becomes may before after) (never : ∀ entry, ¬ may location entry) :
    after.entry? location = before.entry? location := by
  rcases becomes.entry?_cases location with same | ⟨entry, allowed, _⟩
  · exact same
  · exact absurd allowed (never entry)

theorem isDirectory (becomes : Becomes may before after)
    (directory : before.isDirectory location = true) : after.isDirectory location = true := by
  induction becomes with
  | same => exact directory
  | @put tree place entry _ _ free ih =>
    rw [FileTree.isDirectory, entry?_put tree free.ne_nil]
    by_cases here : location = place
    · subst here
      have held : tree.entry? location = some .directory := of_decide_eq_true ih
      cases entry with
      | directory => cases held.symm.trans free
      | file text => cases ih.symm.trans free
    · rw [if_neg here]
      exact ih

/-- A directory has been there, or nothing has and a directory has been put there. -/
theorem isDirectory_cases (becomes : Becomes may before after)
    (directory : after.isDirectory location = true) :
    before.isDirectory location = true ∨
      may location .directory := by
  induction becomes with
  | same => exact .inl directory
  | @put tree place entry _ allowed free ih =>
    rw [FileTree.isDirectory, entry?_put tree free.ne_nil] at directory
    by_cases here : location = place
    · subst here
      rw [if_pos rfl] at directory
      obtain rfl : entry = .directory := Option.some.inj (of_decide_eq_true directory)
      exact .inr allowed
    · rw [if_neg here] at directory
      exact ih directory

end Becomes

end FileTree

/-! ### Changes -/

namespace FileChange

open FileTree (Becomes)

variable {may : List String → FileEntry → Prop}

/-- The files after a change, however it ends. -/
def final (change : FileChange α) (tree : FileTree) : FileTree :=
  match change tree with
  | .ok _ after => after
  | .error _ after => after

variable {change : FileChange α} {next : α → FileChange β}

theorem final_ok {tree after : FileTree} {value : α} (ended : change tree = .ok value after) :
    change.final tree = after := by
  rw [final, ended]

def Puts (may : List String → FileEntry → Prop) (change : FileChange α) : Prop :=
  ∀ tree, Becomes may tree (change.final tree)

theorem puts_pure (value : α) : Puts may (pure value : FileChange α) := fun tree => .same tree

theorem puts_throw (cause : Refusal) : Puts may (throw cause : FileChange α) := fun tree => .same tree

theorem puts_get : Puts may (get : FileChange FileTree) := fun tree => .same tree

theorem puts_bind (head : Puts may change) (tail : ∀ value, Puts may (next value)) :
    Puts may (change >>= next) := by
  intro tree
  have first := head tree
  change Becomes may tree (final (EStateM.bind change next) tree)
  unfold final EStateM.bind
  cases ended : change tree with
  | ok value between =>
    rw [final, ended] at first
    exact first.trans (tail value between)
  | error cause between =>
    rw [final, ended] at first
    exact first

theorem puts_step {action : FileTree → Except Refusal FileTree}
    (each : ∀ tree after, action tree = .ok after → Becomes may tree after) :
    Puts may (step action) := by
  intro tree
  rw [final, step]
  cases ended : action tree with
  | ok after => exact each tree after ended
  | error cause => exact .same tree

/-- Something is read, and what is done then depends on it. -/
theorem puts_reading_bind {view : FileTree → Except Refusal α}
    (tail : ∀ tree value, view tree = .ok value → Becomes may tree ((next value).final tree)) :
    Puts may (reading view >>= next) := by
  intro tree
  change Becomes may tree (final (EStateM.bind (reading view) next) tree)
  unfold final EStateM.bind reading
  cases seen : view tree with
  | ok value => exact tail tree value seen
  | error cause => exact .same tree

theorem Puts.mono {more : List String → FileEntry → Prop} (puts : Puts may change)
    (wider : ∀ location entry, may location entry → more location entry) :
    Puts more change := fun tree => (puts tree).mono wider

end FileChange

end Parlance
