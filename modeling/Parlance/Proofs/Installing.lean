import Parlance.Proofs.FileTrees

/-!
What installing a package puts, and where. Directories are made on the way to the target of the
package; everything else is put at the target or below it.
-/

namespace Parlance

open Parlance.Path List Copying

/-! ### Ways -/

namespace Path

/-- The locations through which parts lead from a location. -/
def way (location : List String) : List String → List (List String)
  | [] => []
  | part :: rest => go location part :: way (go location part) rest

/-- Whether a path is given from the root and has no single dots. -/
structure IsRooted (path : Path) : Prop where
  absolute : path.absolute = true
  noDot : "." ∉ path.parts

theorem settle_append (first second : List String) :
    settle (first ++ second) = second.foldl go (settle first) :=
  foldl_append

variable {parts : List String}

theorem foldl_go_of_notMem (plain : ".." ∉ parts) (location : List String) :
    parts.foldl go location = location ++ parts := by
  induction parts generalizing location with
  | nil => exact (append_nil _).symm
  | cons part rest ih =>
    obtain ⟨here, later⟩ := not_or.mp (mem_cons.not.mp plain)
    rw [foldl_cons, ih later, go, if_neg (Ne.symm here), append_assoc]
    rfl

/-- What a way leads through is where a beginning of it leads. -/
theorem mem_way {location : List String} {place : List String}
    (member : place ∈ way location parts) :
    ∃ front ∈ parts.inits, place = front.foldl go location := by
  induction parts generalizing location with
  | nil => cases member
  | cons part rest ih =>
    rcases mem_cons.mp member with rfl | later
    · exact ⟨[part], (mem_inits _ _).mpr ⟨rest, rfl⟩, rfl⟩
    · obtain ⟨front, begins, rfl⟩ := ih later
      refine ⟨part :: front, (mem_inits _ _).mpr ?_, rfl⟩
      exact cons_prefix_cons.mpr ⟨rfl, (mem_inits _ _).mp begins⟩

end Path

namespace FileTree

variable {tree after : FileTree} {location source : List String} {entry : FileEntry}
  {target : CopyTarget} {text : String} {manner : CopyManner}

/-- Whether parts can be followed from a location: every part but the last is a directory, and no
name is too long. -/
def CanFollow (tree : FileTree) : List String → List String → Prop
  | _, [] => True
  | location, part :: rest => tree.isDirectory location = true ∧ isTooLong part = false ∧
    tree.CanFollow (go location part) rest

/-- Parts that are no single dots lead where they lead, if they can be followed. -/
theorem follow_eq_ok_iff {fault : (String → FileFault) → FileFault} {parts reached : List String}
    (plain : "." ∉ parts) : tree.follow fault location parts = .ok reached ↔
      tree.CanFollow location parts ∧ reached = parts.foldl go location := by
  induction parts generalizing location with
  | nil => simp [follow, CanFollow, eq_comm]
  | cons part rest ih =>
    obtain ⟨here, later⟩ := not_or.mp (mem_cons.not.mp plain)
    rw [CanFollow, foldl_cons, and_assoc, and_assoc, ← ih later, follow, isDirectory, go]
    by_cases back : part = ".."
    · have short : isTooLong ".." = false := by decide
      cases tree.entry? location with
      | none => simp
      | some entry => cases entry <;> simp [back, short]
    · cases tree.entry? location with
      | none => simp
      | some entry => cases entry <;> cases long : isTooLong part <;> simp [back, Ne.symm here]

section

variable {tree : FileTree} {path : Path} (rooted : path.IsRooted)

include rooted

theorem locate_eq_ok_iff : tree.locate path = .ok location ↔
    tree.CanFollow [] path.parts ∧ location = settle path.parts := by
  rw [locate, start, if_pos rooted.absolute]
  exact follow_eq_ok_iff rooted.noDot

/-- A text that is read at a path stands in a file where the path leads. -/
theorem readPath_eq_ok_iff {source : String} : tree.readPath path = .ok source ↔
    tree.CanFollow [] path.parts ∧ ∃ text, tree.entry? (settle path.parts) = some (.file text) ∧
      source = String.ofList (Text.universalNewlines text.toList) := by
  rw [readPath]
  cases located : tree.locate path with
  | ok location =>
    obtain ⟨can, rfl⟩ := (locate_eq_ok_iff rooted).mp located
    simp only [can, readAt, true_and]
    cases tree.entry? (settle path.parts) with
    | none => simp
    | some entry => cases entry <;> simp [eq_comm]
  | error cause =>
    constructor
    · rintro ⟨⟩
    · rintro ⟨can, _⟩
      cases located.symm.trans ((locate_eq_ok_iff rooted).mpr ⟨can, rfl⟩)

end

theorem has_of_readPath {path : Path} {source : String} (read : tree.readPath path = .ok source) :
    tree.has path = .ok true := by
  rw [readPath] at read
  split at read
  · rename_i location located
    rw [readAt] at read
    split at read
    · cases read
    · cases read
    · rename_i held
      rw [has, located]
      dsimp only
      rw [held]
      rfl
  · cases read

/-! ### Copies -/

/-- What copying an entry from a location to another may put. -/
def MayCopy (source target : List String) : FileEntry → List String → FileEntry → Prop
  | .directory, location, entry => entry = .directory ∧ location = target
  | .file text, location, entry =>
    entry = .file text ∧ (location = target ∨ location = target ++ source.getLast?.toList)

theorem MayCopy.isPrefix {target : List String} {copied : FileEntry}
    (allowed : MayCopy source target copied location entry) : target <+: location := by
  cases copied with
  | directory => exact allowed.2 ▸ prefix_rfl
  | file text =>
    rcases allowed.2 with rfl | rfl
    · exact prefix_rfl
    · exact prefix_append _ _

theorem copyTo_ok {shownSource shownTarget : String}
    (copied : tree.copyTo source target shownSource shownTarget text = .ok after) :
    tree.isDirectory target.location = false ∧ after = tree.put target.location (.file text) := by
  rw [copyTo] at copied
  split at copied
  · cases copied
  split at copied
  · cases copied
  · rename_i free
    exact ⟨Bool.eq_false_iff.mpr free, (Except.ok.inj copied).symm⟩

/-- A file is put at the target or, if a directory is there, into it. -/
theorem copyFile_ok (copied : tree.copyFile manner source target text = .ok after) :
    ∃ place, tree.isDirectory place = false ∧ after = tree.put place (.file text) ∧
      (tree.isDirectory target.location = false ∧ place = target.location ∨
        tree.isDirectory target.location = true ∧
          place = target.location ++ source.getLast?.toList) := by
  rw [copyFile] at copied
  dsimp only at copied
  split at copied
  · rename_i directory
    obtain ⟨free, same⟩ := copyTo_ok copied
    exact ⟨_, free, same, .inr ⟨directory, rfl⟩⟩
  · rename_i other
    obtain ⟨free, same⟩ := copyTo_ok copied
    exact ⟨_, free, same, .inl ⟨Bool.eq_false_iff.mpr other, rfl⟩⟩

theorem entry?_copyFile (copied : tree.copyFile manner source target text = .ok after)
    (free : tree.isDirectory target.location = false) :
    after.entry? target.location = some (.file text) := by
  obtain ⟨place, vacant, rfl, ⟨_, rfl⟩ | ⟨directory, _⟩⟩ := copyFile_ok copied
  · exact CanHold.entry?_put (show tree.CanHold _ (.file text) from vacant)
  · cases directory.symm.trans free

theorem becomes_copyFile (copied : tree.copyFile manner source target text = .ok after) :
    Becomes (MayCopy source target.location (.file text)) tree after := by
  obtain ⟨place, free, rfl, place_eq⟩ := copyFile_ok copied
  refine .one ⟨rfl, ?_⟩ free
  rcases place_eq with ⟨_, same⟩ | ⟨_, same⟩
  · exact .inl same
  · exact .inr same

theorem copyDirectory_ok (copied : tree.copyDirectory target = .ok after) :
    (tree.entry? target.location = none ∧ after = tree.put target.location .directory) ∨
      (tree.isDirectory target.location = true ∧ after = tree) := by
  rw [copyDirectory] at copied
  split at copied
  · rename_i free
    exact .inl ⟨free, (Except.ok.inj copied).symm⟩
  · rename_i there
    exact .inr ⟨decide_eq_true there, (Except.ok.inj copied).symm⟩
  · cases copied

theorem isDirectory_copyDirectory (copied : tree.copyDirectory target = .ok after) :
    after.isDirectory target.location = true := by
  rcases copyDirectory_ok copied with ⟨free, rfl⟩ | ⟨there, rfl⟩
  · exact decide_eq_true (CanHold.entry?_put (show tree.CanHold _ .directory from free))
  · exact there

theorem becomes_copyDirectory (copied : tree.copyDirectory target = .ok after)
    (source : List String) : Becomes (MayCopy source target.location .directory) tree after := by
  rcases copyDirectory_ok copied with ⟨free, rfl⟩ | ⟨_, rfl⟩
  · exact .one ⟨rfl, rfl⟩ free
  · exact .same _

theorem becomes_copyEntry (copied : tree.copyEntry source target entry = .ok after) :
    Becomes (MayCopy source target.location entry) tree after := by
  cases entry with
  | directory => exact becomes_copyDirectory copied source
  | file text => exact becomes_copyFile copied

end FileTree

open FileTree (Becomes MayCopy)

/-- What copying things below a directory may put. -/
def MayCopyAll (source target : List String) (items : List (List String × FileEntry))
    (location : List String) (entry : FileEntry) : Prop :=
  ∃ item ∈ items, MayCopy item.1 (target ++ item.1.drop source.length) item.2 location entry

theorem MayCopyAll.isPrefix {source target location : List String}
    {items : List (List String × FileEntry)} {entry : FileEntry}
    (allowed : MayCopyAll source target items location entry) : target <+: location := by
  obtain ⟨item, _, copy⟩ := allowed
  exact (prefix_append _ _).trans copy.isPrefix

theorem Copying.becomes_next (source : List String) (target : CopyTarget) (copying : Copying)
    (item : List String × FileEntry) :
    Becomes (MayCopy item.1 (target.location ++ item.1.drop source.length) item.2)
      copying.tree (copying.next source target item).tree := by
  rw [next]
  split
  · exact .same _
  · dsimp only
    split
    · rename_i copied
      exact FileTree.becomes_copyEntry copied
    · exact .same _

theorem Copying.becomes_foldl (source : List String) (target : CopyTarget)
    (items : List (List String × FileEntry)) (copying : Copying) :
    Becomes (MayCopyAll source target.location items) copying.tree
      (items.foldl (next source target) copying).tree := by
  induction items generalizing copying with
  | nil => exact .same _
  | cons item rest ih =>
    have first : Becomes (MayCopyAll source target.location (item :: rest)) copying.tree
        (copying.next source target item).tree :=
      (becomes_next source target copying item).mono fun _ _ allowed =>
        ⟨item, mem_cons_self, allowed⟩
    refine first.trans ((ih _).mono fun location entry allowed => ?_)
    obtain ⟨other, member, copy⟩ := allowed
    exact ⟨other, mem_cons_of_mem _ member, copy⟩

/-! ### Changes -/

namespace FileChange

def MayBelow (target location : List String) (_ : FileEntry) : Prop := target <+: location

variable {α ε : Type}

theorem get_bind (next : FileTree → FileChange α) (tree : FileTree) :
    (get >>= next : FileChange α) tree = next tree tree := rfl

variable (path : Path) (source : List String)

/-- One part of a way: it cannot be made, it is there, or it is put. -/
theorem makeAlong_cases (location : List String) (name : String) (rest : List String)
    (tree : FileTree) :
    (∃ cause, makeAlong path location (name :: rest) tree = .error cause tree) ∨
    (tree.isDirectory (go location name) = true ∧
      makeAlong path location (name :: rest) tree =
        makeAlong path (go location name) rest tree) ∨
    (tree.entry? (go location name) = none ∧
      makeAlong path location (name :: rest) tree =
        makeAlong path (go location name) rest (tree.put (go location name) .directory)) := by
  generalize ended : makeAlong path location (name :: rest) tree = result
  cases long : FileTree.isTooLong name with
  | true =>
    rw [makeAlong, if_pos long] at ended
    exact .inl ⟨_, ended.symm⟩
  | false =>
    rw [makeAlong, if_neg (Bool.eq_false_iff.mp long)] at ended
    dsimp only at ended
    rw [get_bind] at ended
    cases held : tree.entry? (go location name) with
    | none =>
      rw [held] at ended
      exact .inr (.inr ⟨rfl, ended.symm⟩)
    | some entry =>
      rw [held] at ended
      cases entry with
      | directory => exact .inr (.inl ⟨decide_eq_true held, ended.symm⟩)
      | file text => exact .inl ⟨_, ended.symm⟩

theorem puts_makeAlong (location names : List String) :
    Puts (fun place entry => entry = .directory ∧ place ∈ way location names)
      (makeAlong path location names) := by
  induction names generalizing location with
  | nil => exact puts_pure ()
  | cons name rest ih =>
    have later : Puts (fun place entry =>
        entry = .directory ∧ place ∈ way location (name :: rest))
        (makeAlong path (go location name) rest) :=
      (ih (go location name)).mono fun _ _ allowed =>
        ⟨allowed.1, mem_cons_of_mem _ allowed.2⟩
    intro tree
    rcases makeAlong_cases path location name rest tree with ⟨cause, ended⟩ | ⟨_, ended⟩ |
      ⟨free, ended⟩
    · rw [final, ended]
      exact .same tree
    · rw [final, ended]
      exact later tree
    · rw [final, ended]
      refine Becomes.trans (.one ?_ ?_) (later _)
      · exact ⟨rfl, mem_cons_self⟩
      · exact free

theorem puts_makeDirectories {path : Path} (absolute : path.absolute = true) :
    Puts (fun place entry => entry = .directory ∧ place ∈ way [] path.parts)
      (makeDirectories path) := by
  intro tree
  unfold makeDirectories
  split
  · exact .same tree
  · have along := puts_makeAlong path (tree.start path.absolute) path.parts tree
    rw [FileTree.start, if_pos absolute] at along
    change Becomes _ tree (final (makeAlong path (tree.start path.absolute) path.parts) tree)
    rwa [FileTree.start, if_pos absolute]

/-- Copying a directory: its copy cannot be made, or everything below it is copied in turn. -/
theorem copyAll_cases (target : CopyTarget) (tree : FileTree) :
    (∃ cause, copyAll source target tree = .error cause tree) ∨
    ∃ made copying, tree.copyDirectory target = .ok made ∧
      copying = (tree.below source).foldl (next source target) ⟨made, [], []⟩ ∧
      (copying.failures = [] ∧ copyAll source target tree = .ok () copying.tree ∨
        ∃ cause, copyAll source target tree = .error cause copying.tree) := by
  cases made : tree.copyDirectory target with
  | error cause =>
    refine .inl ⟨.file cause, ?_⟩
    have failed : step (fun files => (files.copyDirectory target).mapError Refusal.file) tree =
        .error (.file cause) tree := by
      rw [step, made]
      rfl
    change EStateM.bind (step _) _ tree = _
    rw [EStateM.bind, failed]
  | ok between =>
    refine .inr ⟨between, _, rfl, rfl, ?_⟩
    have done : step (fun files => (files.copyDirectory target).mapError Refusal.file) tree =
        .ok () between := by
      rw [step, made]
      rfl
    have ended : copyAll source target tree =
        (if !((tree.below source).foldl (next source target)
            ⟨between, [], []⟩).failures.isEmpty then
          throw (.copy ((tree.below source).foldl (next source target)
            ⟨between, [], []⟩).failures)
        else pure () : FileChange Unit)
          ((tree.below source).foldl (next source target) ⟨between, [], []⟩).tree := by
      change EStateM.bind (step _) _ tree = _
      rw [EStateM.bind, done]
      rfl
    rw [ended]
    generalize (tree.below source).foldl (next source target) ⟨between, [], []⟩ = copying
    cases failures : copying.failures with
    | nil => exact .inl ⟨rfl, rfl⟩
    | cons first others => exact .inr ⟨_, rfl⟩

theorem puts_copyAll (target : CopyTarget) :
    Puts (MayBelow target.location) (copyAll source target) := by
  intro tree
  rcases copyAll_cases source target tree with ⟨cause, ended⟩ | ⟨made, copying, copied, rfl, ends⟩
  · rw [final, ended]
    exact .same tree
  · have becomes : Becomes (MayBelow target.location) tree
        ((tree.below source).foldl (next source target) ⟨made, [], []⟩).tree := by
      refine Becomes.trans ((FileTree.becomes_copyDirectory copied source).mono ?_)
        ((becomes_foldl source target _ ⟨made, [], []⟩).mono ?_)
      · exact fun _ _ allowed => allowed.isPrefix
      · exact fun _ _ allowed => allowed.isPrefix
    rcases ends with ⟨_, ended⟩ | ⟨cause, ended⟩
    · rw [final, ended]
      exact becomes
    · rw [final, ended]
      exact becomes

theorem ok_of_mapError {δ : Type} {result : Except ε α} {f : ε → δ} {value : α}
    (ended : result.mapError f = .ok value) : result = .ok value := by
  cases result with
  | ok other =>
    cases ended
    rfl
  | error cause => cases ended

theorem ok_of_toOption {result : Except ε α} {value : α} (ended : result.toOption = some value) :
    result = .ok value := by
  cases result with
  | ok other =>
    cases ended
    rfl
  | error cause => cases ended

theorem puts_copy (target : CopyTarget) : Puts (MayBelow target.location) (copy source target) := by
  refine puts_bind puts_get fun tree => ?_
  split
  · exact puts_pure ()
  · exact puts_copyAll source target
  · refine puts_step fun files after copied => ?_
    exact (FileTree.becomes_copyFile (ok_of_mapError copied)).mono fun _ _ allowed =>
      allowed.isPrefix

end FileChange

open FileChange

namespace FileTree

theorem writePath_ok {tree after : FileTree} {path : Path} {text : String}
    (written : tree.writePath path text = .ok after) :
    ∃ location, tree.locate path = .ok location ∧ tree.isDirectory location = false ∧
      after = tree.put location (.file text) := by
  rw [writePath] at written
  split at written
  · rename_i location located
    rw [writeAt] at written
    split at written
    · cases written
    · rename_i free
      exact ⟨location, located, Bool.eq_false_iff.mpr free, (Except.ok.inj written).symm⟩
  · cases written

end FileTree

namespace Package

theorem puts_copyContent (source : List String) (target : CopyTarget) :
    Puts (MayBelow target.location) (copyContent source target) := by
  have below (name : String) (location : List String) (entry : FileEntry)
      (allowed : MayBelow (target.below [name]).location location entry) :
      MayBelow target.location location entry :=
    (prefix_append _ _).trans allowed
  refine puts_bind puts_get fun files => ?_
  dsimp only
  split
  · exact (puts_copyAll _ _).mono (below "src")
  · exact puts_throw _
  · generalize List.filter _ _ = names
    induction names with
    | nil => exact puts_pure _
    | cons name rest ih =>
      exact puts_bind ((puts_copy _ _).mono (below name)) fun _ => ih

theorem ofText_manifestName : ofText manifestName = ⟨false, [manifestName]⟩ := by decide

theorem joinText_manifestName (path : Path) :
    path.joinText manifestName = ⟨path.absolute, path.parts ++ [manifestName]⟩ := by
  rw [joinText, ofText_manifestName]
  rfl

theorem isRooted_manifest {path : Path} (rooted : path.IsRooted) :
    (path.joinText manifestName).IsRooted := by
  rw [joinText_manifestName]
  exact ⟨rooted.absolute, by simpa [manifestName] using rooted.noDot⟩

/-- What may be put on the way to a target, and at the target or below it. -/
def MayFill (target : Path) (location : List String) (entry : FileEntry) : Prop :=
  (entry = .directory ∧ location ∈ way [] target.parts) ∨
    settle target.parts <+: location

/-- Installing makes the way to the target and puts everything else at the target or below it. -/
theorem Order.puts_fill (order : Order) {target : Path} (rooted : target.IsRooted) :
    Puts (MayFill target) (order.fill target) := by
  have made : Puts (MayFill target) (makeDirectories target) :=
    (puts_makeDirectories rooted.absolute).mono fun _ _ => .inl
  refine puts_bind made fun _ => puts_reading_bind fun tree location located => ?_
  obtain ⟨-, rfl⟩ := (FileTree.locate_eq_ok_iff rooted).mp (ok_of_mapError located)
  have content : Puts (MayFill target)
      (copyContent order.source.parts ⟨settle target.parts, target⟩) :=
    (puts_copyContent _ _).mono fun _ _ => .inr
  refine puts_bind content (fun _ => puts_step fun files after written => ?_) tree
  obtain ⟨location, found, free, rfl⟩ := FileTree.writePath_ok written
  obtain ⟨-, rfl⟩ := (FileTree.locate_eq_ok_iff (isRooted_manifest rooted)).mp found
  refine .one (.inr ?_) free
  rw [joinText_manifestName, settle_append]
  exact prefix_append _ _

end Package

end Parlance
