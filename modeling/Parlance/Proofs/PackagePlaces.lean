import Parlance.Proofs.Installing
import Parlance.Proofs.Plain

/-!
Where packages are kept. Names, versions and entries of packages are paths, and a path can lead
anywhere.
-/

namespace Parlance

open Parlance.Path Package Engine Run List Candidate

variable {α : Type}

/-! ### Places that paths lead into -/

namespace Path

/-- Whether a location is on the way to a place, or inside it. -/
def isAlong (place location : List String) : Bool :=
  location.isPrefixOf place || place.isPrefixOf location

/-- Whether a path from the root leads into a place, and nowhere else on its way. -/
def leadsInto (path : Path) (place : List String) : Bool :=
  path.absolute && path.parts.all (· ≠ ".") && place.isPrefixOf (settle path.parts) &&
    path.parts.inits.all fun front => isAlong place (settle front)

variable {place location : List String} {path : Path}

theorem isAlong_iff : isAlong place location = true ↔ location <+: place ∨ place <+: location := by
  rw [isAlong, Bool.or_eq_true, isPrefixOf_iff_prefix, isPrefixOf_iff_prefix]

theorem leadsInto_iff : path.leadsInto place = true ↔ path.IsRooted ∧
      place <+: settle path.parts ∧
        ∀ front, front <+: path.parts → isAlong place (settle front) = true := by
  have dots : (path.parts.all fun part => decide (part ≠ ".")) = true ↔ "." ∉ path.parts := by
    rw [all_eq_true]
    exact ⟨fun each member => of_decide_eq_true (each _ member) rfl,
      fun none part member => decide_eq_true fun same => none (same ▸ member)⟩
  have rooted : path.IsRooted ↔ path.absolute = true ∧ "." ∉ path.parts :=
    ⟨fun rooted => ⟨rooted.absolute, rooted.noDot⟩, fun both => ⟨both.1, both.2⟩⟩
  rw [leadsInto, Bool.and_eq_true, Bool.and_eq_true, Bool.and_eq_true, dots, ← rooted,
    isPrefixOf_iff_prefix, all_eq_true, and_assoc]
  simp only [mem_inits]

theorem isAlong_of_mem_way (leads : path.leadsInto place = true)
    (member : location ∈ way [] path.parts) : isAlong place location = true := by
  obtain ⟨front, begins, rfl⟩ := mem_way member
  exact (leadsInto_iff.mp leads).2.2 front ((mem_inits _ _).mp begins)

end Path

/-! ### Installing -/

/-- Whether everything outside a place is as it was. Directories that were missing on the way to
the place can have been made. -/
def FileTree.KeepsOutside (place : List String) (before after : FileTree) : Prop :=
  ∀ location, ¬ place <+: location → after.entry? location = before.entry? location ∨
    location <+: place ∧ before.entry? location = none ∧ after.entry? location = some .directory

theorem FileTree.KeepsOutside.refl (place : List String) (tree : FileTree) :
    KeepsOutside place tree tree := fun _ _ => .inl rfl

namespace Package

/-- The location of the directory of packages. -/
def storePlace (files : FileTree) : List String := settle (store files).parts

theorem keepsOutside_of_mayFill {target : Path} {place : List String} {before after : FileTree}
    (leads : target.leadsInto place = true)
    (becomes : FileTree.Becomes (MayFill target) before after) :
    FileTree.KeepsOutside place before after := by
  intro location outside
  rcases becomes.entry?_cases location with same | ⟨entry, allowed, held, fresh⟩
  · exact .inl same
  rcases allowed with ⟨rfl, onWay⟩ | inside
  · rcases isAlong_iff.mp (isAlong_of_mem_way leads onWay) with along | inside
    · exact .inr ⟨along, fresh rfl, held⟩
    · exact absurd inside outside
  · exact absurd ((leadsInto_iff.mp leads).2.1.trans inside) outside

variable (registry name : String)

/-- Installing fills the target of the order, or changes nothing. -/
theorem final_install (files : FileTree) : (install registry name).final files = files ∨
      ∃ order, Package.order files name = .ok order ∧
        (install registry name).final files = (order.fill (order.target files)).final files := by
  unfold install
  split
  · cases ordered : order files name with
    | error cause =>
      refine .inl ?_
      have failed : installLocal name files = .error cause files := by
        change EStateM.bind (FileChange.reading _) _ files = _
        rw [EStateM.bind, FileChange.reading, ordered]
      rw [FileChange.final, failed]
    | ok order =>
      refine .inr ⟨order, rfl, ?_⟩
      have read : installLocal name files =
          EStateM.bind (order.fill (order.target files))
            (fun _ => pure ⟨order.name, order.version⟩) files := by
        change EStateM.bind (FileChange.reading _) _ files = _
        rw [EStateM.bind, FileChange.reading, ordered]
        rfl
      rw [FileChange.final, FileChange.final, read, EStateM.bind]
      cases order.fill (order.target files) files <;> rfl
  · split <;> exact .inl rfl

/-- Installing changes nothing outside the directory of packages, if the target of the order leads
into it. -/
theorem keepsOutside_install {files : FileTree}
    (leads : ∀ order, Package.order files name = .ok order →
      (order.target files).leadsInto (storePlace files) = true) :
    FileTree.KeepsOutside (storePlace files) files ((install registry name).final files) := by
  rcases final_install registry name files with same | ⟨order, ordered, filled⟩
  · rw [same]
    exact .refl _ _
  · have into := leads order ordered
    rw [filled]
    exact keepsOutside_of_mayFill into (order.puts_fill (leadsInto_iff.mp into).1 files)

end Package

variable (settings : Settings)

/-- Work with packages is refused, or it goes on with the world as it was. -/
theorem Run.checkPackages_cases (world : World) : Run.checkPackages settings world = .ok () world ∨
      ∃ exit, Run.checkPackages settings world = .error exit world := by
  rw [Run.checkPackages, look_bind]
  split
  · exact .inr ⟨_, rfl⟩
  · rw [Run.check]
    split
    · exact .inl rfl
    · exact .inr ⟨_, rfl⟩

variable {change : FileChange α} {world : World} {files : FileTree}

theorem Run.changingFiles_ok {value : α} (done : change world.files = .ok value files) :
    Run.changingFiles change world = .ok value { world with files } := by
  rw [changingFiles, done]

theorem Run.changingFiles_error {cause : Refusal} (failed : change world.files = .error cause files) :
    Run.changingFiles change world = .error (.fault cause.fault) { world with files } := by
  rw [changingFiles, failed]

/-- Installing in a program changes the files as installing does, or not at all. -/
theorem Engine.files_install (name : String) (world : World) :
    (Run.final (install settings name world)).files = world.files ∨
      (Run.final (install settings name world)).files =
        (Package.install world.registry name).final world.files := by
  rcases checkPackages_cases settings world with allowed | ⟨exit, refused⟩
  · refine .inr ?_
    rw [install, bind_ok allowed, look_bind, FileChange.final]
    cases ended : Package.install world.registry name world.files with
    | ok installed files =>
      rw [bind_ok (changingFiles_ok ended)]
      rfl
    | error cause files =>
      rw [bind_error (changingFiles_error ended)]
      rfl
  · rw [install, bind_error refused]
    exact .inl rfl

/-! ### Looking up -/

namespace Package

/-- What using a package comes to: the text that is run and, unless it is one of the library's, what
is noted of the package. -/
structure Loading where
  source : String
  package? : Option LoadedPackage

def lookup (files : FileTree) (permissions : Permissions) (name : String) :
    Except Refusal Loading := do
  if ← files.has (bundled files name) then
    return ⟨← files.readPath (bundled files name), none⟩
  else
    let found ← find files permissions name
    return ⟨← files.readPath found.entry, some ⟨found.version, found.manifest⟩⟩

variable {files : FileTree} {name : String} {permissions : Permissions}

theorem lookup_installed {found : Found} (missing : files.has (bundled files name) = .ok false)
    (installed : find files permissions name = .ok found) :
    lookup files permissions name = (files.readPath found.entry).map fun source =>
      ⟨source, some ⟨found.version, found.manifest⟩⟩ := by
  rw [lookup, missing]
  rw [installed]
  change Except.bind (files.readPath found.entry) _ = _
  cases files.readPath found.entry <;> rfl

end Package

namespace Run

variable {view : FileTree → Except Refusal α} {world : World}

theorem fromFiles_ok {value : α} (seen : view world.files = .ok value) :
    Run.fromFiles view world = .ok value world := by
  rw [fromFiles, look_bind, seen]
  rfl

theorem fromFiles_error {cause : Refusal} (seen : view world.files = .error cause) :
    Run.fromFiles view world = .error (.fault cause.fault) world := by
  rw [fromFiles, look_bind, seen]
  rfl

end Run

def Engine.runLoaded (engine : Engine) (name : String) : Except Refusal Package.Loading → Run Unit
  | .error cause => Run.refuse cause
  | .ok loading => do
    engine.runPackage loading.source
    loading.package?.forM (Run.noteLoaded name)

/-- Using a package is running what is loaded under its name. -/
theorem Engine.usePackage_eq (engine : Engine) (name : String) (world : World) :
    engine.usePackage settings name world = (do
      Run.checkPackages settings
      engine.runLoaded name (lookup world.files settings.permissions name)) world := by
  rcases checkPackages_cases settings world with allowed | ⟨exit, refused⟩
  · rw [usePackage, bind_ok allowed, bind_ok allowed, Package.lookup, look_bind]
    cases there : world.files.has (bundled world.files name) with
    | error cause => exact bind_error (fromFiles_error there)
    | ok present =>
      rw [bind_ok (fromFiles_ok there)]
      cases present with
      | true =>
        cases text : world.files.readPath (bundled world.files name) with
        | error cause => exact bind_error (fromFiles_error text)
        | ok source =>
          exact (bind_ok (fromFiles_ok text)).trans
            (congrFun (bind_pure (engine.runPackage source)) world).symm
      | false =>
        cases found : find world.files settings.permissions name with
        | error cause => exact bind_error (fromFiles_error found)
        | ok package =>
          refine (bind_ok (fromFiles_ok found)).trans ?_
          change _ = engine.runLoaded name (world.files.readPath package.entry >>= _) world
          cases text : world.files.readPath package.entry with
          | error cause => exact bind_error (bind_error (fromFiles_error text))
          | ok source =>
            have load : engine.load package.entry world = engine.runPackage source world :=
              bind_ok (fromFiles_ok text)
            change _ = (engine.runPackage source >>= fun _ => _) world
            cases ended : engine.runPackage source world with
            | ok value after =>
              rw [bind_ok (load.trans ended), bind_ok ended]
              rfl
            | error exit after => rw [bind_error (load.trans ended), bind_error ended]
  · rw [usePackage, bind_error refused, bind_error refused]

/-! ### Names -/

namespace Path

/-- Whether a text can be the name of something in a directory. -/
def isName (text : String) : Bool :=
  text ≠ "" && text ≠ "." && text ≠ ".." && !text.toList.contains '/'

theorem isName_iff {text : String} :
    isName text = true ↔ text ≠ "" ∧ text ≠ "." ∧ text ≠ ".." ∧ '/' ∉ text.toList := by
  simp [isName, and_assoc]

variable {name : String}

/-- A name is a path of one part. -/
theorem ofText_name (named : isName name = true) : ofText name = ⟨false, [name]⟩ := by
  obtain ⟨shown, noDot, _, plain⟩ := isName_iff.mp named
  have relative : isAbsolute name = false := by
    refine decide_eq_false fun begins => plain ?_
    exact mem_of_head? begins
  rw [ofText, relative, split, Text.splitAt_of_notMem plain, map_singleton,
    String.ofList_toList, filter_cons_of_pos (by simp [shown, noDot])]
  rfl

theorem joinText_name (named : isName name = true) (path : Path) :
    path.joinText name = ⟨path.absolute, path.parts ++ [name]⟩ := by
  rw [joinText, ofText_name named]
  rfl

theorem leadsInto_name {path : Path} {place : List String} (leads : path.leadsInto place = true)
    (named : isName name = true) : (path.joinText name).leadsInto place = true := by
  obtain ⟨rooted, inside, along⟩ := leadsInto_iff.mp leads
  obtain ⟨_, noDot, noDots, _⟩ := isName_iff.mp named
  have reached : settle (path.parts ++ [name]) = settle path.parts ++ [name] := by
    rw [settle_append]
    exact if_neg noDots
  rw [joinText_name named]
  refine leadsInto_iff.mpr ⟨⟨rooted.absolute, ?_⟩, ?_, fun front begins => ?_⟩
  · exact fun member => (mem_append.mp member).elim rooted.noDot
      fun last => noDot (mem_singleton.mp last).symm
  · rw [reached]
    exact inside.trans (prefix_append _ _)
  · rcases prefix_concat_iff.mp begins with rfl | earlier
    · rw [reached]
      exact isAlong_iff.mpr (.inr (inside.trans (prefix_append _ _)))
    · exact along front earlier

end Path

/-! ### Trees that agree near a place -/

namespace FileTree

def IsNamed (tree : FileTree) : Prop :=
  ∀ entry ∈ tree.entries, ∀ name ∈ entry.1, isName name = true

/-- Whether two trees hold the same at the given locations, and work at the same places. -/
structure Agree (near : List String → Bool) (one other : FileTree) : Prop where
  work : other.work = one.work
  home : other.home = one.home
  library : other.library = one.library
  entries : (other.entries.filter fun entry => near entry.1) =
    one.entries.filter fun entry => near entry.1

variable {location : List String}

theorem IsNamed.isName_children {tree : FileTree} (named : tree.IsNamed) {name : String}
    (member : name ∈ tree.children location) : isName name = true := by
  obtain ⟨entry, held, found⟩ := mem_filterMap.mp member
  refine named entry held name ?_
  rw [nameIn_eq_some.mp found]
  exact mem_append_right _ mem_cons_self

theorem lookup_filter {near : List String → Bool} (here : near location = true)
    (entries : List (List String × FileEntry)) :
    (entries.filter fun entry => near entry.1).lookup location = entries.lookup location := by
  induction entries with
  | nil => rfl
  | cons entry rest ih =>
    obtain ⟨key, value⟩ := entry
    by_cases same : location = key
    · subst same
      rw [filter_cons, if_pos here, lookup_cons_self, lookup_cons_self]
    · have apart : (location == key) = false := beq_eq_false_iff_ne.mpr same
      rw [filter_cons, lookup_cons, apart]
      split
      · rw [lookup_cons, apart]
        exact ih
      · exact ih

namespace Agree

variable {near : List String → Bool} {one other : FileTree} (agree : Agree near one other)
  {location : List String}

include agree

theorem entry?_eq (here : near location = true) :
    other.entry? location = one.entry? location := by
  rw [FileTree.entry?, FileTree.entry?, ← lookup_filter here other.entries, agree.entries,
    lookup_filter here]

theorem isDirectory_eq (here : near location = true) :
    other.isDirectory location = one.isDirectory location := by
  rw [isDirectory, isDirectory, agree.entry?_eq here]

theorem children_eq (here : ∀ name, near (location ++ [name]) = true) :
    other.children location = one.children location := by
  have only (tree : FileTree) : (FileTree.children
      { tree with entries := tree.entries.filter fun entry => near entry.1 } location) =
        tree.children location := by
    refine filterMap_filter.trans (filterMap_congr fun entry _ => ?_)
    split
    · rfl
    · rename_i skipped
      refine (Option.eq_none_iff_forall_ne_some.mpr fun name same => skipped ?_).symm
      rw [nameIn_eq_some.mp same]
      exact here name
  have same : ({ other with entries := other.entries.filter fun entry => near entry.1 } : FileTree) =
      { one with entries := one.entries.filter fun entry => near entry.1 } := by
    rw [agree.entries, agree.work, agree.home, agree.library]
  rw [← only other, same, only one]

theorem follow_eq {fault : (String → FileFault) → FileFault} {parts : List String}
    (plain : "." ∉ parts)
    (along : ∀ front, front <+: parts → near (front.foldl go location) = true) :
    other.follow fault location parts = one.follow fault location parts := by
  induction parts generalizing location with
  | nil => rfl
  | cons part rest ih =>
    obtain ⟨here, later⟩ := not_or.mp (mem_cons.not.mp plain)
    have onward : other.follow fault (go location part) rest =
        one.follow fault (go location part) rest :=
      ih later fun front begins =>
        along (part :: front) (cons_prefix_cons.mpr ⟨rfl, begins⟩)
    have held : other.entry? location = one.entry? location :=
      agree.entry?_eq (along [] nil_prefix)
    rw [follow, follow, held]
    split
    · rfl
    · rfl
    · rw [if_neg (Ne.symm here), if_neg (Ne.symm here)]
      by_cases back : part = ".."
      · rw [if_pos back, if_pos back]
        rwa [go, if_pos back] at onward
      · rw [if_neg back, if_neg back]
        rw [go, if_neg back] at onward
        rw [onward]

section

variable {place : List String} {path : Path}
  (wide : ∀ location, isAlong place location = true → near location = true)
  (leads : path.leadsInto place = true)

include wide leads

omit agree in
theorem near_located (located : one.locate path = .ok location) : near location = true := by
  obtain ⟨rooted, inside, _⟩ := leadsInto_iff.mp leads
  rw [((locate_eq_ok_iff rooted).mp located).2]
  exact wide _ (isAlong_iff.mpr (.inr inside))

theorem locate_eq : other.locate path = one.locate path := by
  obtain ⟨rooted, _, along⟩ := leadsInto_iff.mp leads
  rw [locate, locate, start, start, if_pos rooted.absolute, if_pos rooted.absolute]
  exact agree.follow_eq rooted.noDot fun front begins => wide _ (along front begins)

theorem has_eq : other.has path = one.has path := by
  rw [has, has, agree.locate_eq wide leads]
  cases located : one.locate path with
  | error cause => cases cause <;> rfl
  | ok location =>
    dsimp only
    rw [agree.entry?_eq (near_located wide leads located)]

theorem readPath_eq : other.readPath path = one.readPath path := by
  rw [readPath, readPath, agree.locate_eq wide leads]
  cases located : one.locate path with
  | error cause => rfl
  | ok location =>
    dsimp only
    rw [readAt, readAt, agree.entry?_eq (near_located wide leads located)]

end

end Agree

end FileTree

/-! ### Using -/

namespace Package

open FileTree (Agree)

def libraryPlace (files : FileTree) : List String := settle files.library

/-- Whether a location is on the way to the directory of packages or to the library, or inside. -/
def isNear (files : FileTree) (location : List String) : Bool :=
  isAlong (storePlace files) location || isAlong (libraryPlace files) location

variable {files : FileTree} {location : List String} {name : String} {permissions : Permissions}

theorem isNear_of_store (along : isAlong (storePlace files) location = true) :
    isNear files location = true := by
  rw [isNear, along, Bool.true_or]

theorem isNear_of_library (along : isAlong (libraryPlace files) location = true) :
    isNear files location = true := by
  rw [isNear, along, Bool.or_true]

theorem isName_manifestName : isName manifestName = true := by decide

def Candidate.entry (candidate : Candidate) : Except Refusal Path := do
  return candidate.place.joinText (← pathPart candidate.manifest "entry" "src/main.gopa")

theorem Candidate.enter_eq (files : FileTree) (candidate : Candidate) : candidate.enter files = (do
      let path ← candidate.entry
      if ← files.has path then return ⟨candidate.version, candidate.manifest, path⟩
      else .error (.package (.entryNotFound path.text))) := by
  rw [enter, entry]
  cases pathPart candidate.manifest "entry" "src/main.gopa" <;> rfl

/-- Whether a name, and the entry of the package that it stands for, lead into the places of
packages. -/
structure StaysInside (files : FileTree) (name : String) : Prop where
  bundled : (bundled files name).leadsInto (libraryPlace files) = true
  directory : ((store files).joinText name).leadsInto (storePlace files) = true
  entry : ∀ candidate path, newest files name = .ok candidate → candidate.entry = .ok path →
    path.leadsInto (storePlace files) = true

theorem StaysInside.leadsInto_entry (inside : StaysInside files name) {package : Found}
    (found : find files permissions name = .ok package) :
    package.entry.leadsInto (storePlace files) = true := by
  rw [find] at found
  obtain ⟨candidate, candidates, found⟩ := Except.bind_eq_ok found
  rw [accept] at found
  split at found
  · cases found
  · rw [enter_eq] at found
    obtain ⟨path, part, found⟩ := Except.bind_eq_ok found
    obtain ⟨present, _, found⟩ := Except.bind_eq_ok found
    split at found
    · obtain rfl := Except.ok.inj found
      exact inside.entry candidate path candidates part
    · cases found

theorem isName_of_versions (named : files.IsNamed) {directory : Path} {names : List String}
    (found : versions files directory = .ok names) : ∀ name ∈ names, isName name = true := by
  rw [versions] at found
  obtain ⟨location, _, found⟩ := Except.bind_eq_ok found
  split at found
  · obtain rfl := Except.ok.inj found
    intro name member
    exact named.isName_children (mem_of_mem_filter (mem_mergeSort.mp member))
  · cases found

section

variable {files other : FileTree} (agree : Agree (isNear files) files other)

include agree

variable {path : Path} {name : String}

theorem has_eq (leads : path.leadsInto (storePlace files) = true) :
    other.has path = files.has path :=
  agree.has_eq (fun _ => isNear_of_store) leads

theorem manifestAt_eq (leads : path.leadsInto (storePlace files) = true) :
    manifestAt other path = manifestAt files path := by
  rw [manifestAt, manifestAt, agree.readPath_eq (fun _ => isNear_of_store) leads]

theorem versions_eq {directory : Path} (leads : directory.leadsInto (storePlace files) = true) :
    versions other directory = versions files directory := by
  rw [versions, versions, agree.locate_eq (fun _ => isNear_of_store) leads]
  refine Except.bind_congr fun location found => ?_
  have located := FileChange.ok_of_mapError found
  obtain ⟨rooted, inside, _⟩ := leadsInto_iff.mp leads
  have below (name : String) : isNear files (location ++ [name]) = true := by
    refine isNear_of_store (isAlong_iff.mpr (.inr ?_))
    rw [((FileTree.locate_eq_ok_iff rooted).mp located).2]
    exact inside.trans (prefix_append _ _)
  have here : isNear files location = true :=
    Agree.near_located (fun _ => isNear_of_store) leads located
  rw [agree.isDirectory_eq here, agree.children_eq below,
    filter_congr fun name _ => agree.isDirectory_eq (below name)]

theorem newest_eq (named : files.IsNamed)
    (directory : ((store files).joinText name).leadsInto (storePlace files) = true) :
    newest other name = newest files name := by
  have same : store other = store files := by rw [store, store, agree.home]
  rw [newest, newest, same, has_eq agree directory, versions_eq agree directory]
  refine Except.bind_congr fun there _ => ?_
  split
  · rfl
  · refine Except.bind_congr fun names found => ?_
    cases names with
    | nil => rfl
    | cons version rest =>
      have place := leadsInto_name directory (isName_of_versions named found version mem_cons_self)
      have manifest := leadsInto_name place isName_manifestName
      dsimp only
      rw [has_eq agree manifest, manifestAt_eq agree manifest]

theorem find_eq (named : files.IsNamed) (inside : StaysInside files name)
    (permissions : Permissions) : find other permissions name = find files permissions name := by
  rw [find, find, newest_eq agree named inside.directory]
  refine Except.bind_congr fun candidate found => ?_
  rw [accept, accept, enter_eq, enter_eq]
  split
  · rfl
  · refine Except.bind_congr fun path part => ?_
    rw [has_eq agree (inside.entry candidate path found part)]

/-- What is loaded under a name is the same in all trees that agree near the places of packages. -/
theorem lookup_eq (named : files.IsNamed) (inside : StaysInside files name)
    (permissions : Permissions) :
    lookup other permissions name = lookup files permissions name := by
  have library : bundled other name = bundled files name := by
    rw [bundled, bundled, agree.library]
  have wide (location : List String) : isAlong (libraryPlace files) location = true →
      isNear files location = true := isNear_of_library
  rw [lookup, lookup, library, agree.has_eq wide inside.bundled,
    agree.readPath_eq wide inside.bundled, find_eq agree named inside]
  refine Except.bind_congr fun there _ => ?_
  split
  · rfl
  · refine Except.bind_congr fun package found => ?_
    rw [agree.readPath_eq (fun _ => isNear_of_store) (inside.leadsInto_entry found)]

end

/-- Whether a text is what a file inside the directory of packages or the library holds. -/
def IsKept (files : FileTree) (source : String) : Prop :=
  ∃ location text, (storePlace files <+: location ∨ libraryPlace files <+: location) ∧
    files.entry? location = some (.file text) ∧
      source = String.ofList (Text.universalNewlines text.toList)

theorem StaysInside.isKept (inside : StaysInside files name) {loading : Loading}
    (loads : lookup files permissions name = .ok loading) : IsKept files loading.source := by
  rw [lookup] at loads
  obtain ⟨there, _, loads⟩ := Except.bind_eq_ok loads
  split at loads
  · obtain ⟨source, read, loads⟩ := Except.bind_eq_ok loads
    obtain rfl := Except.ok.inj loads
    obtain ⟨rooted, within, _⟩ := leadsInto_iff.mp inside.bundled
    obtain ⟨-, text, held, same⟩ := (FileTree.readPath_eq_ok_iff rooted).mp read
    exact ⟨_, text, .inr within, held, same⟩
  · obtain ⟨package, found, loads⟩ := Except.bind_eq_ok loads
    obtain ⟨source, read, loads⟩ := Except.bind_eq_ok loads
    obtain rfl := Except.ok.inj loads
    obtain ⟨rooted, within, _⟩ := leadsInto_iff.mp (inside.leadsInto_entry found)
    obtain ⟨-, text, held, same⟩ := (FileTree.readPath_eq_ok_iff rooted).mp read
    exact ⟨_, text, .inl within, held, same⟩

end Package

/-! ### Both -/

/-- Installing changes nothing outside the directory of packages, if the name and the version of the
package lead into it. Using runs a text that a file in the directory of packages or in the library
holds, if the name and the entry lead there, and does the same whatever there is elsewhere. -/
theorem packages_stay_inside (settings : Settings) (engine : Engine) (world : World)
    (path name : String) (named : world.files.IsNamed)
    (target : ∀ order, Package.order world.files path = .ok order →
      (order.target world.files).leadsInto (Package.storePlace world.files) = true)
    (inside : Package.StaysInside world.files name) :
    FileTree.KeepsOutside (storePlace world.files) world.files
        (Run.final (install settings path world)).files ∧
      (∀ loading, lookup world.files settings.permissions name = .ok loading →
        Package.IsKept world.files loading.source) ∧
      ∀ other, FileTree.Agree (isNear world.files) world.files other →
        engine.usePackage settings name { world with files := other } = (do
          Run.checkPackages settings
          engine.runLoaded name (lookup world.files settings.permissions name))
            { world with files := other } := by
  refine ⟨?_, fun loading loads => inside.isKept loads, fun other agree => ?_⟩
  · rcases files_install settings path world with same | filled
    · rw [same]
      exact .refl _ _
    · rw [filled]
      exact Package.keepsOutside_install world.registry path target
  · rw [usePackage_eq, Package.lookup_eq agree named inside]

/-- A package is installed beside one that is used, whose entry is outside its own directory. -/
theorem packages_stay_inside_beside_another :
    let permissions : Permissions := .default
    let settings : Settings := { permissions }
    let store := ["home", ".gopa_packages"]
    let files : FileTree :=
      ⟨[(["work"], .directory), (["work", "new"], .directory),
        (["work", "new", "gopa.toml"], .file "name = \"new\"\n"),
        (["work", "new", "main.gopa"], .file "say 1\n"), (["home"], .directory),
        (store, .directory), (store ++ ["shared.gopa"], .file "say 2\n"),
        (store ++ ["old"], .directory), (store ++ ["old", "2"], .directory),
        (store ++ ["old", "2", "gopa.toml"], .file "entry = \"../../shared.gopa\"\n")],
        ["work"], ["home"], ["library"]⟩
    let world : World := { files, packages := some [] }
    let after := (Run.final (install settings "./new" world)).files
    after.entry? (store ++ ["new", "1.0.0", "main.gopa"]) = some (.file "say 1\n") ∧
      FileTree.KeepsOutside store files after ∧
      ∃ loading, loading.source = "say 2\n" ∧ Package.IsKept files "say 2\n" ∧
        ∀ other engine, FileTree.Agree (isNear files) files other →
          usePackage settings engine "old" { world with files := other } = (do
            Run.checkPackages settings
            engine.runLoaded "old" (.ok loading)) { world with files := other } := by
  intro permissions settings store files world after
  have installed : after.entry? (store ++ ["new", "1.0.0", "main.gopa"]) =
      some (.file "say 1\n") := by decide +kernel
  have named : files.IsNamed := by unfold FileTree.IsNamed; decide +kernel
  have target : (order files "./new").toOption.all (fun order =>
      (order.target files).leadsInto (storePlace files)) = true := by decide +kernel
  have entry : (newest files "old").toOption.all (fun candidate =>
      candidate.entry.toOption.all fun path => path.leadsInto (storePlace files)) =
        true := by decide +kernel
  have inside : Package.StaysInside files "old" := by
    refine ⟨by decide +kernel, by decide +kernel, fun candidate path found ends => ?_⟩
    rw [found] at entry
    change candidate.entry.toOption.all _ = true at entry
    rw [ends] at entry
    exact entry
  have source : (lookup files permissions "old").toOption.map Package.Loading.source =
      some "say 2\n" := by decide +kernel
  have result (engine : Engine) := packages_stay_inside settings engine world "./new" "old" named
    (fun order ordered => by rw [ordered] at target; exact target) inside
  cases loads : lookup files permissions "old" with
  | error cause => rw [loads] at source; cases source
  | ok loading =>
    rw [loads] at source
    have read : loading.source = "say 2\n" := Option.some.inj source
    refine ⟨installed, (result (ofDepth settings 0)).1, loading, read, ?_,
      fun other engine agree => ?_⟩
    · rw [← read]
      exact (result (ofDepth settings 0)).2.1 loading loads
    · rw [← loads]
      exact (result engine).2.2 other agree

/-- The name in a manifest and the name that is used can lead out of the directory of packages:
installing puts a file beside it, and using runs that file. -/
theorem package_is_outside :
    let permissions : Permissions := .default
    let settings : Settings := { permissions }
    let files : FileTree :=
      ⟨[(["work"], .directory), (["work", "package"], .directory),
        (["work", "package", "gopa.toml"], .file "name = \"../out\"\n"),
        (["work", "package", "src"], .directory),
        (["work", "package", "src", "main.gopa"], .file "say 1\n"), (["home"], .directory),
        (["home", ".gopa_packages"], .directory)], ["work"], ["home"], ["library"]⟩
    let world : World := { files, packages := some [] }
    let after := (Run.final (install settings "./package" world)).files
    ¬ FileTree.KeepsOutside (storePlace files) files after ∧
      (lookup after permissions "../out").toOption.map Package.Loading.source =
        some "say 1\n" ∧
      ¬ Package.IsKept after "say 1\n" := by
  intro permissions settings files world after
  have put : after.entry? ["home", "out"] = some .directory := by decide +kernel
  have fresh : files.entry? ["home", "out"] = none := by decide +kernel
  have outside : ¬ storePlace files <+: ["home", "out"] := by decide +kernel
  have others : (after.entries.all fun entry => entry.2 = .directory ||
      !((storePlace after).isPrefixOf entry.1 ||
        (libraryPlace after).isPrefixOf entry.1)) = true := by decide +kernel
  refine ⟨fun kept => ?_, by decide +kernel, ?_⟩
  · rcases kept ["home", "out"] outside with same | ⟨onWay, _⟩
    · rw [put, fresh] at same
      cases same
    · exact absurd onWay (by decide +kernel)
  · rintro ⟨location, text, within, held, _⟩
    have below : location ≠ [] := by
      rintro rfl
      cases held
    have apart := all_eq_true.mp others _ (FileTree.mem_entries below held)
    rw [← isPrefixOf_iff_prefix, ← isPrefixOf_iff_prefix, ← Bool.or_eq_true] at within
    rw [within] at apart
    cases apart

end Parlance
