import Parlance.Proofs.Copies
import Parlance.Proofs.Manifests
import Parlance.Proofs.PackagePlaces

/-!
Installing provides what using needs. A package that has been installed is found under its name,
with its manifest, and its entry is run with the text that it had when the package was installed.
-/

namespace Parlance

open Engine Run Parlance.Path FileTree List

/-! ### Paths inside a directory -/

namespace Path

/-- Whether parts that are followed from a place inside a directory never lead out of it, and lead
only through what satisfies a test. -/
def keepsTo (test : List String → Bool) : List String → List String → Bool
  | _, [] => true
  | inner, part :: rest => (part ≠ ".." || inner ≠ []) && test (go inner part) &&
    keepsTo test (go inner part) rest

variable {test : List String → Bool} {inner parts location : List String} {part : String}

theorem keepsTo_cons {rest : List String} (keeps : keepsTo test inner (part :: rest) = true) :
    (part ≠ ".." ∨ inner ≠ []) ∧ test (go inner part) = true ∧
      keepsTo test (go inner part) rest = true := by
  simpa [keepsTo, and_assoc] using keeps

theorem go_append (inside : part ≠ ".." ∨ inner ≠ []) (above : List String) :
    go (above ++ inner) part = above ++ go inner part := by
  rw [go, go]
  split
  · rename_i back
    exact dropLast_append_of_ne_nil (inside.resolve_left (absurd back))
  · exact append_assoc _ _ _

theorem foldl_go_append (keeps : keepsTo test inner parts = true) (above : List String) :
    parts.foldl go (above ++ inner) = above ++ parts.foldl go inner := by
  induction parts generalizing inner with
  | nil => rfl
  | cons part rest ih =>
    obtain ⟨inside, _, later⟩ := keepsTo_cons keeps
    rw [foldl_cons, foldl_cons, go_append inside, ih later]

theorem test_foldl_go (keeps : keepsTo test inner parts = true) (some : parts ≠ []) :
    test (parts.foldl go inner) = true := by
  induction parts generalizing inner with
  | nil => exact absurd rfl some
  | cons part rest ih =>
    obtain ⟨_, here, later⟩ := keepsTo_cons keeps
    rw [foldl_cons]
    by_cases last : rest = []
    · rw [last]
      exact here
    · exact ih later last

/-- Dots that lead back are followed; nothing else is there that was not there before. -/
theorem notMem_foldl_go (absent : part ∈ parts → part = "..") (start : part ∉ location) :
    part ∉ parts.foldl go location := by
  induction parts generalizing location with
  | nil => exact start
  | cons first rest ih =>
    refine ih (fun later => absent (mem_cons_of_mem _ later)) fun member => ?_
    rw [go] at member
    split at member
    · exact start (dropLast_subset _ member)
    · rename_i forth
      refine (mem_append.mp member).elim start fun last => ?_
      obtain rfl := mem_singleton.mp last
      exact forth (absent mem_cons_self)

theorem dot_notMem_ofText (text : String) : "." ∉ (ofText text).parts := by
  intro member
  have test := (mem_filter.mp member).2
  exact absurd test (by decide)

theorem settle_of_notMem (plain : ".." ∉ parts) : settle parts = parts :=
  foldl_go_of_notMem plain []

/-- Whether a path is given from the root and has no dots for names. -/
structure IsPlain (path : Path) : Prop extends path.IsRooted where
  noDots : ".." ∉ path.parts

namespace IsPlain

variable {path : Path} (plain : path.IsPlain)

include plain

theorem settle_eq : settle path.parts = path.parts := settle_of_notMem plain.noDots

theorem prefix_of_mem_way (member : location ∈ way [] path.parts) : location <+: path.parts := by
  obtain ⟨front, begins, rfl⟩ := mem_way member
  have lies := (mem_inits _ _).mp begins
  rw [foldl_go_of_notMem fun back => plain.noDots (lies.subset back)]
  exact lies

theorem joinText_manifestName : (path.joinText Package.manifestName).IsPlain where
  toIsRooted := Package.isRooted_manifest plain.toIsRooted
  noDots := by
    rw [Package.joinText_manifestName]
    simpa [Package.manifestName] using plain.noDots

end IsPlain

end Path

variable {before after : FileTree} {path : String} {settings : Settings} {world : World}

/-- Parts that can be followed inside a directory can be followed inside another one that has the
same directories. -/
theorem FileTree.CanFollow.inside {source target inner parts : List String}
    {test : List String → Bool} (can : before.CanFollow (source ++ inner) parts)
    (keeps : keepsTo test inner parts = true)
    (start : before.isDirectory (source ++ inner) = true →
      after.isDirectory (target ++ inner) = true)
    (each : ∀ place, test place = true → before.isDirectory (source ++ place) = true →
      after.isDirectory (target ++ place) = true) : after.CanFollow (target ++ inner) parts := by
  induction parts generalizing inner with
  | nil => trivial
  | cons part rest ih =>
    obtain ⟨directory, short, can⟩ := can
    obtain ⟨stays, here, later⟩ := keepsTo_cons keeps
    refine ⟨start directory, short, ?_⟩
    rw [go_append stays] at can ⊢
    exact ih can later (each _ here)

/-! ### Directories that are made -/

/-- Making directories changes nothing that is there. -/
theorem FileTree.Becomes.entry?_of_directories {may : List String → FileEntry → Prop}
    (becomes : FileTree.Becomes may before after)
    (only : ∀ location entry, may location entry → entry = .directory) {location : List String}
    {entry : FileEntry} (held : before.entry? location = some entry) :
    after.entry? location = some entry := by
  rcases becomes.entry?_cases location with same | ⟨other, allowed, _, fresh⟩
  · exact same.trans held
  · cases (fresh (only _ _ allowed)).symm.trans held

namespace FileChange

variable {before after : FileTree} {path : Path}

theorem isDirectory_makeAlong {location names : List String}
    (ended : makeAlong path location names before = .ok () after)
    (start : before.isDirectory location = true) :
    after.isDirectory (names.foldl go location) = true := by
  induction names generalizing location before with
  | nil =>
    cases ended
    exact start
  | cons name rest ih =>
    rcases makeAlong_cases path location name rest before with ⟨cause, failed⟩ | ⟨there, onward⟩ |
      ⟨free, onward⟩
    · cases ended.symm.trans failed
    · exact ih (onward.symm.trans ended) there
    · refine ih (onward.symm.trans ended) ?_
      have nonempty : go location name ≠ [] := fun root => by
        rw [root] at free
        cases free
      rw [FileTree.isDirectory, FileTree.entry?_put _ nonempty, if_pos rfl]
      exact decide_eq_true rfl

theorem isDirectory_makeDirectories (absolute : path.absolute = true)
    (ended : makeDirectories path before = .ok () after) :
    after.isDirectory (settle path.parts) = true := by
  unfold makeDirectories at ended
  split at ended
  · cases ended
  · have along : makeAlong path [] path.parts before = .ok () after := by
      change makeAlong path (before.start path.absolute) path.parts before = _ at ended
      rwa [FileTree.start, if_pos absolute] at ended
    exact isDirectory_makeAlong along rfl

end FileChange

/-! ### Orders -/

namespace Package

open FileChange

variable {files after : FileTree} {order : Order} {path : String}

theorem readManifest_ok {source : Path} {manifest : Manifest}
    (read : readManifest files path source = .ok manifest) :
    ∃ text, files.readPath (source.joinText manifestName) = .ok text ∧
      manifest = Manifest.parse text := by
  have found : manifestAt files (source.joinText manifestName) = .ok manifest := by
    rw [readManifest] at read
    split at read
    · cases read
    obtain ⟨there, _, read⟩ := Except.bind_eq_ok read
    split at read
    · cases read
    obtain ⟨shown, _, read⟩ := Except.bind_eq_ok read
    split at read
    · cases read
    · exact read
  rw [manifestAt] at found
  split at found
  · rename_i text known
    exact ⟨text, known, (Except.ok.inj found).symm⟩
  · cases found

/-- The manifest of an order has been read in its directory. -/
theorem order_ok (ordered : Package.order files path = .ok order) :
    order.source = (ofText path).resolve files.work ∧
      ∃ text, files.readPath (order.source.joinText manifestName) = .ok text ∧
        order.manifest = Manifest.parse text := by
  rw [Package.order] at ordered
  obtain ⟨manifest, read, ordered⟩ := Except.bind_eq_ok ordered
  obtain ⟨name, _, ordered⟩ := Except.bind_eq_ok ordered
  obtain ⟨version, _, ordered⟩ := Except.bind_eq_ok ordered
  obtain rfl := Except.ok.inj ordered
  exact ⟨rfl, readManifest_ok read⟩

theorem isRead_manifest (ordered : Package.order files path = .ok order) :
    Manifest.IsRead order.manifest := by
  obtain ⟨_, text, _, same⟩ := order_ok ordered
  rw [same]
  exact Manifest.isRead_parse text

/-- The source of an order is a directory, from the root and without dots for names. -/
structure Order.IsSettled (order : Order) (files : FileTree) : Prop extends
    order.source.IsPlain where
  directory : files.isDirectory order.source.parts = true

theorem isSettled_of_order (sound : files.IsSound)
    (ordered : Package.order files path = .ok order) : order.IsSettled files := by
  obtain ⟨source, text, read, _⟩ := order_ok ordered
  have absolute : order.source.absolute = true := by rw [source]; rfl
  have noDot : "." ∉ order.source.parts := by
    rw [source]
    refine notMem_foldl_go (fun member => absurd member ?_) not_mem_nil
    split
    · exact dot_notMem_ofText path
    · exact fun member => (mem_append.mp member).elim sound.work (dot_notMem_ofText path)
  have noDots : ".." ∉ order.source.parts := by
    rw [source]
    exact notMem_foldl_go (fun _ => rfl) not_mem_nil
  have plain : order.source.IsPlain := ⟨⟨absolute, noDot⟩, noDots⟩
  refine ⟨plain, ?_⟩
  have can := ((readPath_eq_ok_iff plain.joinText_manifestName.toIsRooted).mp read).1
  rw [joinText_manifestName] at can
  have here := (canFollow_append.mp can).2.1
  rwa [← settle, plain.settle_eq] at here

/-! ### Packages that have been installed -/

section

variable {target : Path} (plain : target.IsPlain)

include plain

/-- Filling a target makes its directory, copies the content and writes the manifest. -/
theorem fill_ok (ended : order.fill target files = .ok () after) : ∃ made copied,
      FileTree.Becomes (fun place entry => entry = .directory ∧ place <+: target.parts) files made ∧
      made.CanFollow [] target.parts ∧ made.isDirectory target.parts = true ∧
      copyContent order.source.parts ⟨target.parts, target⟩ made = .ok () copied ∧
      copied.isDirectory (target.parts ++ [manifestName]) = false ∧
      after = copied.put (target.parts ++ [manifestName]) (.file order.manifest.written) := by
  obtain ⟨_, made, makes, reading⟩ := bind_ok ended
  obtain ⟨location, _, reads, copying⟩ := bind_ok reading
  obtain ⟨located, same⟩ := reading_ok reads
  rw [same] at copying
  obtain ⟨_, copied, copies, writing⟩ := bind_ok copying
  obtain ⟨written, found, free, rfl⟩ := writePath_ok (step_ok writing)
  obtain ⟨can, rfl⟩ := (locate_eq_ok_iff plain.toIsRooted).mp (ok_of_mapError located)
  have inside := plain.joinText_manifestName
  have place : written = target.parts ++ [manifestName] := by
    rw [((locate_eq_ok_iff inside.toIsRooted).mp found).2, inside.settle_eq, joinText_manifestName]
  have directory := isDirectory_makeDirectories plain.absolute makes
  have becomes := puts_makeDirectories plain.absolute files
  rw [final_ok makes] at becomes
  rw [place] at free
  rw [plain.settle_eq] at copies directory
  refine ⟨made, copied, becomes.mono fun location entry allowed => ?_,
    can, directory, copies, free, by rw [place]⟩
  exact ⟨allowed.1, plain.prefix_of_mem_way allowed.2⟩

/-- What a target is like after it has been filled. -/
structure Order.IsFilled (order : Order) (target : Path) (tree : FileTree) : Prop extends
    target.IsPlain where
  reached : tree.CanFollow [] target.parts
  directory : tree.isDirectory target.parts = true
  manifest : tree.entry? (target.joinText manifestName).parts =
    some (.file order.manifest.written)

theorem isFilled_of_fill (ended : order.fill target files = .ok () after) :
    order.IsFilled target after := by
  obtain ⟨made, copied, _, reached, directory, copies, free, rfl⟩ := fill_ok plain ended
  have content := puts_copyContent order.source.parts ⟨target.parts, target⟩ made
  rw [final_ok copies] at content
  have put : FileTree.Becomes (fun _ _ => True) copied
      (copied.put (target.parts ++ [manifestName]) (.file order.manifest.written)) :=
    .one trivial free
  have kept (place : List String) (there : made.isDirectory place = true) :=
    put.isDirectory (content.isDirectory there)
  refine ⟨plain, reached.mono kept, kept _ directory, ?_⟩
  rw [joinText_manifestName, FileTree.entry?_put _ (by simp), if_pos rfl]

end

/-! ### Entries -/

/-- Whether a package can be found again after it has been installed, with an entry that is part of
its content or that is given by a path from the root. -/
structure Order.Suits (order : Order) (files : FileTree) (permissions : Permissions)
    (entry : String) : Prop where
  name : isName order.name = true
  version : isName order.version = true
  /-- No other version is installed. -/
  alone : ∀ version, files.isDirectory ((store files).parts ++ [order.name, version]) = true →
    version = order.version
  allowed : (requested order.manifest).find? (isRefused permissions) = none
  given : pathPart order.manifest "entry" "src/main.gopa" = .ok entry
  unquoted : IsUnquoted order.manifest "entry" ∧ IsUnquoted order.manifest "permissions"
  /-- A relative entry leads through what is copied. -/
  inside : isAbsolute entry = false → keepsTo
    (fun inner => inner.head?.all (isPart files order.source.parts)) [] (ofText entry).parts =
      true
  /-- No directory stands where the copy of the entry is to be. -/
  free : isAbsolute entry = false → files.isDirectory
    ((order.target files).parts ++ settle (ofText entry).parts) = false
  /-- An entry that is given from the root is not in the target. -/
  outside : isAbsolute entry = true →
    ¬ (order.target files).parts <+: settle (ofText entry).parts
  apart : files.entry? (order.source.parts ++ ["src"]) = none →
    Apart order.source.parts (order.target files).parts

theorem target_eq (name : isName order.name = true) (version : isName order.version = true) :
    order.target files = ⟨true, files.home ++ [".gopa_packages", order.name, order.version]⟩ := by
  rw [Order.target, joinText_name name, joinText_name version]
  simp [store, fromRoot]

variable {permissions : Permissions}

theorem isPlain_target {entry : String} (sound : files.IsSound)
    (suits : order.Suits files permissions entry) : (order.target files).IsPlain := by
  obtain ⟨_, noDot, noDots, _⟩ := isName_iff.mp suits.name
  obtain ⟨_, noDot', noDots', _⟩ := isName_iff.mp suits.version
  rw [target_eq suits.name suits.version]
  refine ⟨⟨rfl, ?_⟩, ?_⟩
  · simp [sound.home.1, Ne.symm noDot, Ne.symm noDot']
  · simp [sound.home.2, Ne.symm noDots, Ne.symm noDots']

theorem isPart_ne {source : List String} {name : String}
    (part : isPart files source name = true) : name ≠ manifestName := by
  rw [isPart] at part
  split at part
  · rw [of_decide_eq_true part]
    decide
  · exact of_decide_eq_true part

variable {entry : String}

theorem joinText_relative (relative : isAbsolute entry = false) (directory : Path) :
    directory.joinText entry = ⟨directory.absolute, directory.parts ++ (ofText entry).parts⟩ :=
  if_neg (Bool.eq_false_iff.mp relative)

theorem joinText_absolute (absolute : isAbsolute entry = true) (directory : Path) :
    directory.joinText entry = ofText entry :=
  if_pos absolute

/-- Where directories have been made, the sources are as they were. -/
theorem entry?_sources {made : FileTree}
    (suits : order.Suits files permissions entry) (becomes : FileTree.Becomes (fun place entry =>
      entry = .directory ∧ place <+: (order.target files).parts) files made) :
    made.entry? (order.source.parts ++ ["src"]) = files.entry? (order.source.parts ++ ["src"]) := by
  cases there : files.entry? (order.source.parts ++ ["src"]) with
  | some held => exact becomes.entry?_of_directories (fun _ _ allowed => allowed.1) there
  | none =>
    rw [becomes.entry?_eq, there]
    exact fun _ allowed => (suits.apart there).1 ((prefix_append _ _).trans allowed.2)

section

variable {permissions : Permissions} {entry text : String} (sound : files.IsSound)
  (suits : order.Suits files permissions entry)
  (ended : order.fill (order.target files) files = .ok () after)

include sound suits ended

theorem becomes_installed : FileTree.Becomes (fun location entry =>
    entry = .directory ∧ location <+: (order.target files).parts ∨
      (order.target files).parts <+: location) files after := by
  have plain := isPlain_target sound suits
  have becomes := order.puts_fill plain.toIsRooted files
  rw [final_ok ended] at becomes
  refine becomes.mono fun location entry allowed => ?_
  rw [MayFill, plain.settle_eq] at allowed
  exact allowed.imp_left fun way => ⟨way.1, plain.prefix_of_mem_way way.2⟩

theorem readPath_elsewhere (absolute : isAbsolute entry = true)
    (read : files.readPath (order.source.joinText entry) = .ok text) :
    after.readPath ((order.target files).joinText entry) = .ok text := by
  rw [joinText_absolute absolute] at read ⊢
  have rooted : (ofText entry).IsRooted := ⟨absolute, dot_notMem_ofText entry⟩
  have becomes := becomes_installed sound suits ended
  obtain ⟨can, held, there, rfl⟩ := (readPath_eq_ok_iff rooted).mp read
  refine (readPath_eq_ok_iff rooted).mpr
    ⟨can.mono fun place there => becomes.isDirectory there, held, ?_, rfl⟩
  rcases becomes.entry?_cases (settle (ofText entry).parts) with
    same | ⟨other, ⟨rfl, _⟩ | inside, _, fresh⟩
  · exact same.trans there
  · cases (fresh rfl).symm.trans there
  · exact absurd inside (suits.outside absolute)

variable {name : String} {inner : List String}

/-- Directories that are part of the content are in the target. -/
theorem isDirectory_installed (part : isPart files order.source.parts name = true)
    (directory : files.isDirectory (order.source.parts ++ name :: inner) = true) :
    after.isDirectory ((order.target files).parts ++ name :: inner) = true := by
  obtain ⟨made, copied, becomes, _, _, copies, free, rfl⟩ :=
    fill_ok (isPlain_target sound suits) ended
  have sources := entry?_sources suits becomes
  have here : files.isDirectory (order.source.parts ++ [name]) = true := by
    by_cases last : inner = []
    · rwa [last] at directory
    · refine sound.isDirectory_above (of_decide_eq_true directory) ?_ ?_
      · exact (prefix_append_right_inj _).mpr (cons_prefix_cons.mpr ⟨rfl, nil_prefix⟩)
      · intro same
        exact last (List.cons.inj (append_cancel_left same)).2.symm
  have put : FileTree.Becomes (fun _ _ => True) copied
      (copied.put ((order.target files).parts ++ [manifestName]) (.file order.manifest.written)) :=
    .one trivial free
  refine put.isDirectory (isDirectory_copyContent copies ?_ (becomes.nodup sound.distinct) ?_
    (becomes.isDirectory here) (becomes.isDirectory directory))
  · exact fun missing => suits.apart (sources.symm.trans missing)
  · rwa [isPart, sources]

/-- Files that are part of the content are in the target. -/
theorem entry?_installed (part : isPart files order.source.parts name = true)
    (held : files.entry? (order.source.parts ++ name :: inner) = some (.file text))
    (clear : files.isDirectory ((order.target files).parts ++ name :: inner) = false) :
    after.entry? ((order.target files).parts ++ name :: inner) = some (.file text) := by
  obtain ⟨made, copied, becomes, _, _, copies, _, rfl⟩ :=
    fill_ok (isPlain_target sound suits) ended
  have sources := entry?_sources suits becomes
  have other : (order.target files).parts ++ name :: inner ≠
      (order.target files).parts ++ [manifestName] := fun same =>
    isPart_ne part (List.cons.inj (append_cancel_left same)).1
  rw [FileTree.entry?_put _ (by simp), if_neg other]
  refine entry?_copyContent copies ?_ (becomes.nodup sound.distinct) ?_
    (becomes.entry?_of_directories (fun _ _ allowed => allowed.1) held) (fun front lies differs => ?_)
    (Bool.eq_false_iff.mpr fun directory => ?_)
  · exact fun missing => suits.apart (sources.symm.trans missing)
  · rwa [isPart, sources]
  · refine becomes.isDirectory (sound.isDirectory_above held ?_ ?_)
    · exact (prefix_append_right_inj _).mpr (cons_prefix_cons.mpr ⟨rfl, lies⟩)
    · exact fun same => differs (List.cons.inj (append_cancel_left same)).2
  · rcases becomes.isDirectory_cases directory with there | ⟨_, lies⟩
    · cases there.symm.trans clear
    · have length := lies.length_le
      rw [length_append, length_cons] at length
      change (order.target files).parts.length + _ ≤ _ at length
      omega

/-- The entry is read in the target as it was read in the source. -/
theorem readPath_copied (settled : order.IsSettled files) (relative : isAbsolute entry = false)
    (read : files.readPath (order.source.joinText entry) = .ok text) :
    after.readPath ((order.target files).joinText entry) = .ok text := by
  have filled := isFilled_of_fill (isPlain_target sound suits) ended
  have keeps := suits.inside relative
  have clear := suits.free relative
  rw [joinText_relative relative] at read ⊢
  have plain := dot_notMem_ofText entry
  generalize (ofText entry).parts = parts at read keeps clear plain ⊢
  have rooted {path : Path} (given : path.IsPlain) :
      IsRooted ⟨path.absolute, path.parts ++ parts⟩ :=
    ⟨given.absolute, by simp [given.noDot, plain]⟩
  -- Where the parts lead inside the source, they lead inside the target.
  have leads {path : Path} (given : path.IsPlain) :
      settle (path.parts ++ parts) = path.parts ++ settle parts := by
    rw [settle_append, given.settle_eq]
    have same := foldl_go_append keeps path.parts
    rwa [append_nil] at same
  obtain ⟨can, held, there, rfl⟩ := (readPath_eq_ok_iff (rooted settled.toIsPlain)).mp read
  rw [leads settled.toIsPlain] at there
  have within := (canFollow_append.mp can).2
  rw [← settle, settled.settle_eq] at within
  have root : order.source.parts ++ [] = order.source.parts := append_nil _
  have top : (order.target files).parts ++ [] = (order.target files).parts := append_nil _
  have follows : after.CanFollow [] ((order.target files).parts ++ parts) := by
    refine canFollow_append.mpr ⟨filled.reached, ?_⟩
    rw [← settle, filled.settle_eq]
    rw [← root] at within
    rw [← top]
    refine within.inside keeps (fun _ => ?_) fun place part directory => ?_
    · rw [top]
      exact filled.directory
    · cases place with
      | nil =>
        rw [top]
        exact filled.directory
      | cons name inner => exact isDirectory_installed sound suits ended part directory
  refine (readPath_eq_ok_iff (rooted filled.toIsPlain)).mpr ⟨follows, held, ?_, rfl⟩
  rw [leads filled.toIsPlain]
  -- The entry is not the directory itself.
  cases place : settle parts with
  | nil =>
    rw [place, append_nil] at there
    have directory := of_decide_eq_true settled.directory
    cases directory.symm.trans there
  | cons name inner =>
    rw [place] at there clear
    have nonempty : parts ≠ [] := by
      rintro rfl
      cases place
    have part := test_foldl_go keeps nonempty
    rw [← settle, place] at part
    exact entry?_installed sound suits ended part there clear

theorem versions_installed {directory : Path} (root : directory.absolute = true)
    (below : (order.target files).parts = directory.parts ++ [order.version])
    (alone : ∀ version, files.isDirectory (directory.parts ++ [version]) = true →
      version = order.version) :
    ∃ others, versions after directory = .ok (order.version :: others) := by
  have filled := isFilled_of_fill (isPlain_target sound suits) ended
  have becomes := becomes_installed sound suits ended
  have noDot := filled.noDot
  have noDots := filled.noDots
  rw [below] at noDot noDots becomes
  obtain ⟨reached, version⟩ := canFollow_append.mp (below ▸ filled.reached)
  have plain : directory.IsPlain := ⟨⟨root, fun member => noDot (mem_append_left _ member)⟩,
    fun member => noDots (mem_append_left _ member)⟩
  have here := version.1
  rw [← settle, plain.settle_eq] at here
  have own : after.isDirectory (directory.parts ++ [order.version]) = true :=
    below ▸ filled.directory
  obtain ⟨latest, others, listed, held, _⟩ := versions_cons
    ((locate_eq_ok_iff plain.toIsRooted).mpr ⟨reached, plain.settle_eq.symm⟩) here ⟨_, own⟩
  have same : latest = order.version := by
    rcases becomes.isDirectory_cases held with there | ⟨_, lies⟩ | lies
    · exact alone latest there
    · exact (cons_prefix_cons.mp ((prefix_append_right_inj _).mp lies)).1
    · exact (cons_prefix_cons.mp ((prefix_append_right_inj _).mp lies)).1.symm
  exact ⟨others, same ▸ listed⟩

theorem manifest_installed : after.has ((order.target files).joinText manifestName) = .ok true ∧
      manifestAt after ((order.target files).joinText manifestName) =
        .ok (Manifest.parse order.manifest.written) := by
  have filled := isFilled_of_fill (isPlain_target sound suits) ended
  have inside := filled.joinText_manifestName
  have can : after.CanFollow [] ((order.target files).joinText manifestName).parts := by
    rw [joinText_manifestName]
    refine canFollow_append.mpr ⟨filled.reached, ?_, by decide, trivial⟩
    rw [← settle, filled.settle_eq]
    exact filled.directory
  have held := filled.manifest
  rw [← inside.settle_eq] at held
  rw [manifestAt, (readPath_eq_ok_iff inside.toIsRooted).mpr ⟨can, _, held, rfl⟩]
  refine ⟨(has_of_canFollow inside.toIsRooted can).trans (by rw [held]; rfl),
    congrArg Except.ok ?_⟩
  rw [Manifest.parse, Manifest.parse, String.toList_ofList,
    Text.universalNewlines_of_notMem (Text.notMem_universalNewlines _)]

/-- The version that has been installed is the one that is found, with its manifest. -/
theorem newest_installed : newest after order.name = .ok ⟨order.version, order.target files,
      Manifest.parse order.manifest.written⟩ := by
  have filled := isFilled_of_fill (isPlain_target sound suits) ended
  have home : store after = store files := by
    rw [store, store, (becomes_installed sound suits ended).places.2.1]
  have directory : (store files).joinText order.name =
      ⟨true, (store files).parts ++ [order.name]⟩ := joinText_name suits.name _
  have below : (order.target files).parts =
      ((store files).joinText order.name).parts ++ [order.version] := by
    rw [Order.target, joinText_name suits.version]
  have root : ((store files).joinText order.name).absolute = true :=
    congrArg Path.absolute directory
  obtain ⟨others, found⟩ := versions_installed sound suits ended root below fun version there =>
    suits.alone version (by rw [directory, append_assoc] at there; exact there)
  obtain ⟨shown, read⟩ := manifest_installed sound suits ended
  have has : after.has ((store files).joinText order.name) = .ok true := by
    have noDot := below ▸ filled.noDot
    obtain ⟨reached, version⟩ := canFollow_append.mp (below ▸ filled.reached)
    have there : after.entry? (settle ((store files).joinText order.name).parts) =
        some .directory := of_decide_eq_true version.1
    rw [has_of_canFollow ⟨root, fun member => noDot (mem_append_left _ member)⟩ reached, there]
    rfl
  rw [newest, home, has]
  rw [found]
  change Except.bind (after.has ((order.target files).joinText manifestName)) _ = _
  rw [shown]
  change Except.bind (manifestAt after ((order.target files).joinText manifestName)) _ = _
  rw [read]
  rfl

theorem find_installed (ordered : Package.order files path = .ok order)
    (read : files.readPath (order.source.joinText entry) = .ok text) :
    ∃ found, find after permissions order.name = .ok found ∧ found.version = order.version ∧
      found.manifest = Manifest.parse order.manifest.written ∧
      after.readPath found.entry = .ok text := by
  have settled := isSettled_of_order sound ordered
  have whole := isRead_manifest ordered
  have entry : after.readPath ((order.target files).joinText entry) = .ok text := by
    cases absolute : isAbsolute entry with
    | true => exact readPath_elsewhere sound suits ended absolute read
    | false => exact readPath_copied sound suits ended settled absolute read
  refine ⟨⟨order.version, Manifest.parse order.manifest.written, _⟩, ?_, rfl, rfl, entry⟩
  rw [find, newest_installed sound suits ended]
  change Candidate.accept _ _ _ _ = _
  rw [Candidate.accept, find?_requested_written whole suits.unquoted.2 suits.allowed]
  rw [Candidate.enter, pathPart_written whole suits.unquoted.1 suits.given]
  change Except.bind (after.has ((order.target files).joinText _)) _ = _
  rw [has_of_readPath entry]
  rfl

end

end Package

/-! ### Using what has been installed -/

theorem Package.install_ok {registry : String} {files : FileTree} {order : Order}
    {installed : Installed} (ordered : Package.order files path = .ok order)
    (ended : install registry path files = .ok installed after) :
    order.fill (order.target files) files = .ok () after := by
  rw [install] at ended
  split at ended
  · obtain ⟨_, same, reads, filling⟩ := FileChange.bind_ok ended
    obtain ⟨read, rfl⟩ := FileChange.reading_ok reads
    obtain rfl := Except.ok.inj (ordered.symm.trans read)
    obtain ⟨_, between, fills, ends⟩ := FileChange.bind_ok (FileChange.get_bind _ _ ▸ filling)
    cases ends
    exact fills
  · split at ended <;> cases ended

theorem Engine.install_ok {after : World} {order : Package.Order}
    (ordered : Package.order world.files path = .ok order)
    (ended : install settings path world = .ok () after) :
    order.fill (order.target world.files) world.files = .ok () after.files ∧
      checkPackages settings world = .ok () world ∧ after.packages = world.packages := by
  rcases checkPackages_cases settings world with allowed | ⟨exit, refused⟩
  · rw [install, bind_ok allowed, look_bind] at ended
    cases done : Package.install world.registry path world.files with
    | error cause files =>
      rw [bind_error (changingFiles_error done)] at ended
      cases ended
    | ok installed files =>
      rw [bind_ok (changingFiles_ok done)] at ended
      cases ended
      exact ⟨Package.install_ok ordered done, allowed, rfl⟩
  · rw [install, bind_error refused] at ended
    cases ended

theorem Run.checkPackages_ok {other : World} (same : other.packages = world.packages)
    (allowed : checkPackages settings world = .ok () world) :
    checkPackages settings other = .ok () other := by
  rw [checkPackages, look_bind] at allowed ⊢
  rw [same]
  split at allowed
  · cases allowed
  · rename_i there
    rw [if_neg there]
    rw [check] at allowed ⊢
    split at allowed
    · rename_i granted
      rw [if_pos granted]
      rfl
    · cases allowed

/-- A package that has been installed is found when it is used, with its manifest, and the text that
its entry had is run. -/
theorem installed_package_runs {settings : Settings} (engine : Engine) {world after : World}
    {path entry text : String} {order : Package.Order} (sound : world.files.IsSound)
    (ordered : Package.order world.files path = .ok order)
    (suits : order.Suits world.files settings.permissions entry)
    (read : world.files.readPath (order.source.joinText entry) = .ok text)
    (installed : install settings path world = .ok () after)
    (unshipped : after.files.has (Package.bundled after.files order.name) = .ok false) :
    engine.usePackage settings order.name after = (do
      engine.runPackage text
      noteLoaded order.name ⟨order.version, Manifest.parse order.manifest.written⟩) after := by
  obtain ⟨filled, allowed, same⟩ := install_ok ordered installed
  obtain ⟨found, finds, version, manifest, reads⟩ :=
    Package.find_installed sound suits filled ordered read
  rw [usePackage_eq, bind_ok (checkPackages_ok same allowed),
    Package.lookup_installed unshipped finds, reads, version, manifest]
  rfl

/-- A package without a directory of sources, whose entry leads through another directory. -/
theorem installed_package_runs_through_directory :
    let permissions : Permissions :=
      ⟨fun permission => permission = .packages || permission = .network⟩
    let settings : Settings := { permissions }
    let source := ["work", "new"]
    let files : FileTree :=
      ⟨[(["work"], .directory), (source, .directory), (source ++ ["gopa.toml"],
          .file "name = new\nentry = lib/../main.gopa\npermissions = ['network']\n"),
        (source ++ ["main.gopa"], .file "say 1\r\nsay 2"), (source ++ ["lib"], .directory),
        (["home"], .directory)], ["work"], ["home"], ["library"]⟩
    let world : World := { files, packages := some [] }
    ∃ after, install settings "./new" world = .ok () after ∧ ∀ engine,
      usePackage settings engine "new" after = (do
        engine.runPackage "say 1\nsay 2"
        noteLoaded "new" ⟨"1.0.0", [("name", .text "new"), ("entry", .text "lib/../main.gopa"),
          ("permissions", .list ["network"])]⟩) after := by
  intro permissions settings source files world
  let order : Package.Order := ⟨⟨true, source⟩, [("name", .text "new"),
    ("entry", .text "lib/../main.gopa"), ("permissions", .list ["network"])], "new", "1.0.0"⟩
  have ordered : Package.order files "./new" = .ok order :=
    FileChange.ok_of_toOption (by decide +kernel)
  have read : files.readPath (order.source.joinText "lib/../main.gopa") = .ok "say 1\nsay 2" :=
    FileChange.ok_of_toOption (by decide +kernel)
  have unshipped : (final (install settings "./new" world)).files.has
      (Package.bundled (final (install settings "./new" world)).files "new") =
        .ok false := FileChange.ok_of_toOption (by decide +kernel)
  have done : (install settings "./new").run' world = some () := by decide +kernel
  have sound : files.IsSound := ⟨by decide +kernel, by decide +kernel, by decide, by decide⟩
  have empty : (files.entries.all fun entry => !(Package.store files).parts.isPrefixOf entry.1) =
      true := by decide +kernel
  have entry : order.manifest.get? "entry" = some (.text "lib/../main.gopa") := by decide +kernel
  have granted : order.manifest.get? "permissions" = some (.list ["network"]) := by decide +kernel
  have suits : order.Suits files permissions "lib/../main.gopa" := by
    refine ⟨by decide +kernel, by decide +kernel, fun version there => ?_, by decide +kernel, by rfl,
      ⟨fun value held => ?_, fun value held => ?_⟩, fun _ => by decide +kernel,
      fun _ => by decide +kernel, fun absolute => absurd absolute (by decide +kernel),
      fun _ => ⟨by decide +kernel, by decide +kernel⟩⟩
    · have apart := all_eq_true.mp empty _ (mem_entries (by simp) (of_decide_eq_true there))
      rw [List.isPrefixOf_iff_prefix.mpr (prefix_append _ _)] at apart
      cases apart
    · rw [entry] at held
      cases held
      exact ⟨by decide, by decide⟩
    · rw [granted] at held
      cases held
  have again : Manifest.parse order.manifest.written = order.manifest := by decide +kernel
  obtain ⟨after, ended⟩ := ok_of_run' done
  rw [ended, final_ok] at unshipped
  refine ⟨after, ended, fun engine => ?_⟩
  have result := @installed_package_runs settings engine world after "./new" "lib/../main.gopa"
    "say 1\nsay 2" order sound ordered suits read ended unshipped
  rw [again] at result
  exact result

/-- A package with a directory of sources has nothing else copied: its entry beside that directory
is missing when the package is used. -/
theorem entry_beside_sources_is_missing :
    let permissions : Permissions := .default
    let settings : Settings := { permissions }
    let source := ["work", "new"]
    let files : FileTree :=
      ⟨[(["work"], .directory), (source, .directory),
        (source ++ ["gopa.toml"], .file "name = new\nentry = main.gopa\n"),
        (source ++ ["main.gopa"], .file "say 1\n"), (source ++ ["src"], .directory),
        (source ++ ["src", "other.gopa"], .file "say 2\n"), (["home"], .directory)],
        ["work"], ["home"], ["library"]⟩
    let world : World := { files, packages := some [] }
    let after := final (install settings "./new" world)
    (install settings "./new").run' world = some () ∧
      (files.readPath (fromRoot (source ++ ["main.gopa"]))).toOption = some "say 1\n" ∧
      ∀ engine, ∃ cause, usePackage settings engine "new" after = .error (.fault cause) after ∧
        cause.message = "Entry file not found: /home/.gopa_packages/new/1.0.0/main.gopa" := by
  intro permissions settings source files world after
  refine ⟨by decide +kernel, by decide +kernel, fun engine => ?_⟩
  have told : (((Package.lookup after.files permissions "new").map fun _ => "").tryCatch fun cause =>
      .ok cause.message).toOption =
        some "Entry file not found: /home/.gopa_packages/new/1.0.0/main.gopa" := by decide +kernel
  have allowed : (checkPackages settings).run' after = some () := by decide +kernel
  rw [usePackage_eq]
  rcases checkPackages_cases settings after with checked | ⟨exit, refused⟩
  · rw [bind_ok checked]
    generalize Package.lookup after.files permissions "new" = result at told ⊢
    cases result with
    | ok loading =>
      have silent : "" = "Entry file not found: /home/.gopa_packages/new/1.0.0/main.gopa" :=
        Option.some.inj told
      exact absurd silent (by decide)
    | error cause => exact ⟨cause.fault, rfl, Option.some.inj told⟩
  · obtain ⟨_, ended⟩ := ok_of_run' allowed
    cases refused.symm.trans ended

end Parlance
