import Mathlib.Data.List.Nodup
import Parlance.Proofs.Installing

/-!
What copies hold. When a directory has been copied without a fault, every directory below it has its
copy, and so has every file, with its text, unless a directory stood in its way.
-/

namespace Parlance

open FileTree List Copying

/-! ### Trees -/

namespace FileTree

/-- Whether a tree is one of files and directories: there is one thing at a location, everything is
in a directory, and the places that are known have no dots for names. -/
structure IsSound (tree : FileTree) : Prop where
  distinct : (tree.entries.map Prod.fst).Nodup
  closed : ∀ entry ∈ tree.entries, tree.isDirectory entry.1.dropLast = true
  work : "." ∉ tree.work
  home : "." ∉ tree.home ∧ ".." ∉ tree.home

variable {tree before after : FileTree} {location parts : List String}
  {fault : (String → FileFault) → FileFault} {path : Path}

theorem IsSound.isDirectory_above (sound : tree.IsSound) {above : List String} {entry : FileEntry}
    (held : tree.entry? location = some entry) (lies : above <+: location)
    (differs : above ≠ location) : tree.isDirectory above = true := by
  induction location using List.reverseRecOn generalizing entry with
  | nil => exact absurd (prefix_nil.mp lies) differs
  | append_singleton front name ih =>
    have parent : tree.isDirectory front = true := by
      have closed := sound.closed _ (mem_entries (by simp) held)
      rwa [dropLast_concat] at closed
    rcases prefix_concat_iff.mp lies with same | earlier
    · exact absurd same differs
    · by_cases here : above = front
      · rw [here]
        exact parent
      · exact ih (of_decide_eq_true parent) earlier here

theorem nodup_put (distinct : (tree.entries.map Prod.fst).Nodup) (location : List String)
    (entry : FileEntry) : ((tree.put location entry).entries.map Prod.fst).Nodup := by
  unfold put
  split
  · have same : (tree.entries.map fun old => if old.1 = location then (location, entry) else old).map
        Prod.fst = tree.entries.map Prod.fst := by
      rw [map_map]
      refine map_congr_left fun old _ => ?_
      by_cases here : old.1 = location
      · rw [Function.comp_apply, if_pos here, here]
      · rw [Function.comp_apply, if_neg here]
    rw [same]
    exact distinct
  · rename_i missing
    have fresh : location ∉ tree.entries.map Prod.fst := by
      intro member
      obtain ⟨old, found, rfl⟩ := mem_map.mp member
      refine missing ?_
      rw [Option.isSome_iff_ne_none, Ne, lookup_eq_none_iff]
      exact fun none => by simpa using none old found
    rw [map_append, map_singleton, ← concat_eq_append]
    exact distinct.concat fresh

theorem Becomes.nodup {may : List String → FileEntry → Prop} (becomes : Becomes may before after)
    (distinct : (before.entries.map Prod.fst).Nodup) : (after.entries.map Prod.fst).Nodup := by
  induction becomes with
  | same => exact distinct
  | put _ _ _ ih => exact nodup_put ih _ _

/-! ### Following -/

theorem has_of_canFollow {path : Path} (rooted : path.IsRooted)
    (can : tree.CanFollow [] path.parts) :
    tree.has path = .ok (tree.entry? (Path.settle path.parts)).isSome := by
  rw [has, (locate_eq_ok_iff rooted).mpr ⟨can, rfl⟩]

theorem CanFollow.mono (can : before.CanFollow location parts)
    (kept : ∀ place, before.isDirectory place = true → after.isDirectory place = true) :
    after.CanFollow location parts := by
  induction parts generalizing location with
  | nil => trivial
  | cons part rest ih =>
    exact ⟨kept _ can.1, can.2.1, ih can.2.2⟩

theorem canFollow_append {first second : List String} : tree.CanFollow location (first ++ second) ↔
      tree.CanFollow location first ∧ tree.CanFollow (first.foldl Path.go location) second := by
  induction first generalizing location with
  | nil => exact ⟨fun can => ⟨trivial, can⟩, And.right⟩
  | cons part rest ih =>
    rw [cons_append, CanFollow, CanFollow, ih, foldl_cons, and_assoc, and_assoc]

end FileTree

/-! ### Things copied one after another -/

open FileTree (Becomes MayCopy)

/-- Whether things below a directory have been copied one after another. -/
inductive Copied (source : List String) (target : CopyTarget) :
    List (List String × FileEntry) → FileTree → FileTree → Prop
  | nil (tree : FileTree) : Copied source target [] tree tree
  | cons {item : List String × FileEntry} {rest : List (List String × FileEntry)}
    {before between after : FileTree} :
    before.copyEntry item.1 (target.below (item.1.drop source.length)) item.2 = .ok between →
    Copied source target rest between after → Copied source target (item :: rest) before after

namespace Copied

variable {source : List String} {target : CopyTarget} {items : List (List String × FileEntry)}
  {before after : FileTree}

theorem becomes (copied : Copied source target items before after) :
    Becomes (MayCopyAll source target.location items) before after := by
  induction copied with
  | nil => exact .same _
  | @cons item rest _ _ _ ended _ ih =>
    have first : Becomes (MayCopyAll source target.location (item :: rest)) _ _ :=
      (becomes_copyEntry ended).mono fun _ _ allowed =>
        ⟨item, mem_cons_self, allowed⟩
    refine first.trans (ih.mono fun _ _ allowed => ?_)
    obtain ⟨other, member, copy⟩ := allowed
    exact ⟨other, mem_cons_of_mem _ member, copy⟩

theorem split {front rest : List (List String × FileEntry)} {item : List String × FileEntry}
    (copied : Copied source target (front ++ item :: rest) before after) :
    ∃ earlier later, Copied source target front before earlier ∧
      earlier.copyEntry item.1 (target.below (item.1.drop source.length)) item.2 = .ok later ∧
      Copied source target rest later after := by
  induction front generalizing before with
  | nil =>
    cases copied with
    | cons ended others => exact ⟨before, _, .nil before, ended, others⟩
  | cons first front ih =>
    cases copied with
    | cons ended others =>
      obtain ⟨earlier, later, done, copies, left⟩ := ih others
      exact ⟨earlier, later, .cons ended done, copies, left⟩

variable {inner : List String}

theorem isDirectory (copied : Copied source target items before after)
    (member : (source ++ inner, .directory) ∈ items) :
    after.isDirectory (target.location ++ inner) = true := by
  obtain ⟨front, rest, rfl⟩ := append_of_mem member
  obtain ⟨earlier, later, _, ended, left⟩ := copied.split
  refine left.becomes.isDirectory ?_
  have made := isDirectory_copyDirectory ended
  rwa [CopyTarget.below, drop_left] at made

/-- Nothing else is put where the copy of a thing is. -/
theorem not_mayCopyAll {others : List (List String × FileEntry)} {entry : FileEntry}
    (below : ∀ item ∈ others, source <+: item.1) (apart : ∀ item ∈ others, item.1 ≠ source ++ inner)
    (parent : ∀ text, (source ++ inner.dropLast, .file text) ∉ others) :
    ¬ MayCopyAll source target.location others (target.location ++ inner) entry := by
  rintro ⟨⟨location, thing⟩, member, allowed⟩
  obtain ⟨rest, rfl⟩ := below _ member
  have other := apart _ member
  rw [drop_left] at allowed
  have elsewhere (same : target.location ++ inner = target.location ++ rest) : False :=
    other (by rw [append_cancel_left same])
  cases thing with
  | directory => exact elsewhere allowed.2
  | file text =>
    rcases allowed.2 with same | same
    · exact elsewhere same
    · rw [append_assoc] at same
      have shape := append_cancel_left same
      cases last : (source ++ rest).getLast? with
      | none =>
        rw [last, Option.toList_none, append_nil] at shape
        exact other (by rw [shape])
      | some name =>
        rw [last, Option.toList_some] at shape
        rw [shape, dropLast_concat] at parent
        exact parent text member

/-- A file has its copy, unless a directory stood in its way. -/
theorem entry?_file (copied : Copied source target items before after)
    (distinct : (items.map Prod.fst).Nodup) (below : ∀ item ∈ items, source <+: item.1)
    {text : String} (member : (source ++ inner, .file text) ∈ items)
    (parent : ∀ text, (source ++ inner.dropLast, .file text) ∉ items)
    (free : before.isDirectory (target.location ++ inner) = false) :
    after.entry? (target.location ++ inner) = some (.file text) := by
  obtain ⟨front, rest, rfl⟩ := append_of_mem member
  obtain ⟨earlier, later, done, ended, left⟩ := copied.split
  rw [map_append, map_cons, nodup_middle, nodup_cons, mem_append, not_or] at distinct
  have never (others : List (List String × FileEntry))
      (part : ∀ item ∈ others, item ∈ front ++ (source ++ inner, .file text) :: rest)
      (absent : source ++ inner ∉ others.map Prod.fst) (entry : FileEntry) :
      ¬ MayCopyAll source target.location others (target.location ++ inner) entry :=
    not_mayCopyAll (fun item held => below item (part item held))
      (fun item held same => absent (same ▸ mem_map_of_mem held))
      fun text held => parent text (part _ held)
  have open' : earlier.isDirectory (target.location ++ inner) = false := by
    refine Bool.eq_false_iff.mpr fun directory => ?_
    rcases done.becomes.isDirectory_cases directory with there | put
    · cases there.symm.trans free
    · exact never front (fun item => mem_append_left _) distinct.1.1 _ put
  dsimp only at ended
  rw [drop_left] at ended
  rw [left.becomes.entry?_eq (never rest (fun item held =>
    mem_append_right _ (mem_cons_of_mem _ held)) distinct.1.2)]
  exact entry?_copyFile ended open'

end Copied

/-! ### Directories copied without a fault -/

theorem Copying.failures_foldl (source : List String) (target : CopyTarget)
    (items : List (List String × FileEntry)) (copying : Copying) :
    copying.failures <+: (items.foldl (next source target) copying).failures := by
  induction items generalizing copying with
  | nil => exact prefix_rfl
  | cons item rest ih =>
    refine List.IsPrefix.trans ?_ (ih _)
    unfold next
    split
    · exact prefix_rfl
    · dsimp only
      split
      · exact prefix_rfl
      · exact prefix_append _ _

/-- If nothing failed, everything has been copied in turn. -/
theorem Copying.copied {source : List String} {target : CopyTarget}
    {items : List (List String × FileEntry)} {tree : FileTree}
    (none : (items.foldl (next source target) ⟨tree, [], []⟩).failures = []) :
    Copied source target items tree
      (items.foldl (next source target) ⟨tree, [], []⟩).tree := by
  induction items generalizing tree with
  | nil => exact .nil tree
  | cons item rest ih =>
    rw [foldl_cons] at none ⊢
    cases ended : tree.copyEntry item.1 (target.below (item.1.drop source.length)) item.2 with
    | ok between =>
      have next : next source target ⟨tree, [], []⟩ item = ⟨between, [], []⟩ := by
        rw [next, if_neg (by simp)]
        dsimp only
        rw [ended]
      rw [next] at none ⊢
      exact .cons ended (ih none)
    | error cause =>
      have next : (next source target ⟨tree, [], []⟩ item).failures ≠ [] := by
        rw [next, if_neg (by simp)]
        dsimp only
        rw [ended]
        exact cons_ne_nil _ _
      have kept := failures_foldl source target rest
        (Copying.next source target ⟨tree, [], []⟩ item)
      rw [none] at kept
      exact absurd (prefix_nil.mp kept) next

namespace FileChange

variable {source : List String} {target : CopyTarget} {before after : FileTree}

theorem copyAll_ok (ended : copyAll source target before = .ok () after) :
    ∃ made, before.copyDirectory target = .ok made ∧
      Copied source target (before.below source) made after := by
  rcases copyAll_cases source target before with ⟨cause, failed⟩ |
    ⟨made, copying, copied, rfl, ⟨none, done⟩ | ⟨cause, failed⟩⟩
  · cases ended.symm.trans failed
  · cases ended.symm.trans done
    exact ⟨made, copied, Copying.copied none⟩
  · cases ended.symm.trans failed

variable {inner : List String}

theorem mem_below {entry : FileEntry} (proper : inner ≠ [])
    (held : before.entry? (source ++ inner) = some entry) :
    (source ++ inner, entry) ∈ before.below source := by
  have nonempty : source ++ inner ≠ [] := fun root => proper (append_eq_nil_iff.mp root).2
  refine mem_filter.mpr ⟨mem_entries nonempty held, ?_⟩
  have inside : source.isPrefixOf (source ++ inner) = true :=
    isPrefixOf_iff_prefix.mpr (prefix_append _ _)
  have other : source ++ inner ≠ source := fun same => proper (append_right_eq_self.mp same)
  rw [inside, decide_eq_true other]
  rfl

theorem isDirectory_copyAll (ended : copyAll source target before = .ok () after)
    (directory : before.isDirectory (source ++ inner) = true) :
    after.isDirectory (target.location ++ inner) = true := by
  obtain ⟨made, copied, copies⟩ := copyAll_ok ended
  by_cases root : inner = []
  · subst root
    rw [append_nil]
    exact copies.becomes.isDirectory (isDirectory_copyDirectory copied)
  · exact copies.isDirectory (mem_below root (of_decide_eq_true directory))

/-- Every file has its copy, unless a directory stood in its way. -/
theorem entry?_copyAll (ended : copyAll source target before = .ok () after)
    (distinct : (before.entries.map Prod.fst).Nodup) {text : String} (proper : inner ≠ [])
    (held : before.entry? (source ++ inner) = some (.file text))
    (parent : before.isDirectory (source ++ inner.dropLast) = true)
    (free : before.isDirectory (target.location ++ inner) = false) :
    after.entry? (target.location ++ inner) = some (.file text) := by
  obtain ⟨made, copied, copies⟩ := copyAll_ok ended
  have sub : (before.below source).Sublist before.entries := filter_sublist
  have below (item : List String × FileEntry) (member : item ∈ before.below source) :
      source <+: item.1 ∧ item.1 ≠ source := by
    have test := (mem_filter.mp member).2
    rw [Bool.and_eq_true] at test
    exact ⟨List.isPrefixOf_iff_prefix.mp test.1, of_decide_eq_true test.2⟩
  refine copies.entry?_file (distinct.sublist (sub.map _)) (fun item member => (below item member).1)
    (mem_below proper held) (fun other member => ?_) ?_
  · by_cases root : inner.dropLast = []
    · have apart := (below _ member).2
      rw [root] at apart
      exact apart (append_nil _)
    · have directory := mem_below root (of_decide_eq_true parent)
      cases inj_on_of_nodup_map distinct (sub.subset member) (sub.subset directory) rfl
  · refine Bool.eq_false_iff.mpr fun directory => ?_
    rcases (becomes_copyDirectory copied source).isDirectory_cases directory with
      there | put
    · cases there.symm.trans free
    · exact proper (append_right_eq_self.mp put.2)

end FileChange

/-! ### Contents of packages -/

namespace FileChange

variable {before after : FileTree} {α : Type} {change : String → FileChange Unit}
  {source : List String} {target : CopyTarget}

theorem bind_ok {β : Type} {change : FileChange α} {next : α → FileChange β} {value : β}
    (ended : (change >>= next) before = .ok value after) :
    ∃ first between, change before = .ok first between ∧ next first between = .ok value after := by
  change EStateM.bind change next before = _ at ended
  rw [EStateM.bind] at ended
  split at ended
  · rename_i first between done
    exact ⟨first, between, done, ended⟩
  · cases ended

theorem step_ok {action : FileTree → Except Refusal FileTree}
    (ended : step action before = .ok () after) : action before = .ok after := by
  rw [step] at ended
  split at ended
  · rename_i done
    cases ended
    exact done
  · cases ended

theorem reading_ok {view : FileTree → Except Refusal α} {value : α}
    (ended : reading view before = .ok value after) : view before = .ok value ∧ after = before := by
  rw [reading] at ended
  split at ended
  · rename_i seen
    cases ended
    exact ⟨seen, rfl⟩
  · cases ended

theorem puts_forM {may : String → List String → FileEntry → Prop}
    (each : ∀ name, Puts (may name) (change name)) (names : List String) :
    Puts (fun location entry => ∃ name ∈ names, may name location entry) (names.forM change) := by
  induction names with
  | nil => exact puts_pure _
  | cons name rest ih =>
    refine puts_bind ((each name).mono fun _ _ allowed => ?_) fun _ =>
      ih.mono fun _ _ allowed => ?_
    · exact ⟨name, mem_cons_self, allowed⟩
    · obtain ⟨other, member, allowed⟩ := allowed
      exact ⟨other, mem_cons_of_mem _ member, allowed⟩

theorem forM_ok {front rest : List String} {name : String}
    (ended : (front ++ name :: rest).forM change before = .ok () after) :
    ∃ earlier later, front.forM change before = .ok () earlier ∧
      change name earlier = .ok () later ∧ rest.forM change later = .ok () after := by
  induction front generalizing before with
  | nil =>
    obtain ⟨_, later, done, left⟩ := bind_ok ended
    exact ⟨before, later, rfl, done, left⟩
  | cons first front ih =>
    obtain ⟨_, between, done, others⟩ := bind_ok ended
    obtain ⟨earlier, later, begun, copied, left⟩ := ih others
    refine ⟨earlier, later, ?_, copied, left⟩
    change EStateM.bind (change first) _ before = _
    rw [EStateM.bind, done]
    exact begun

theorem copy_directory_ok (directory : before.isDirectory source = true)
    (ended : copy source target before = .ok () after) :
    copyAll source target before = .ok () after := by
  rw [copy, get_bind] at ended
  rwa [of_decide_eq_true directory] at ended

theorem copy_file_ok {text : String} (held : before.entry? source = some (.file text))
    (free : before.isDirectory target.location = false)
    (ended : copy source target before = .ok () after) :
    after.entry? target.location = some (.file text) := by
  rw [copy, get_bind] at ended
  rw [held] at ended
  exact entry?_copyFile (ok_of_mapError (step_ok ended)) free

end FileChange

open FileChange

namespace FileTree

variable {tree : FileTree}

theorem mem_children {location : List String} {name : String} {entry : FileEntry}
    (held : tree.entry? (location ++ [name]) = some entry) : name ∈ tree.children location :=
  mem_filterMap.mpr ⟨_, mem_entries (by simp) held, nameIn_eq_some.mpr rfl⟩

theorem nodup_children (distinct : (tree.entries.map Prod.fst).Nodup) (location : List String) :
    (tree.children location).Nodup := by
  refine List.Pairwise.filterMap _ (fun one other apart first found second met same => ?_)
    (pairwise_map.mp distinct)
  rw [← same] at met
  exact apart ((nameIn_eq_some.mp found).trans (nameIn_eq_some.mp met).symm)

end FileTree

namespace Package

/-- Whether neither of two locations is inside the other. -/
def Apart (one other : List String) : Prop := ¬ one <+: other ∧ ¬ other <+: one

theorem Apart.elim {one other location : List String} (apart : Apart one other)
    (inside : one <+: location) (within : other <+: location) : False :=
  (List.prefix_or_prefix_of_prefix inside within).elim apart.1 apart.2

/-- Whether what has a name in the directory of a package is part of its content. -/
def isPart (files : FileTree) (source : List String) (name : String) : Bool :=
  if (files.entry? (source ++ ["src"])).isSome then name = "src" else name ≠ manifestName

variable {source : List String} {target : CopyTarget} {before after : FileTree}

theorem copyContent_cases (ended : copyContent source target before = .ok () after) :
    (before.isDirectory (source ++ ["src"]) = true ∧
      copyAll (source ++ ["src"]) (target.below ["src"]) before = .ok () after) ∨
    (before.entry? (source ++ ["src"]) = none ∧
      ((before.children source).filter (· ≠ manifestName)).forM
        (fun name => copy (source ++ [name]) (target.below [name])) before = .ok () after) := by
  rw [copyContent, get_bind] at ended
  cases held : before.entry? (source ++ ["src"]) with
  | none =>
    rw [held] at ended
    exact .inr ⟨rfl, ended⟩
  | some entry =>
    rw [held] at ended
    cases entry with
    | directory => exact .inl ⟨decide_eq_true held, ended⟩
    | file text => cases ended

section

variable (ended : copyContent source target before = .ok () after)
  (apart : before.entry? (source ++ ["src"]) = none → Apart source target.location)
  (distinct : (before.entries.map Prod.fst).Nodup)

include ended apart distinct

variable {name : String} {inner : List String}

/-- Everything that is part of the content is copied by itself, and nothing before and after that
touches it or its copy. -/
theorem name_copied {entry : FileEntry} (part : isPart before source name = true)
    (held : before.entry? (source ++ [name]) = some entry) :
    ∃ earlier later, copy (source ++ [name]) (target.below [name]) earlier = .ok () later ∧
      (∀ inner, earlier.entry? (source ++ inner) = before.entry? (source ++ inner)) ∧
      (∀ inner, earlier.entry? (target.location ++ name :: inner) =
        before.entry? (target.location ++ name :: inner)) ∧
      (∀ inner, after.entry? (target.location ++ name :: inner) =
        later.entry? (target.location ++ name :: inner)) ∧
      (earlier.entries.map Prod.fst).Nodup := by
  rw [isPart] at part
  rcases copyContent_cases ended with ⟨there, copied⟩ | ⟨missing, each⟩
  · have sources : before.entry? (source ++ ["src"]) = some .directory := of_decide_eq_true there
    rw [sources] at part
    obtain rfl : name = "src" := of_decide_eq_true part
    refine ⟨before, after, ?_, fun _ => rfl, fun _ => rfl, fun _ => rfl, distinct⟩
    rwa [copy, get_bind, sources]
  rw [missing] at part
  have member : name ∈ (before.children source).filter (· ≠ manifestName) :=
    mem_filter.mpr ⟨mem_children held, part⟩
  have once := (nodup_children distinct source).filter (· ≠ manifestName)
  obtain ⟨front, rest, names⟩ := append_of_mem member
  rw [names] at each once
  obtain ⟨earlier, later, begun, copied, left⟩ := forM_ok each
  rw [nodup_middle, nodup_cons, mem_append, not_or] at once
  have puts (name : String) := puts_copy (source ++ [name]) (target.below [name])
  have first := puts_forM puts front before
  have last := puts_forM puts rest later
  rw [final_ok begun] at first
  rw [final_ok left] at last
  have never {others : List String} (absent : name ∉ others) (inner : List String)
      (entry : FileEntry) : ¬ ∃ other ∈ others,
        MayBelow (target.below [other]).location (target.location ++ name :: inner) entry := by
    rintro ⟨other, found, lies⟩
    have same := (cons_prefix_cons.mp ((prefix_append_right_inj _).mp lies)).1
    exact absent (same ▸ found)
  refine ⟨earlier, later, copied, fun inner => first.entry?_eq fun entry => ?_,
    fun inner => first.entry?_eq (never once.1.1 inner),
    fun inner => last.entry?_eq (never once.1.2 inner), first.nodup distinct⟩
  rintro ⟨other, _, lies⟩
  exact (apart missing).elim (prefix_append _ _) ((prefix_append _ _).trans lies)

theorem isDirectory_copyContent (part : isPart before source name = true)
    (here : before.isDirectory (source ++ [name]) = true)
    (directory : before.isDirectory (source ++ name :: inner) = true) :
    after.isDirectory (target.location ++ name :: inner) = true := by
  obtain ⟨earlier, later, copied, same, _, kept, _⟩ :=
    name_copied ended apart distinct part (of_decide_eq_true here)
  rw [isDirectory, ← same] at here directory
  rw [isDirectory, kept]
  rw [append_cons] at directory ⊢
  exact isDirectory_copyAll (copy_directory_ok here copied) directory

/-- Every file that is part of the content has its copy, unless a directory stood in its way. -/
theorem entry?_copyContent {text : String} (part : isPart before source name = true)
    (held : before.entry? (source ++ name :: inner) = some (.file text))
    (above : ∀ front, front <+: inner → front ≠ inner →
      before.isDirectory (source ++ name :: front) = true)
    (free : before.isDirectory (target.location ++ name :: inner) = false) :
    after.entry? (target.location ++ name :: inner) = some (.file text) := by
  have parent (proper : inner ≠ []) : before.isDirectory (source ++ name :: inner.dropLast) = true :=
    above _ (List.dropLast_prefix _) fun same => proper <| length_eq_zero_iff.mp <| by
      have lengths := congrArg List.length same
      rw [length_dropLast] at lengths
      omega
  by_cases proper : inner = []
  · subst proper
    obtain ⟨earlier, later, copied, same, clear, kept, _⟩ :=
      name_copied ended apart distinct part held
    rw [isDirectory, ← clear] at free
    rw [kept]
    refine copy_file_ok ((same _).trans held) ?_ copied
    exact free
  · have here := above [] nil_prefix (Ne.symm proper)
    obtain ⟨earlier, later, copied, same, clear, kept, nodup⟩ :=
      name_copied ended apart distinct part (of_decide_eq_true here)
    have deep := parent proper
    rw [isDirectory, ← same] at here deep
    rw [isDirectory, ← clear] at free
    rw [← same] at held
    rw [kept]
    rw [append_cons] at deep held free ⊢
    exact entry?_copyAll (copy_directory_ok here copied) nodup proper held deep free

end

end Package

/-! ### Versions -/

namespace Package

open FileTree

variable {files : FileTree} {directory : Path} {location : List String}

/-- The versions of a package begin with the one whose name comes last. -/
theorem versions_cons (located : files.locate directory = .ok location)
    (there : files.isDirectory location = true)
    (some : ∃ version, files.isDirectory (location ++ [version]) = true) :
    ∃ latest others, versions files directory = .ok (latest :: others) ∧
      files.isDirectory (location ++ [latest]) = true ∧
      ∀ version, files.isDirectory (location ++ [version]) = true → version ≤ latest := by
  let names := (files.children location).filter fun name => files.isDirectory (location ++ [name])
  have mem_names (version : String) :
      version ∈ names ↔ files.isDirectory (location ++ [version]) = true :=
    ⟨fun member => (mem_filter.mp member).2, fun held =>
      mem_filter.mpr ⟨mem_children (of_decide_eq_true held), held⟩⟩
  have listed : versions files directory =
      .ok (names.mergeSort fun first second => second ≤ first) := by
    rw [versions, located]
    exact if_pos there
  have ordered := @pairwise_mergeSort String (fun first second => second ≤ first)
    (by simpa using fun _ _ _ second first => String.le_trans first second)
    (by simpa using fun first second => String.le_total second first) names
  have same (version : String) : version ∈ names.mergeSort (fun first second => second ≤ first) ↔
      version ∈ names := mem_mergeSort
  rw [listed]
  generalize names.mergeSort (fun first second => second ≤ first) = sorted at ordered same
  cases sorted with
  | nil =>
    obtain ⟨version, held⟩ := some
    cases (same version).mpr ((mem_names version).mpr held)
  | cons latest others =>
    refine ⟨latest, others, rfl, (mem_names latest).mp ((same latest).mp mem_cons_self), ?_⟩
    intro version held
    rcases mem_cons.mp ((same version).mpr ((mem_names version).mpr held)) with rfl | later
    · exact String.le_refl version
    · exact of_decide_eq_true (rel_of_pairwise_cons ordered later)

end Package

end Parlance
