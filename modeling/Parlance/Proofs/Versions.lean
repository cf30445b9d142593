import Mathlib.Data.String.Basic
import Parlance.Proofs.Copies
import Parlance.Proofs.PackagePlaces

/-!
The version of a package that is used. It is the one whose name comes last as a text. Where the
names are numbers with dots between, it is the greatest as numbers unless another differs from it
first in a number that is longer and comes earlier as a text, as ten does before nine.
-/

namespace Parlance

open List Nat

/-! ### Numbers as texts -/

/-- Whether a number has more digits than another and yet comes before it as a text. -/
def LooksSmaller (number other : Nat) : Prop :=
  (toDigits 10 other).length < (toDigits 10 number).length ∧
    toDigits 10 number < toDigits 10 other

theorem append_lt_append_of_length {front other : List Char} (less : front < other)
    (same : front.length = other.length) (rest more : List Char) :
    front ++ rest < other ++ more := by
  induction front generalizing other with
  | nil =>
    rw [length_eq_zero_iff.mp same.symm] at less
    cases less
  | cons c front ih =>
    cases other with
    | nil => cases less
    | cons d other =>
      refine cons_lt_cons_iff.mpr ((cons_lt_cons_iff.mp less).imp_right ?_)
      rintro ⟨equal, later⟩
      exact ⟨equal, ih later (succ.inj same)⟩

variable {number other : Nat}

theorem length_toDigits_le (most : number ≤ other) :
    (toDigits 10 number).length ≤ (toDigits 10 other).length := by
  have fits := (length_toDigits_le_iff (by decide) length_toDigits_pos).mp
    (le_refl (toDigits 10 other).length)
  exact (length_toDigits_le_iff (by decide) length_toDigits_pos).mpr
    (lt_of_le_of_lt most fits)

theorem digitChar_lt : ∀ digit < 10, ∀ other < 10, digit < other →
    digitChar digit < digitChar other := by
  decide

/-- Numbers of the same length are ordered as their texts are. -/
theorem toDigits_lt_of_length (less : number < other)
    (same : (toDigits 10 number).length = (toDigits 10 other).length) :
    toDigits 10 number < toDigits 10 other := by
  induction other using Nat.strongRecOn generalizing number with
  | ind other ih =>
    by_cases small : other < 10
    · rw [toDigits_of_lt_base small, toDigits_of_lt_base (less.trans small)]
      exact cons_lt_cons_iff.mpr (.inl (digitChar_lt _ (less.trans small) _ small less))
    · have large : 10 ≤ number := by
        by_contra short
        rw [toDigits_of_lt_base (by omega), toDigits_of_base_le (by decide) (by omega),
          length_append] at same
        have some := @length_toDigits_pos 10 (other / 10)
        change 1 = _ + 1 at same
        omega
      rw [toDigits_of_base_le (by decide) large,
        toDigits_of_base_le (by decide) (large.trans less.le)] at same ⊢
      rcases lt_or_ge (number / 10) (other / 10) with before | after
      · have shorter : (toDigits 10 (number / 10)).length =
            (toDigits 10 (other / 10)).length := by simpa using same
        exact append_lt_append_of_length (ih _ (by omega) before shorter) shorter _ _
      · have equal : number / 10 = other / 10 := by omega
        rw [equal]
        have digit := digitChar_lt (number % 10) (by omega) (other % 10) (by omega) (by omega)
        exact append_left_lt (cons_lt_cons_iff.mpr (.inl digit))

theorem looksSmaller_iff : LooksSmaller number other ↔
    other < number ∧ toDigits 10 number < toDigits 10 other := by
  refine and_congr_left fun before => ⟨fun longer => ?_, fun greater => ?_⟩
  · by_contra least
    exact absurd (length_toDigits_le (not_lt.mp least)) (not_le.mpr longer)
  · refine lt_of_le_of_ne (length_toDigits_le greater.le) fun same => ?_
    exact List.lt_asymm before (toDigits_lt_of_length greater same)

/-! ### Names of versions -/

/-- The name of a version whose numbers have dots between them. -/
def dotted (numbers : List Nat) : String :=
  ".".intercalate (numbers.map toString)

theorem toList_dotted_cons (number : Nat) (rest : List Nat) : (dotted (number :: rest)).toList =
    toDigits 10 number ++ rest.flatMap fun each => '.' :: toDigits 10 each := by
  induction rest generalizing number with
  | nil => simp [dotted]
  | cons each rest ih =>
    rw [dotted, map_cons, map_cons, String.intercalate_cons_cons, ← map_cons, ← dotted,
      String.toList_append, String.toList_append, ih, toString_eq_ofList_toDigits]
    simp

theorem toList_dotted (front : List Nat) (number : Nat) (rest : List Nat) :
    (dotted (front ++ number :: rest)).toList =
      front.flatMap (fun each => toDigits 10 each ++ ['.']) ++
        (toDigits 10 number ++ rest.flatMap fun each => '.' :: toDigits 10 each) := by
  cases front with
  | nil => exact toList_dotted_cons number rest
  | cons first front =>
    rw [cons_append, toList_dotted_cons]
    induction front generalizing first with
    | nil => simp
    | cons each front ih => simpa using ih each

/-- After a number that is a beginning of another, neither a dot nor an end comes after a digit. -/
theorem toDigits_append_lt (before : toDigits 10 number < toDigits 10 other)
    (rest more : List Nat) :
    (toDigits 10 number ++ rest.flatMap fun each => '.' :: toDigits 10 each) <
      toDigits 10 other ++ more.flatMap fun each => '.' :: toDigits 10 each := by
  have digit : ∀ c ∈ toDigits 10 other, '.' < c := by
    intro c member
    have range := isDigit_of_mem_toDigits (by decide) (by decide) member
    simp only [Char.isDigit, ge_iff_le, Bool.and_eq_true, decide_eq_true_eq] at range
    exact lt_of_lt_of_le (show '.' < '0' by decide) (show '0' ≤ c from range.1)
  generalize toDigits 10 number = front at before
  generalize toDigits 10 other = digits at before digit
  induction front generalizing digits with
  | nil =>
    cases digits with
    | nil => cases before
    | cons d digits =>
      cases rest with
      | nil => exact nil_lt_cons _ _
      | cons each rest => exact cons_lt_cons_iff.mpr (.inl (digit d mem_cons_self))
  | cons c front ih =>
    cases digits with
    | nil => cases before
    | cons d digits =>
      refine cons_lt_cons_iff.mpr ((cons_lt_cons_iff.mp before).imp_right ?_)
      rintro ⟨equal, later⟩
      exact ⟨equal, ih digits later fun c member => digit c (mem_cons_of_mem _ member)⟩

theorem dotted_lt_append (front : List Nat) (number other : Nat) (more : List Nat) :
    dotted (front ++ [number]) < dotted (front ++ number :: other :: more) := by
  rw [String.lt_iff_toList_lt, toList_dotted, toList_dotted]
  exact append_left_lt (append_left_lt (nil_lt_cons _ _))

/-- Two names are ordered by the texts of the first numbers in which they differ. -/
theorem dotted_lt (before : toDigits 10 number < toDigits 10 other) (front rest more : List Nat) :
    dotted (front ++ number :: rest) < dotted (front ++ other :: more) := by
  rw [String.lt_iff_toList_lt, toList_dotted, toList_dotted]
  exact append_left_lt (toDigits_append_lt before rest more)

theorem lt_cases {front other : List Nat} (less : front < other) :
    (∃ number more, other = front ++ number :: more) ∨
      ∃ shared number rest greater more, front = shared ++ number :: rest ∧
        other = shared ++ greater :: more ∧ number < greater := by
  induction less with
  | nil => exact .inl ⟨_, _, rfl⟩
  | rel less => exact .inr ⟨[], _, _, _, _, rfl, rfl, less⟩
  | cons _ ih =>
    rcases ih with ⟨number, more, rfl⟩ | ⟨shared, number, rest, greater, more, rfl, rfl, less⟩
    · exact .inl ⟨number, more, rfl⟩
    · exact .inr ⟨_ :: shared, number, rest, greater, more, rfl, rfl, less⟩

/-- The numbers of the last name are the greatest of those in a collection unless another name
differs from it first in a number that looks smaller. -/
theorem greatest_iff {held : List Nat → Prop} {numbers : List Nat} (some : numbers ≠ [])
    (last : ∀ other, held other → dotted other ≤ dotted numbers) :
    (∀ other, held other → other ≤ numbers) ↔
      ∀ front number rest greater more, numbers = front ++ number :: rest →
        held (front ++ greater :: more) → ¬ LooksSmaller greater number := by
  constructor
  · rintro greatest front number rest greater more rfl member looks
    have less := greatest _ member
    refine absurd less (not_le.mpr (append_left_lt (cons_lt_cons_iff.mpr (.inl ?_))))
    exact (looksSmaller_iff.mp looks).1
  · intro plain other member
    by_contra exceeds
    rcases lt_cases (not_le.mp exceeds) with
      ⟨greater, more, rfl⟩ | ⟨front, number, rest, greater, more, rfl, rfl, less⟩
    · obtain ⟨front, number, rfl⟩ := eq_nil_or_concat numbers |>.resolve_left some
      rw [concat_eq_append] at last member
      rw [append_assoc] at member
      exact absurd (last _ member) (String.not_le.mpr (dotted_lt_append front number greater more))
    · rcases lt_trichotomy (toDigits 10 number) (toDigits 10 greater) with
        before | same | after
      · exact absurd (last _ member) (String.not_le.mpr (dotted_lt before front rest more))
      · have equal := congrArg (ofDigitChars 10 · 0) same
        simp only [ofDigitChars_ten_toDigits] at equal
        exact absurd equal less.ne
      · exact plain front number rest greater more rfl member (looksSmaller_iff.mpr ⟨less, after⟩)

/-! ### The version that is used -/

namespace Package

open FileTree

variable {files : FileTree} {name : String}

/-- What is loaded of a package if a certain version of it is used. -/
def loadVersion (files : FileTree) (permissions : Permissions) (name version : String) :
    Except Refusal Loading := do
  let place := ((store files).joinText name).joinText version
  if !(← files.has (place.joinText manifestName)) then
    .error (.package (.noManifest name))
  else
    let manifest ← manifestAt files (place.joinText manifestName)
    let found ← Candidate.accept files permissions name ⟨version, place, manifest⟩
    return ⟨← files.readPath found.entry, some ⟨version, manifest⟩⟩

theorem accept_version {permissions : Permissions} {candidate : Candidate} {found : Found}
    (accepted : candidate.accept files permissions name = .ok found) :
    found.version = candidate.version ∧ found.manifest = candidate.manifest := by
  rw [Candidate.accept] at accepted
  split at accepted
  · cases accepted
  · rw [Candidate.enter] at accepted
    obtain ⟨part, _, accepted⟩ := Except.bind_eq_ok accepted
    obtain ⟨present, _, accepted⟩ := Except.bind_eq_ok accepted
    split at accepted
    · cases accepted
      exact ⟨rfl, rfl⟩
    · cases accepted

/-- An installed package is loaded from its first version. -/
theorem lookup_versions {latest : String} {others : List String}
    (missing : files.has (bundled files name) = .ok false)
    (there : files.has ((store files).joinText name) = .ok true)
    (listed : versions files ((store files).joinText name) = .ok (latest :: others))
    (permissions : Permissions) :
    lookup files permissions name = loadVersion files permissions name latest := by
  rw [lookup, missing]
  rw [find, newest, there]
  rw [listed, loadVersion]
  let place := ((store files).joinText name).joinText latest
  change Except.bind (Except.bind (Except.bind (files.has (place.joinText manifestName)) _) _) _ =
    Except.bind (files.has (place.joinText manifestName)) _
  rcases files.has (place.joinText manifestName) with cause | _ | _
  · rfl
  · rfl
  · cases manifestAt files (place.joinText manifestName) with
    | error cause => rfl
    | ok manifest =>
      refine Except.bind_congr fun found accepted => ?_
      obtain ⟨version, same⟩ := accept_version accepted
      rw [version, same]

end Package

/-- The version of an installed package that is used, with its manifest and its entry, is the one
whose name comes last as a text. It is the greatest as numbers exactly if no other differs from it
first in a number that has more digits and comes earlier as a text. -/
theorem used_version_is_greatest_iff (settings : Settings) (name : String) (world : World)
    {location : List String}
    (missing : world.files.has (Package.bundled world.files name) = .ok false)
    (located : world.files.locate ((Package.store world.files).joinText name) = .ok location)
    (there : world.files.isDirectory location = true)
    (some : ∃ version, world.files.isDirectory (location ++ [version]) = true)
    (numbered : ∀ version, world.files.isDirectory (location ++ [version]) = true →
      ∃ numbers, numbers ≠ [] ∧ version = dotted numbers) :
    let installed (numbers : List Nat) : Prop :=
      numbers ≠ [] ∧ world.files.isDirectory (location ++ [dotted numbers]) = true
    ∃ numbers, installed numbers ∧
      (∀ engine : Engine, engine.usePackage settings name world = (do
        Run.checkPackages settings
        engine.runLoaded name (Package.loadVersion world.files settings.permissions name
          (dotted numbers))) world) ∧
      ((∀ other, installed other → other ≤ numbers) ↔
        ∀ front number rest greater more, numbers = front ++ number :: rest →
          installed (front ++ greater :: more) → ¬ LooksSmaller greater number) := by
  intro installed
  obtain ⟨latest, others, listed, held, last⟩ := Package.versions_cons located there some
  obtain ⟨numbers, shown, rfl⟩ := numbered latest held
  have has : world.files.has ((Package.store world.files).joinText name) = .ok true := by
    rw [FileTree.has, located]
    exact congrArg (Except.ok ·.isSome) (of_decide_eq_true there)
  refine ⟨numbers, ⟨shown, held⟩, fun engine => ?_,
    greatest_iff shown fun other member => last _ member.2⟩
  rw [engine.usePackage_eq, Package.lookup_versions missing has listed]

/-- The files of a package that is installed in two versions, the ninth and the tenth. -/
def ninthAndTenth : FileTree :=
  let place := ["home", ".gopa_packages", "p"]
  let version (name source : String) : List (List String × FileEntry) :=
    [(place ++ [name], .directory), (place ++ [name, "gopa.toml"], .file ""),
      (place ++ [name, "src"], .directory), (place ++ [name, "src", "main.gopa"], .file source)]
  ⟨[(["home"], .directory), (["home", ".gopa_packages"], .directory), (place, .directory)] ++
    version "9.0.0" "say 9\n" ++ version "10.0.0" "say 10\n", ["work"], ["home"], ["library"]⟩

theorem isDirectory_ninthAndTenth {version : String}
    (held : ninthAndTenth.isDirectory (["home", ".gopa_packages", "p"] ++ [version]) = true) :
    version = dotted [9, 0, 0] ∨ version = dotted [10, 0, 0] := by
  have member := FileTree.mem_entries (by simp) (of_decide_eq_true held)
  have nine : dotted [9, 0, 0] = "9.0.0" := by decide +kernel
  have ten : dotted [10, 0, 0] = "10.0.0" := by decide +kernel
  rw [nine, ten]
  simpa [ninthAndTenth] using member

/-- Of the ninth version and the tenth, one is used, and it is not the greatest since the tenth
looks smaller. -/
theorem used_version_is_greatest_iff_of_ninth_and_tenth :
    let permissions : Permissions := .default
    let settings : Settings := { permissions }
    let world : World := { files := ninthAndTenth, packages := some [] }
    let installed (numbers : List Nat) : Prop :=
      numbers ≠ [] ∧ ninthAndTenth.isDirectory
        (["home", ".gopa_packages", "p"] ++ [dotted numbers]) = true
    installed [9, 0, 0] ∧ installed [10, 0, 0] ∧ LooksSmaller 10 9 ∧
      ∃ numbers, installed numbers ∧
        (∀ engine : Engine, engine.usePackage settings "p" world = (do
          Run.checkPackages settings
          engine.runLoaded "p" (Package.loadVersion ninthAndTenth settings.permissions "p"
            (dotted numbers))) world) ∧
        ((∀ other, installed other → other ≤ numbers) ↔
          ∀ front number rest greater more, numbers = front ++ number :: rest →
            installed (front ++ greater :: more) → ¬ LooksSmaller greater number) := by
  intro permissions settings world installed
  refine ⟨⟨by decide, by decide +kernel⟩, ⟨by decide, by decide +kernel⟩,
    looksSmaller_iff.mpr ⟨by decide, by decide⟩, ?_⟩
  have located : world.files.locate ((Package.store world.files).joinText "p") =
      .ok ["home", ".gopa_packages", "p"] := rfl
  refine used_version_is_greatest_iff settings "p" world rfl located (by decide +kernel)
    ⟨"9.0.0", by decide +kernel⟩ fun version held => ?_
  rcases isDirectory_ninthAndTenth held with rfl | rfl
  · exact ⟨[9, 0, 0], by decide, rfl⟩
  · exact ⟨[10, 0, 0], by decide, rfl⟩

/-- The ninth version of a package is used where the tenth is installed too. -/
theorem ninth_version_is_used_beside_tenth :
    let permissions : Permissions := .default
    let settings : Settings := { permissions }
    let world : World := { files := ninthAndTenth, packages := some [] }
    ninthAndTenth.isDirectory (["home", ".gopa_packages", "p"] ++ [dotted [10, 0, 0]]) = true ∧
      ∃ loading : Package.Loading, loading.source = "say 9\n" ∧
        loading.package?.map LoadedPackage.version = some (dotted [9, 0, 0]) ∧
        ∀ engine : Engine, engine.usePackage settings "p" world = (do
          Run.checkPackages settings
          engine.runLoaded "p" (.ok loading)) world := by
  intro permissions settings world
  have located : world.files.locate ((Package.store world.files).joinText "p") =
      .ok ["home", ".gopa_packages", "p"] := rfl
  have nine : ninthAndTenth.isDirectory
      (["home", ".gopa_packages", "p"] ++ [dotted [9, 0, 0]]) = true := by decide +kernel
  obtain ⟨latest, others, listed, held, last⟩ :=
    Package.versions_cons located (by decide +kernel) ⟨_, nine⟩
  have ninth : latest = dotted [9, 0, 0] := by
    refine (isDirectory_ninthAndTenth held).resolve_right fun tenth => ?_
    exact absurd (tenth ▸ last _ nine) (String.not_le.mpr (dotted_lt (by decide) [] [0, 0] [0, 0]))
  have loads := Package.lookup_versions rfl rfl listed settings.permissions
  have loaded : (Package.loadVersion ninthAndTenth settings.permissions "p"
      (dotted [9, 0, 0])).toOption.map (fun loading =>
        (loading.source, loading.package?.map LoadedPackage.version)) =
      some ("say 9\n", some (dotted [9, 0, 0])) := by decide +kernel
  rw [ninth] at loads
  cases ended : Package.loadVersion ninthAndTenth settings.permissions "p" (dotted [9, 0, 0]) with
  | error cause =>
    rw [ended] at loaded
    cases loaded
  | ok loading =>
    rw [ended] at loaded
    have both := Prod.mk.inj (Option.some.inj loaded)
    refine ⟨by decide +kernel, loading, both.1, both.2, fun engine => ?_⟩
    rw [engine.usePackage_eq, ← ended, ← loads]

end Parlance
