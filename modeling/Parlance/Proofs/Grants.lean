import Parlance.Proofs.Agreement
import Parlance.Proofs.Journal

/-!
More permissions change nothing for a session that is never refused. A permission is asked for by a
check and by the manifest of a package.
-/

namespace Parlance

variable {α : Type}

/-! ### Permissions -/

/-- Whether everything that is granted is granted by other permissions, too. -/
def Permissions.AreWithin (permissions wider : Permissions) : Prop :=
  ∀ permission, permissions.granted permission = true → wider.granted permission = true

def Settings.withPermissions (settings : Settings) (permissions : Permissions) : Settings :=
  { settings with permissions }

theorem Permissions.AreWithin.allows {permissions wider : Permissions}
    (within : permissions.AreWithin wider) {activity : Permission}
    (allowed : permissions.allows activity = true) : wider.allows activity = true := by
  rw [Permissions.allows, List.any_eq_true] at allowed ⊢
  obtain ⟨permission, member, granted⟩ := allowed
  exact ⟨permission, member, within permission granted⟩

namespace Package

variable {permissions wider : Permissions}

theorem isRefused_of_within (within : permissions.AreWithin wider) (name : String)
    (accepted : isRefused permissions name = false) : isRefused wider name = false := by
  rw [isRefused] at accepted ⊢
  cases asked : requestable.lookup name with
  | none => rfl
  | some permission =>
    rw [asked] at accepted
    have granted : permissions.granted permission = true := by simpa using accepted
    simp [within permission granted]

theorem find?_isRefused_of_within (within : permissions.AreWithin wider) (names : List String)
    (accepted : names.find? (isRefused permissions) = none) :
    names.find? (isRefused wider) = none := by
  rw [List.find?_eq_none] at accepted ⊢
  intro name member
  have allowed := isRefused_of_within within name (Bool.not_eq_true _ ▸ accepted name member)
  rw [allowed]
  exact Bool.false_ne_true

/-- A package is entered with more permissions as it was entered before, unless its manifest was
refused. -/
theorem accept_of_within (within : permissions.AreWithin wider) (files : FileTree) (name : String)
    (candidate : Candidate) :
    candidate.accept files wider name = candidate.accept files permissions name ∨
      ∃ wanted, candidate.accept files permissions name =
        .error (.package (.lacksPermission name wanted)) := by
  rw [Candidate.accept, Candidate.accept]
  cases asked : (requested candidate.manifest).find? (isRefused permissions) with
  | none => exact .inl (by rw [find?_isRefused_of_within within _ asked])
  | some wanted => exact .inr ⟨wanted, rfl⟩

/-- The same holds where the package has to be found first. -/
theorem find_of_within (within : permissions.AreWithin wider) (files : FileTree) (name : String) :
    find files wider name = find files permissions name ∨
      ∃ wanted, find files permissions name =
        .error (.package (.lacksPermission name wanted)) := by
  rw [find, find]
  cases newest files name with
  | error cause => exact .inl rfl
  | ok candidate => exact accept_of_within within files name candidate

end Package

/-! ### Denials -/

/-- Whether a fault says that a permission is missing. -/
def Fault.isDenial : Fault → Bool
  | .report (.denied _) => true
  | .report (.package (.lacksPermission _ _)) => true
  | _ => false

/-- Whether a run ends because a permission is missing. -/
def Exit.isDenial : Exit → Bool
  | .fault cause => cause.isDenial
  | _ => false

/-- Whether it is noted that a permission was missing. -/
def Note.isDenial : Note → Bool
  | .heldUp cause => cause.isDenial
  | _ => false

/-- How often a permission was missing and the run went on. -/
def World.denials (world : World) : Nat := world.journal.countP Note.isDenial

/-- The condition that no permission is missing and no call outside the language reaches into the
run. -/
def Proviso.granting : Proviso where
  tally world := world.denials + world.reaches
  holds _ := True
  passes exit := exit.isDenial = false
  change := id

namespace Proviso

theorem granting_kept {before after : World} (same : after.journal = before.journal) :
    granting.Kept before after :=
  .of_tally_eq (congrArg (fun journal : List Note => journal.countP Note.isDenial +
    journal.countP Note.isInward) same) id

theorem granting_reached (world : World) (reach : Reach) :
    granting.tally world < granting.tally (world.reached reach) := by
  refine Nat.add_lt_add_of_le_of_lt ?_ (world.reaches_reached reach)
  exact ((List.sublist_cons_self _ _).trans (List.sublist_append_right _ _)).countP_le

variable (settings : Settings)

/-- Denials are noted and never forgotten. -/
theorem preserved_granting : Preserved granting.Kept settings where
  refl _ := granting_kept rfl
  trans := Kept.trans
  inner _ _ := granting_kept rfl
  note world note := ⟨Nat.add_le_add (List.sublist_cons_self note _).countP_le
    (world.reaches_note note), fun _ => id⟩
  inward world reach _ := .of_lt (granting_reached world reach)
  inScope scope _ keeps := keeps_inScope (fun _ _ => granting_kept rfl)
    (fun world => granting_kept (journal_leave world)) scope keeps
  network _ _ _ _ := granting_kept rfl
  files _ _ _ := granting_kept rfl
  packages _ _ _ := granting_kept rfl
  sleep _ _ _ := granting_kept rfl
  time _ _ _ _ _ _ := granting_kept rfl
  timer _ _ _ _ _ _ := granting_kept rfl
  stopping _ _ _ _ := granting_kept rfl
  calendar _ _ _ _ _ := granting_kept rfl
  screen _ _ _ := granting_kept rfl
  server _ _ _ := granting_kept rfl
  answer _ _ _ := granting_kept rfl

theorem granting_fits : granting.Fits settings where
  preserved := preserved_granting settings
  outer := isOuter_id
  signals _ := rfl
  renamed _ _ _ := rfl
  inner _ _ := ⟨rfl, id⟩
  enter _ _ := ⟨rfl, id⟩
  leave world := congrArg₂ (· + ·) (congrArg (List.countP Note.isDenial) (journal_leave world))
    world.reaches_leave
  reached := granting_reached

/-- A denial that is held up is noted. -/
theorem granting_holding (world : World) (cause : Fault)
    (same : granting.tally (world.holdUp cause) = granting.tally world) :
    granting.passes (.fault cause) := by
  have same : (Note.heldUp cause :: world.journal).countP Note.isDenial = world.denials :=
    Nat.add_right_cancel same
  rw [List.countP_cons, World.denials] at same
  cases denied : cause.isDenial with
  | false => exact denied
  | true =>
    have isDenial : (Note.heldUp cause).isDenial = true := denied
    rw [if_pos isDenial] at same
    exact absurd same (Nat.succ_ne_self _)

variable {cause : Fault}

/-- A denial does not meet the condition. -/
theorem granting_not_admits (isDenial : cause.isDenial = true) (world after : World) :
    ¬ granting.Admits world (.error (.fault cause) after : EStateM.Result Exit World α) :=
  fun admitted => Bool.false_ne_true (admitted.2.symm.trans isDenial)

theorem agree_of_denial (isDenial : cause.isDenial = true) (other : Run α) :
    granting.Agree α (Run.fail cause) other :=
  agree_of_not_admits other (fun _ => granting_kept rfl) fun world =>
    granting_not_admits isDenial world world

section

variable (settings : Settings) {wider : Permissions} (within : settings.permissions.AreWithin wider)

include within

theorem agree_checked (activity : Permission) {one other : Run α}
    (inside : settings.Allow activity → (settings.withPermissions wider).Allow activity →
      granting.Agree α one other) :
    granting.Agree α (Run.check settings activity >>= fun _ => one)
      (Run.check (settings.withPermissions wider) activity >>= fun _ => other) := by
  rw [Run.checked_eq, Run.checked_eq]
  by_cases allowed : settings.permissions.allows activity = true
  · have still : (settings.withPermissions wider).permissions.allows activity = true :=
      within.allows allowed
    rw [if_pos allowed, if_pos still]
    exact inside allowed still
  · rw [if_neg allowed]
    exact agree_of_denial rfl _

theorem agree_found (files : FileTree) (name : String) :
    granting.Agree _ (Run.ofExcept (Package.find files settings.permissions name))
      (Run.ofExcept (Package.find files wider name)) := by
  rcases Package.find_of_within within files name with same | ⟨wanted, refused⟩
  · rw [same]
    exact (granting_fits settings).agree_inner (Run.isInner_ofExcept _)
  · rw [refused]
    exact agree_of_denial rfl _

theorem granting_compares : granting.Compares settings (settings.withPermissions wider) :=
  have fits := granting_fits settings
  { fits with
    still := rfl
    handing := rfl
    checked := fun activity _ _ inside => agree_checked settings within activity inside
    failOutside := fun wording cause =>
      fits.agree_inner (Run.isInner_failOutside settings wording cause)
    foreignResult := fun name values =>
      fits.agree_inner (Run.isPlain_foreignResult settings name values).isInner
    found := agree_found settings within
    reporting := fun value _ _ => fits.agree_handled (Run.handles_reporting settings value)
      (fun _ => rfl) fun _ => granting_holding }

theorem eventCongruence_granting :
    EventCongruence granting.Agree settings (settings.withPermissions wider) :=
  have compares := granting_compares settings within
  { compares.serverlessCongruence with
    answered := compares.agree_handled Run.handles_answered (fun _ => rfl)
      fun _ => granting_holding
    undisturbed := compares.agree_handled handles_undisturbed (fun _ => rfl)
      fun _ => granting_holding
    lookTime := fun _ => compares.agree_self fun _ => granting_kept rfl
    changeScheduler := fun _ _ => compares.agree_self fun _ => granting_kept rfl
    sleep := fun _ => compares.agree_self fun _ => granting_kept rfl }

end

end Proviso

/-! ### Sessions -/

namespace Operation

open Proviso

theorem agree_stepAll {one other : Engine} {seconds : Value}
    (agree : granting.Agree Unit (one.step seconds) (other.step seconds)) (count number : Nat)
    (world : World) :
    granting.Kept world (Run.final (stepAll one seconds count number world).2) ∧
      (granting.Admits world (stepAll one seconds count number world).2 →
        stepAll other seconds count number world = stepAll one seconds count number world) := by
  induction count generalizing number world with
  | zero => exact ⟨granting_kept rfl, fun _ => rfl⟩
  | succ count ih =>
    have begun := agree.keeps world
    have same (admitted : granting.Admits world (one.step seconds world)) :
        other.step seconds world = one.step seconds world := agree.eq_of_still rfl trivial admitted
    cases stepped : one.step seconds world with
    | error exit after =>
      rw [stepped] at begun same
      rw [stepAll_error stepped]
      exact ⟨begun, fun admitted => stepAll_error (same admitted) count number⟩
    | ok _ after =>
      rw [stepped] at begun same
      rw [stepAll_ok stepped]
      obtain ⟨kept, later⟩ := ih (number + 1) { after with written := [] }
      have cleared : granting.Kept after { after with written := [] } := granting_kept rfl
      refine ⟨begun.trans (cleared.trans kept), fun admitted => ?_⟩
      have unchanged : granting.tally after = granting.tally world :=
        Nat.le_antisymm (Nat.le_trans kept.1 (Nat.le_of_eq admitted.tally_eq)) begun.1
      rw [stepAll_ok (same unchanged), later (admitted.of_tally_eq unchanged)]

section

variable (settings : Settings) {wider : Permissions} (within : settings.permissions.AreWithin wider)

include within

variable (operation : Operation)

theorem agree_result (world : World) :
    granting.Kept world (Run.final (operation.result (Engine.standard settings) world).2) ∧
      (granting.Admits world (operation.result (Engine.standard settings) world).2 →
        operation.result (Engine.standard (settings.withPermissions wider)) world =
          operation.result (Engine.standard settings) world) := by
  have law := eventCongruence_granting settings within
  have parts := law.ofDepth ample
  unfold result
  split
  · rename_i seconds count
    cases world.scheduler with
    | none => exact ⟨granting_kept rfl, fun _ => rfl⟩
    | some scheduler =>
      exact agree_stepAll (law.step parts (world.heap.load seconds).1) count 0
        { world with heap := (world.heap.load seconds).2 }
  · have agree := law.action parts operation
    exact ⟨agree.keeps world, fun admitted =>
      congrArg (Prod.mk []) (agree.eq_of_still rfl trivial admitted)⟩

/-- One operation agrees with more permissions, if it does not end with a denial, holds up none, and
nothing reaches into it. -/
theorem agree_perform (world : World) : granting.Kept world (operation.perform settings world).2 ∧
      (granting.tally (operation.perform settings world).2 = granting.tally world →
        (∀ exit ∈ (operation.perform settings world).1.exit, exit.isDenial = false) →
          operation.perform (settings.withPermissions wider) world =
            operation.perform settings world) := by
  obtain ⟨kept, same⟩ := agree_result settings within operation world
  rcases ended : operation.result (Engine.standard settings) world with ⟨steps, value | exit⟩
  · rw [ended] at kept same
    rw [perform_ok ended]
    exact ⟨kept, fun unchanged _ => perform_ok (same unchanged)⟩
  · rw [ended] at kept same
    rw [perform_error ended]
    exact ⟨kept, fun unchanged passes => perform_error (same ⟨unchanged, passes exit rfl⟩)⟩

theorem agree_performAll (operations : List Operation) (world : World) :
    granting.Kept world (performAll settings world operations).2 ∧
      (granting.tally (performAll settings world operations).2 = granting.tally world →
        (∀ outcome ∈ (performAll settings world operations).1,
          ∀ exit ∈ outcome.exit, exit.isDenial = false) →
            performAll (settings.withPermissions wider) world operations =
              performAll settings world operations) := by
  induction operations generalizing world with
  | nil => exact ⟨granting_kept rfl, fun _ _ => rfl⟩
  | cons operation rest ih =>
    obtain ⟨begun, same⟩ := agree_perform settings within operation world
    obtain ⟨further, later⟩ := ih (operation.perform settings world).2
    rw [performAll_cons, performAll_cons]
    refine ⟨begun.trans further, fun unchanged passes => ?_⟩
    have early : granting.tally (operation.perform settings world).2 = granting.tally world :=
      Nat.le_antisymm (Nat.le_trans further.1 (Nat.le_of_eq unchanged)) begun.1
    rw [same early (passes _ List.mem_cons_self), later (unchanged.trans early.symm)
      fun outcome member => passes outcome (List.mem_cons_of_mem _ member)]

end

end Operation

end Parlance
