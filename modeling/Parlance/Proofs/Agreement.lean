import Parlance.Proofs.Mirroring

/-!
Runs that agree on a condition. The condition is about the first run: something must not happen in
it, and it must end in certain ways. What must not happen is counted by a tally that never goes
down. On that condition the second run mirrors the first one.
-/

namespace Parlance

open Run

variable {α β : Type}

/-- On which condition a second run mirrors a first one, and up to which change of the world. -/
structure Proviso where
  /-- How often that has happened which must not happen. -/
  tally : World → Nat
  holds : World → Prop
  /-- The exits with which the first run may end. -/
  passes : Exit → Prop
  change : World → World

namespace Proviso

variable {proviso : Proviso}

/-- Whether the tally has not gone down, and the condition on worlds still holds if it has not gone
up. -/
def Kept (proviso : Proviso) (before after : World) : Prop :=
  proviso.tally before ≤ proviso.tally after ∧
    (proviso.tally after = proviso.tally before → proviso.holds before → proviso.holds after)

variable {before after world : World} {action one : Run α} {result : EStateM.Result Exit World α}

theorem Kept.trans {between : World} (earlier : proviso.Kept before between)
    (later : proviso.Kept between after) : proviso.Kept before after := by
  refine ⟨Nat.le_trans earlier.1 later.1, fun same held => ?_⟩
  have early : proviso.tally between = proviso.tally before :=
    Nat.le_antisymm (Nat.le_trans later.1 (Nat.le_of_eq same)) earlier.1
  exact later.2 (same.trans early.symm) (earlier.2 early held)

theorem Kept.of_tally_eq (same : proviso.tally after = proviso.tally before)
    (held : proviso.holds before → proviso.holds after) : proviso.Kept before after :=
  ⟨Nat.le_of_eq same.symm, fun _ => held⟩

theorem Kept.of_lt (more : proviso.tally before < proviso.tally after) : proviso.Kept before after :=
  ⟨Nat.le_of_lt more, fun same => absurd same (Nat.ne_of_gt more)⟩

theorem keeps_inScope (entered : ∀ world scope, proviso.Kept world (world.enter scope))
    (left : ∀ world, proviso.Kept world world.leave) (scope : Scope Value Routine)
    (keeps : action.Keeps proviso.Kept) : (inScope scope action).Keeps proviso.Kept := by
  intro world
  rw [final_inScope]
  exact (entered world scope).trans ((keeps _).trans (left _))

/-- Whether the end of a run from a world meets the condition. -/
def Admits (proviso : Proviso) (world : World) : EStateM.Result Exit World α → Prop
  | .ok _ after => proviso.tally after = proviso.tally world
  | .error exit after => proviso.tally after = proviso.tally world ∧ proviso.passes exit

theorem Admits.tally_eq (admitted : proviso.Admits world result) :
    proviso.tally (final result) = proviso.tally world := by
  cases result with
  | ok _ _ => exact admitted
  | error _ _ => exact admitted.1

/-- The condition sees no more of the beginning than its tally. -/
theorem Admits.of_tally_eq {other : World} (same : proviso.tally other = proviso.tally world)
    (admitted : proviso.Admits world result) : proviso.Admits other result := by
  cases result with
  | ok _ _ => exact admitted.trans same.symm
  | error _ _ => exact ⟨admitted.1.trans same.symm, admitted.2⟩

/-- Whether two runs agree: where the first one meets the condition, the second one mirrors it. -/
structure Agree (proviso : Proviso) (α : Type) (one other : Run α) : Prop where
  keeps : one.Keeps proviso.Kept
  same (world : World) : proviso.holds world → proviso.Admits world (one world) →
    Run.Mirrors proviso.change one other world

theorem agree_of_overlooks (keeps : action.Keeps proviso.Kept)
    (overlooks : action.Overlooks proviso.change) : proviso.Agree α action action :=
  ⟨keeps, fun world _ _ => overlooks world⟩

variable (other : Run α)

/-- A run in which the tally goes up agrees with every run. -/
theorem agree_of_lt (more : ∀ world, proviso.tally world < proviso.tally (final (one world))) :
    proviso.Agree α one other where
  keeps world := .of_lt (more world)
  same world _ admitted := absurd admitted.tally_eq (Nat.ne_of_gt (more world))

/-- A run whose ends do not meet the condition agrees with every run. -/
theorem agree_of_not_admits (keeps : one.Keeps proviso.Kept)
    (never : ∀ world, ¬ proviso.Admits world (one world)) : proviso.Agree α one other :=
  ⟨keeps, fun world _ admitted => absurd admitted (never world)⟩

namespace Agree

variable {one other : Run α}

theorem bind {next later : α → Run β} (head : proviso.Agree α one other)
    (tail : ∀ value, proviso.Agree β (next value) (later value)) :
    proviso.Agree β (one >>= next) (other >>= later) where
  keeps := keeps_bind head.keeps (fun value => (tail value).keeps) fun _ _ _ => Kept.trans
  same world held admitted := by
    have begun := head.keeps world
    have mirrored := head.same world held
    change proviso.Admits world (EStateM.bind one next world) at admitted
    show EStateM.bind other later (proviso.change world) =
      mapState proviso.change (EStateM.bind one next world)
    rw [EStateM.bind] at admitted
    rw [EStateM.bind, EStateM.bind]
    cases ended : one world with
    | ok value after =>
      rw [Run.Mirrors, ended] at mirrored
      rw [ended] at begun admitted
      have further := (tail value).keeps after
      have unchanged : proviso.tally after = proviso.tally world :=
        Nat.le_antisymm (Nat.le_trans further.1 (Nat.le_of_eq admitted.tally_eq)) begun.1
      rw [mirrored unchanged]
      exact (tail value).same after (begun.2 unchanged held) (admitted.of_tally_eq unchanged)
    | error exit after =>
      rw [Run.Mirrors, ended] at mirrored
      rw [ended] at admitted
      rw [mirrored admitted]
      rfl

/-- Where the world is not changed, runs that agree go the same way if the condition is met. -/
theorem eq_of_still (agree : proviso.Agree α one other) (still : proviso.change = id)
    {world : World} (held : proviso.holds world) (admitted : proviso.Admits world (one world)) :
    other world = one world := by
  have same := agree.same world held admitted
  rw [Run.Mirrors, still, mapState_id] at same
  exact same

end Agree

/-! ### Provisos for programs -/

/-- What makes a condition one that can be followed through programs. -/
structure Fits (proviso : Proviso) (settings : Settings) : Prop where
  preserved : Preserved proviso.Kept settings
  outer : IsOuter proviso.change
  signals (signal : Signal) : proviso.passes (.signal signal)
  renamed (name : String) (cause : UnboundName) :
    proviso.passes (.fault (.report (.undefinedFunction name))) →
      proviso.passes (.fault (.unbound cause))
  inner (world : World) (inner : Inner) :
    proviso.tally (world.withInner inner) = proviso.tally world ∧
      (proviso.holds world → proviso.holds (world.withInner inner))
  enter (world : World) (scope : Scope Value Routine) :
    proviso.tally (world.enter scope) = proviso.tally world ∧
      (proviso.holds world → proviso.holds (world.enter scope))
  leave (world : World) : proviso.tally world.leave = proviso.tally world
  reached (world : World) (reach : Reach) :
    proviso.tally world < proviso.tally (world.reached reach)

namespace Fits

variable {settings : Settings} {one other : Run α} (fits : proviso.Fits settings)

include fits

theorem agree_inner {action : Run α} (isInner : action.IsInner) : proviso.Agree α action action :=
  agree_of_overlooks (fits.preserved.keeps_inner isInner) (overlooks_inner fits.outer isInner)

theorem agree_note (note : Note) : proviso.Agree Unit (Run.note note) (Run.note note) :=
  agree_of_overlooks (fun world => fits.preserved.note world note)
    (overlooks_note fits.outer.isAside note)

/-- Calls outside the language that reach into the run are among what must not happen. -/
theorem agree_inward (inward : Inward) (other : Run Value) :
    proviso.Agree Value (inward.result settings) other := by
  refine agree_of_lt other fun world => ?_
  obtain ⟨reach, same⟩ := inward.exists_final_result settings world
  rw [same]
  exact fits.reached world reach

theorem agree_inEdition (edition : Edition) (head : proviso.Agree α one other) :
    proviso.Agree α (inEdition edition one) (inEdition edition other) where
  keeps := fits.preserved.keeps_inEdition edition head.keeps
  same world held admitted := by
    have numbered (world : World) (edition : Edition) :=
      fits.inner world { world.inner with edition }
    refine mirrors_inEdition fits.outer.isAside edition
      (head.same _ ((numbered world edition).2 held) ?_)
    refine Admits.of_tally_eq (numbered world edition).1 ?_
    rw [inEdition] at admitted
    generalize one { world with edition } = result at admitted ⊢
    cases result with
    | ok value after => exact (numbered after world.edition).1.symm.trans admitted
    | error exit after => exact ⟨(numbered after world.edition).1.symm.trans admitted.1, admitted.2⟩

theorem agree_inScope (scope : Scope Value Routine) (head : proviso.Agree α one other) :
    proviso.Agree α (inScope scope one) (inScope scope other) where
  keeps := fits.preserved.inScope scope head.keeps
  same world held admitted := by
    refine mirrors_inScope fits.outer.isAside scope
      (head.same _ ((fits.enter world scope).2 held) ?_)
    refine Admits.of_tally_eq (fits.enter world scope).1 ?_
    rw [inScope] at admitted
    generalize one (world.enter scope) = result at admitted ⊢
    cases result with
    | ok value after => exact (fits.leave after).symm.trans admitted
    | error exit after => exact ⟨(fits.leave after).symm.trans admitted.1, admitted.2⟩

/-! ### Faults that are held up -/

/-- Where a fault has been held up and the condition is still met, it has been met before. -/
theorem admits_of_holdUp (head : proviso.Agree α one other) {world after : World} {cause : Fault}
    (passes : proviso.tally (after.holdUp cause) = proviso.tally after →
      proviso.passes (.fault cause))
    (ended : one world = .error (.fault cause) after)
    (same : proviso.tally (after.holdUp cause) = proviso.tally world) :
    proviso.Admits world (one world) := by
  have begun : proviso.tally world ≤ proviso.tally (final (one world)) := (head.keeps world).1
  rw [ended] at begun ⊢
  have further : proviso.tally after ≤ proviso.tally (after.holdUp cause) :=
    (fits.preserved.note after (.heldUp cause)).1
  have unchanged : proviso.tally after = proviso.tally world :=
    Nat.le_antisymm (Nat.le_trans further (Nat.le_of_eq same)) begun
  exact ⟨unchanged, passes (same.trans unchanged.symm)⟩

/-- What holds up the ends of runs keeps agreement, because what it admits has been admitted
before. -/
theorem agree_handled {holds : Prop} {called : Option String} {wrap : Run α → Run β}
    (handles : Handles holds called wrap) (stalled : holds → proviso.passes .stalled)
    (holding : holds → ∀ world cause,
      proviso.tally (world.holdUp cause) = proviso.tally world → proviso.passes (.fault cause))
    (head : proviso.Agree α one other) : proviso.Agree β (wrap one) (wrap other) where
  keeps := fits.preserved.keeps_handled handles head.keeps
  same world held admitted := by
    refine mirrors_handled fits.outer.isAside handles (head.same world held ?_)
    cases ended : one world with
    | ok value after =>
      obtain ⟨_, made⟩ := handles.ok value
      rw [made ended] at admitted
      exact admitted
    | error exit after =>
      obtain ⟨_, follows, goesOn⟩ := handles.error exit
      rw [goesOn ended] at admitted
      cases follows with
      | passed => exact admitted
      | caught => exact ⟨admitted, fits.signals _⟩
      | renamed => exact ⟨admitted.1, fits.renamed _ _ admitted.2⟩
      | stalled holds => exact ⟨admitted, stalled holds⟩
      | heldUp holds =>
        exact ended ▸ fits.admits_of_holdUp head (holding holds after _) ended admitted
      | @told cause _ text holds =>
        have written := fits.inner (after.holdUp cause)
          { (after.holdUp cause).inner with written := (.output, text) :: after.written }
        exact ended ▸ fits.admits_of_holdUp head (holding holds after _) ended
          (written.1.symm.trans admitted)

end Fits

/-! ### Two settings -/

/-- What makes a condition one on which programs agree under two settings, where the world is not
changed: they agree about what depends on the settings. -/
structure Compares (proviso : Proviso) (first second : Settings) : Prop
    extends Fits proviso first where
  still : proviso.change = id
  handing : first.handing = second.handing
  checked {α : Type} (activity : Permission) {one other : Run α} :
    (first.Allow activity → second.Allow activity → proviso.Agree α one other) →
      proviso.Agree α (check first activity >>= fun _ => one)
        (check second activity >>= fun _ => other)
  failOutside {α : Type} (wording : String → Report) (cause : Refusal) :
    proviso.Agree α (failOutside first wording cause) (failOutside second wording cause)
  foreignResult (name : String) (values : List Value) :
    proviso.Agree Value (Engine.foreignResult first name values)
      (Engine.foreignResult second name values)
  found (files : FileTree) (name : String) :
    proviso.Agree _ (ofExcept (Package.find files first.permissions name))
      (ofExcept (Package.find files second.permissions name))
  reporting {α : Type} (value : α) {one other : Run α} : proviso.Agree α one other →
    proviso.Agree α (reporting first value one) (reporting second value other)

namespace Compares

variable {first second : Settings} (compares : proviso.Compares first second)

include compares

theorem agree_self {action : Run α} (keeps : action.Keeps proviso.Kept) :
    proviso.Agree α action action := by
  refine agree_of_overlooks keeps fun world => ?_
  rw [compares.still, mapState_id]
  rfl

/-- Programs agree, as far as they start no server. -/
theorem serverlessCongruence : ServerlessCongruence proviso.Agree first second :=
  have law := compares.preserved.congruence
  { handing := compares.handing
    inner := compares.agree_inner
    note := compares.agree_note
    bind := Agree.bind
    reporting := fun value _ _ head => compares.reporting value head
    pass := compares.agree_handled handles_pass False.elim False.elim
    inEdition := fun edition _ _ head => compares.agree_inEdition edition head
    inScope := fun scope _ _ head => compares.agree_inScope scope head
    givenBack := compares.agree_handled handles_givenBack False.elim False.elim
    namingFunction := fun name _ _ =>
      compares.agree_handled (handles_namingFunction name) False.elim False.elim
    checked := fun activity _ _ inside => compares.checked activity inside
    failOutside := fun _ => compares.failOutside _ _
    foreignResult := fun name values _ => compares.foreignResult name values
    inward := fun inward _ => compares.agree_inward inward _
    replies := fun allowed => compares.agree_self (law.replies allowed)
    exchange := fun request allowed => compares.agree_self (law.exchange request allowed)
    files := fun view allowed => compares.agree_self (law.files view allowed)
    setFiles := fun files allowed => compares.agree_self (law.setFiles files allowed)
    changingFiles := fun allowed =>
      compares.agree_self (law.changingFiles allowed)
    find := fun name allowed =>
      .bind (compares.agree_self (law.files id (.inr allowed))) fun files =>
        compares.found files name
    packages := compares.agree_self law.packages
    registry := fun allowed => compares.agree_self (law.registry allowed)
    noteLoaded := fun name package allowed =>
      compares.agree_self (law.noteLoaded name package allowed)
    passTime := fun span allowed => compares.agree_self (law.passTime span allowed)
    schedule := fun change told allowed isTimer =>
      compares.agree_self (law.schedule change told allowed isTimer)
    stopJob := fun name => compares.agree_self (law.stopJob name)
    scheduleByCalendar := fun schedule block allowed =>
      compares.agree_self (law.scheduleByCalendar schedule block allowed)
    screen := fun view => compares.agree_self (law.screen view)
    keepForClicks := fun canvas block allowed =>
      compares.agree_self (law.keepForClicks canvas block allowed)
    incoming := fun allowed => compares.agree_self (law.incoming allowed)
    noteServer := fun port allowed => compares.agree_self (law.noteServer port allowed)
    noteAnswer := fun reply allowed => compares.agree_self (law.noteAnswer reply allowed) }

end Compares

end Proviso

end Parlance
