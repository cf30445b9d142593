import Parlance.Proofs.Confinement
import Parlance.Proofs.Mirroring

/-!
What a program cannot see for want of permission. Change the replies that the network would give
and the files that are there, wherever a program lacks the permission for them: every run then goes
the same way, and the worlds that it leaves differ by the same change.
-/

namespace Parlance

open World Run

variable {α β : Type}

def World.veiled (replies : Option (List Reply) → Option (List Reply))
    (files : FileTree → FileTree) (world : World) : World :=
  { world with replies := replies world.replies, files := files world.files }

/-- Whether only that is changed which a program may not look at. -/
structure Settings.Hide (settings : Settings)
    (replies : Option (List Reply) → Option (List Reply)) (files : FileTree → FileTree) : Prop where
  replies : settings.Allow .network → ∀ given, replies given = given
  files : settings.Allow .files ∨ settings.Allow .packages → ∀ tree, files tree = tree

/-! ### Behind the veil -/

namespace World

variable {settings : Settings} {replies : Option (List Reply) → Option (List Reply)}
  {files : FileTree → FileTree}

section

variable (hide : settings.Hide replies files)

include hide

theorem veiled_replies (allowed : settings.Allow .network) (world : World) :
    (world.veiled replies files).replies = world.replies := hide.replies allowed _

theorem veiled_files (allowed : settings.Allow .files ∨ settings.Allow .packages)
    (world : World) : (world.veiled replies files).files = world.files := hide.files allowed _

/-- Where the network may be used, a change of the replies is seen. -/
theorem veiled_answered (allowed : settings.Allow .network) (world : World)
    (others : Option (List Reply)) :
    { world.veiled replies files with replies := others } =
      World.veiled replies files { world with replies := others } :=
  congrArg (fun shown => { world.veiled replies files with replies := shown })
    (hide.replies allowed others).symm

/-- Where files or packages may be used, a change of the files is seen. -/
theorem veiled_stored (allowed : settings.Allow .files ∨ settings.Allow .packages) (world : World)
    (others : FileTree) :
    { world.veiled replies files with files := others } =
      World.veiled replies files { world with files := others } :=
  congrArg (fun shown => { world.veiled replies files with files := shown })
    (hide.files allowed others).symm

end

variable (world : World)

theorem veiled_callers : (world.veiled replies files).callers = world.callers := rfl

theorem veiled_scheduler : (world.veiled replies files).scheduler = world.scheduler := rfl

/-- What lies behind the veil is nothing that a program reads without asking leave. -/
theorem isOuter_veiled : IsOuter (World.veiled replies files) where
  inner _ := rfl
  surroundings _ := rfl
  withInner _ _ := rfl
  enter _ _ := rfl
  leave world := by
    rw [leave, leave, veiled_callers]
    cases world.callers <;> rfl
  note _ _ := rfl

theorem isTimeless_veiled : IsTimeless (World.veiled replies files) where
  scheduler := veiled_scheduler
  reading _ := rfl
  planned _ _ := rfl
  sleep _ _ := rfl

end World

namespace Run

variable {settings : Settings} {replies : Option (List Reply) → Option (List Reply)}
  {files : FileTree → FileTree}

/-- Whether a run overlooks what lies behind the veil. -/
abbrev IsBlind (replies : Option (List Reply) → Option (List Reply)) (files : FileTree → FileTree)
    (action : Run α) : Prop :=
  action.Overlooks (World.veiled replies files)

theorem isBlind_inner {action : Run α} (isInner : action.IsInner) : action.IsBlind replies files :=
  overlooks_inner isOuter_veiled isInner

section

variable (hide : settings.Hide replies files)

include hide

theorem isBlind_exchange (request : Outgoing) (allowed : settings.Allow .network) :
    (exchange request).IsBlind replies files :=
  overlooks_exchange request (veiled_replies hide allowed)
    (veiled_answered hide allowed) fun _ => rfl

theorem isBlind_setFiles (others : FileTree) (allowed : settings.Allow .files) :
    (setFiles others).IsBlind replies files :=
  overlooks_modify fun world => veiled_stored hide (.inl allowed) world others

theorem isBlind_changingFiles (change : FileChange α) (allowed : settings.Allow .packages) :
    (changingFiles change).IsBlind replies files :=
  overlooks_changingFiles change (veiled_files hide (.inr allowed))
    (veiled_stored hide (.inr allowed))

end

theorem isBlind_schedule (change : Float → Scheduler → Scheduler) (told : String) :
    (schedule change told).IsBlind replies files :=
  overlooks_schedule isTimeless_veiled isOuter_veiled.isAside change told

theorem isBlind_keepForClicks (canvas : Value) (block : Block) :
    (keepForClicks canvas block).IsBlind replies files :=
  overlooks_keepForClicks isOuter_veiled.isAside canvas block (fun _ => rfl) fun _ _ => rfl

theorem isBlind_handled {holds : Prop} {called : Option String} {wrap : Run α → Run β}
    {action : Run α} (handles : Handles holds called wrap) (blind : action.IsBlind replies files) :
    (wrap action).IsBlind replies files :=
  fun world => mirrors_handled isOuter_veiled.isAside handles (blind world)

end Run

/-- Programs and events overlook what they have no permission for. Foreign functions might look at
anything, so they must not be allowed. -/
theorem eventCongruence_isBlind {settings : Settings}
    {replies : Option (List Reply) → Option (List Reply)} {files : FileTree → FileTree}
    (foreign : settings.Lack .foreign) (hide : settings.Hide replies files) :
    EventCongruence (fun _ action _ => action.IsBlind replies files) settings settings where
  handing := rfl
  inner := isBlind_inner
  note := overlooks_note isOuter_veiled.isAside
  bind := overlooks_bind
  reporting value _ _ := isBlind_handled (handles_reporting settings value)
  pass := isBlind_handled handles_pass
  inEdition edition _ _ blind world :=
    mirrors_inEdition isOuter_veiled.isAside edition (blind { world with edition })
  inScope scope _ _ blind world :=
    mirrors_inScope isOuter_veiled.isAside scope (blind (world.enter scope))
  givenBack := isBlind_handled handles_givenBack
  namingFunction name _ _ := isBlind_handled (handles_namingFunction name)
  answered := isBlind_handled handles_answered
  checked activity one other blind :=
    related_checked (fun _ action _ => action.IsBlind replies files) rfl activity one other blind
      fun _ => rfl
  failOutside _ := isBlind_inner (isInner_failOutside _ _ _)
  foreignResult _ _ allowed := absurd allowed (Settings.not_allow rfl foreign)
  inward _ allowed := absurd allowed (Settings.not_allow rfl foreign)
  replies allowed := overlooks_look _ (veiled_replies hide allowed)
  exchange := isBlind_exchange hide
  files view allowed :=
    overlooks_look _ fun world => congrArg view (veiled_files hide allowed world)
  setFiles := isBlind_setFiles hide
  changingFiles := isBlind_changingFiles hide _
  find _ allowed := overlooks_fromFiles _ (veiled_files hide (.inr allowed))
  packages := overlooks_look _ fun _ => rfl
  registry _ := overlooks_look _ fun _ => rfl
  noteLoaded _ _ _ _ := rfl
  passTime span _ := overlooks_passTime isTimeless_veiled span
  schedule change told _ _ := isBlind_schedule change told
  stopJob _ := isBlind_schedule _ _
  scheduleByCalendar schedule block _ := overlooks_scheduleByCalendar
    isTimeless_veiled isOuter_veiled.isAside schedule block
  screen _ := overlooks_look _ fun _ => rfl
  keepForClicks canvas block _ := isBlind_keepForClicks canvas block
  incoming _ := overlooks_look _ fun _ => rfl
  noteServer _ _ _ := rfl
  noteAnswer _ _ _ := rfl
  undisturbed := isBlind_handled handles_undisturbed
  lookTime _ := overlooks_look _ fun _ => rfl
  changeScheduler _ _ _ := rfl
  sleep _ _ := rfl

end Parlance
