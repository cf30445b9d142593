import Parlance.Proofs.EventMeaning

/-!
Depths. What a run down to some depth comes to, unless its steps are used up, it comes to down to
every greater depth.
-/

namespace Parlance

variable {α β : Type}

namespace Run

/-- Whether the steps of a run are used up. -/
def isExhausted : EStateM.Result Exit World α → Bool
  | .error .exhausted _ => true
  | _ => false

/-- Whether a run comes to what another one comes to, unless the steps of that one are used up. -/
def Settles (one other : Run α) : Prop :=
  ∀ world, isExhausted (one world) = false → other world = one world

theorem isExhausted_of_hasEnded {result : EStateM.Result Exit World α}
    (ended : hasEnded result = true) : isExhausted result = false := by
  cases result with
  | ok _ _ => rfl
  | error exit _ => cases exit <;> first | rfl | cases ended

theorem isExhausted_eq_false {result : EStateM.Result Exit World α}
    (other : ∀ after, result ≠ .error .exhausted after) : isExhausted result = false := by
  cases result with
  | ok _ _ => rfl
  | error exit after =>
    cases exit with
    | exhausted => exact absurd rfl (other after)
    | fault _ | signal _ | stalled | outside => rfl

theorem isExhausted_of_bind {action : Run α} {next : α → Run β} {world : World}
    (enough : isExhausted ((action >>= next) world) = false) :
    isExhausted (action world) = false := by
  refine isExhausted_eq_false fun after begun => ?_
  rw [bind_error begun] at enough
  cases enough

namespace Settles

variable {one other : Run α} (action : Run α)

theorem refl : action.Settles action := fun _ _ => rfl

/-- Whatever follows steps that are used up, it does not matter. -/
theorem usedUp : (MonadExcept.throw Exit.exhausted : Run α).Settles action :=
  fun _ enough => absurd enough.symm Bool.false_ne_true

theorem bind {next later : α → Run β} (head : one.Settles other)
    (tail : ∀ value, (next value).Settles (later value)) :
    (one >>= next).Settles (other >>= later) := by
  intro world enough
  cases begun : one world with
  | ok value after =>
    have same : other world = .ok value after := (head world (by rw [begun]; rfl)).trans begun
    rw [bind_ok begun] at enough ⊢
    rw [bind_ok same]
    exact tail value after enough
  | error exit after =>
    rw [bind_error begun]
    exact bind_error ((head world (isExhausted_of_bind enough)).trans begun)

/-- What is done around a run changes nothing, if it sees the run by its result only and lets it
pass that the steps are used up. -/
theorem around {wrap : Run α → Run β} (enter : World → World)
    (seen : ∀ action world, wrap action world = wrap (fun _ => action (enter world)) world)
    (passes : ∀ after world, isExhausted (wrap (fun _ => .error .exhausted after) world) = true)
    (settles : one.Settles other) : (wrap one).Settles (wrap other) := by
  intro world enough
  rw [seen] at enough
  have inside : isExhausted (one (enter world)) = false := by
    refine isExhausted_eq_false fun after begun => ?_
    rw [begun, passes] at enough
    cases enough
  rw [seen one, seen other, settles (enter world) inside]

end Settles

end Run

variable (settings : Settings)

/-- Programs and events respect the relation. -/
theorem settles_congruence :
    EventCongruence (fun _ one other => one.Settles other) settings settings where
  handing := rfl
  inner _ := .refl _
  note _ := .refl _
  bind := .bind
  reporting _ _ _ := .around id (fun _ _ => rfl) fun _ _ => rfl
  pass := .around id (fun _ _ => rfl) fun _ _ => rfl
  inEdition edition _ _ :=
    .around (fun world => { world with edition }) (fun _ _ => rfl) fun _ _ => rfl
  inScope scope _ _ := .around (fun world => world.enter scope) (fun _ _ => rfl) fun _ _ => rfl
  givenBack := .around id (fun _ _ => rfl) fun _ _ => rfl
  namingFunction _ _ _ := .around id (fun _ _ => rfl) fun _ _ => rfl
  answered := .around id (fun _ _ => rfl) fun _ _ => rfl
  checked activity one other settles := related_checked (fun _ one other => one.Settles other) rfl
    activity one other settles (.refl _)
  failOutside _ := .refl _
  foreignResult _ _ _ := .refl _
  inward _ _ := .refl _
  replies _ := .refl _
  exchange _ _ := .refl _
  files _ _ := .refl _
  setFiles _ _ := .refl _
  changingFiles _ := .refl _
  find _ _ := .refl _
  packages := .refl _
  registry _ := .refl _
  noteLoaded _ _ _ := .refl _
  passTime _ _ := .refl _
  schedule _ _ _ _ := .refl _
  stopJob _ := .refl _
  scheduleByCalendar _ _ _ := .refl _
  screen _ := .refl _
  keepForClicks _ _ _ := .refl _
  incoming _ := .refl _
  noteServer _ _ := .refl _
  noteAnswer _ _ := .refl _
  undisturbed := .around id (fun _ _ => rfl) fun _ _ => rfl
  lookTime _ := .refl _
  changeScheduler _ _ := .refl _
  sleep _ := .refl _

section

variable (settings : Settings) {few many : Nat} (fewer : few ≤ many)

include fewer

/-- The parts of programs come to what they come to down to a smaller depth. -/
theorem settles_ofDepth : Engine.Related (fun _ one other => one.Settles other)
    (Engine.ofDepth settings few) (Engine.ofDepth settings many) :=
  (settles_congruence settings).programs.ofDepths (.of_le .usedUp fewer)

end

/-- A program that is done down to some depth is done in the same way by the engine that runs
programs. -/
theorem standard_runProgram {depth : Nat} (deep : depth ≤ ample) {program : List Stmt}
    {world after : World}
    (ran : (Engine.ofDepth settings depth).runProgram program world = .ok () after) :
    (Engine.standard settings).runProgram program world = .ok () after := by
  have enough : Run.isExhausted ((Engine.ofDepth settings depth).runProgram program world) =
      false := by
    rw [ran]
    rfl
  exact ((settles_congruence settings).calls.runProgram (settles_ofDepth settings deep) program world
    enough).trans ran

end Parlance
