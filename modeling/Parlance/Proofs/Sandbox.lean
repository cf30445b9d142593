import Parlance.Proofs.Oversight

/-!
Whole sessions without permissions. From the beginning of a session on, whatever its operations are,
what a program lacks the permission for is left alone, and what it may not look at makes no
difference to any outcome.
-/

namespace Parlance

namespace Operation

/-! ### What sessions leave alone -/

section

variable {settings : Settings}

/-- An operation leaves alone what it has no permission for. -/
theorem confined_result (settings : Settings) (operation : Operation) (world : World) :
    Confined settings world (Run.final (operation.result (Engine.standard settings) world).2) := by
  rw [result_snd]
  exact (eventCongruence_confined settings).whole
    ((eventCongruence_confined settings).ofDepth ample) operation world

variable {start world : World}

/-- Handing over what has been asked of the network leaves a world as it was at the beginning. -/
theorem confined_conclude (unasked : start.outgoing = []) (confined : Confined settings start world)
    (steps : List StepRecord) (exit : Option Exit) (value : Option Value) :
    Confined settings start (conclude steps exit value world).2 :=
  { confined with requests := fun _ => unasked.symm }

theorem outgoing_conclude (unasked : start.outgoing = []) (network : settings.Lack .network)
    (confined : Confined settings start world) (steps : List StepRecord) (exit : Option Exit)
    (value : Option Value) : (conclude steps exit value world).1.outgoing = [] := by
  show world.outgoing.reverse = []
  rw [confined.requests network, unasked, List.reverse_nil]

/-- What one operation leaves alone, seen from the beginning of the session. -/
theorem confined_perform (unasked : start.outgoing = []) (confined : Confined settings start world)
    (operation : Operation) :
    Confined settings start (operation.perform settings world).2 ∧
      (settings.Lack .network → (operation.perform settings world).1.outgoing = []) := by
  have further := confined.trans (confined_result settings operation world)
  rw [perform]
  split
  all_goals
    rename_i ended
    rw [ended] at further
    exact ⟨confined_conclude unasked further _ _ _,
      fun network => outgoing_conclude unasked network further _ _ _⟩

/-- What all operations leave alone, seen from the beginning of the session. -/
theorem confined_performAll (unasked : start.outgoing = [])
    (confined : Confined settings start world) (operations : List Operation) :
    Confined settings start (performAll settings world operations).2 ∧
      (settings.Lack .network →
        ∀ outcome ∈ (performAll settings world operations).1, outcome.outgoing = []) := by
  induction operations generalizing world with
  | nil => exact ⟨confined, fun _ _ member => absurd member List.not_mem_nil⟩
  | cons operation rest ih =>
    obtain ⟨after, asked⟩ := confined_perform unasked confined operation
    obtain ⟨final, askedLater⟩ := ih after
    refine ⟨final, fun network outcome member => ?_⟩
    rcases List.mem_cons.mp member with rfl | later
    · exact asked network
    · exact askedLater network outcome later

end

/-! ### What sessions overlook -/

section

variable {settings : Settings} {replies : Option (List Reply) → Option (List Reply)}
  {files : FileTree → FileTree}

theorem stepAll_veiled {engine : Engine} {seconds : Value}
    (blind : (engine.step seconds).IsBlind replies files) (count number : Nat) (world : World) :
    stepAll engine seconds count number (world.veiled replies files) =
      Prod.map id (Run.mapState (World.veiled replies files))
        (stepAll engine seconds count number world) := by
  induction count generalizing number world with
  | zero => rfl
  | succ count ih =>
    rw [stepAll, stepAll, blind]
    cases engine.step seconds world with
    | error exit after => rfl
    | ok value after =>
      have later := ih (number + 1) { after with written := [] }
      exact congrArg (fun rest : List StepRecord × _ => (StepRecord.before
        ⟨number, Engine.schedulerTime after, after.transcript⟩ rest.1, rest.2)) later

variable (foreign : settings.Lack .foreign) (hide : settings.Hide replies files)

include foreign hide

variable (operation : Operation)

theorem result_veiled (world : World) :
    operation.result (Engine.standard settings) (world.veiled replies files) =
      Prod.map id (Run.mapState (World.veiled replies files))
        (operation.result (Engine.standard settings) world) := by
  have law := eventCongruence_isBlind foreign hide
  have parts := law.ofDepth ample
  unfold result
  split
  · rename_i seconds count
    rw [World.veiled_scheduler]
    cases world.scheduler with
    | none => rfl
    | some scheduler =>
      exact stepAll_veiled (law.step parts (world.heap.load seconds).1) count 0
        { world with heap := (world.heap.load seconds).2 }
  · exact congrArg (Prod.mk []) (law.action parts operation world)

theorem perform_veiled (world : World) :
    operation.perform settings (world.veiled replies files) =
      Prod.map id (World.veiled replies files) (operation.perform settings world) := by
  rw [perform, perform, result_veiled foreign hide]
  rcases operation.result (Engine.standard settings) world with ⟨steps, _ | _⟩ <;> rfl

/-- Nothing that an operation hands over tells what lies behind the veil. -/
theorem performAll_veiled (operations : List Operation) (world : World) :
    performAll settings (world.veiled replies files) operations =
      Prod.map id (World.veiled replies files) (performAll settings world operations) := by
  induction operations generalizing world with
  | nil => rfl
  | cons operation rest ih =>
    rw [performAll, performAll, perform_veiled foreign hide]
    show (_ :: (performAll settings (World.veiled replies files _) rest).1,
      (performAll settings (World.veiled replies files _) rest).2) = _
    rw [ih]
    rfl

end

end Operation

/-! ### The sandbox -/

namespace Beginning

variable (start : Beginning)

theorem hasNoTimers_world : start.world.HasNoTimers := by
  intro scheduler present
  obtain ⟨_, -, rfl⟩ := Option.map_eq_some_iff.mp present
  exact ⟨rfl, rfl, rfl⟩

theorem hasNoSchedules_world : start.world.HasNoSchedules := by
  intro scheduler present
  obtain ⟨_, -, rfl⟩ := Option.map_eq_some_iff.mp present
  rfl

theorem screen_world : ∀ handlers ∈ start.world.screen, handlers = [] := by
  intro handlers present
  have shown : (if start.hasScreen then some [] else none) = some handlers := present
  split at shown
  · exact (Option.some.inj shown).symm
  · cases shown

end Beginning

variable {settings : Settings}

/-- A change of the replies alone is hidden from a program that may not use the network. -/
theorem Settings.hide_replies (network : settings.Lack .network) (replies : Option (List Reply)) :
    settings.Hide (fun _ => replies) id :=
  ⟨fun allowed => absurd allowed (not_allow rfl network), fun _ _ => rfl⟩

/-- A change of the files alone is hidden from a program that may use neither files nor packages. -/
theorem Settings.hide_files (lacking : settings.Lack .files) (packages : settings.Lack .packages)
    (files : FileTree) : settings.Hide id fun _ => files :=
  ⟨fun _ _ => rfl, fun allowed => absurd allowed (not_allow_files lacking packages)⟩

/-- Without graphics a canvas is refused before anything else happens. -/
theorem Engine.createCanvas_refused (graphics : settings.Lack .graphics) (engine : Engine)
    (width height : Expr) (world : World) :
    engine.createCanvas settings width height world =
      .error (.fault (.report (.denied .graphics))) world := by
  have refused : ¬ settings.permissions.allows .graphics = true := Settings.not_allow rfl graphics
  rw [createCanvas, Run.check, if_neg refused]
  rfl

/-- A session without permission for something neither does it nor looks at it, whatever its
operations are. Foreign functions apart, which must not be allowed either:
without the network, nothing is asked of it, and other replies would change no outcome;
without files and packages, the files stay as they are, and other files would change no outcome;
without timers and graphics, no block waits for its time, and no statement lets time pass;
without schedules and timers, no block waits for the calendar;
without graphics, no block waits for a click, and a canvas is refused;
and without servers, none is started. Each statement and each expression keeps to that on its own,
from whatever world it begins in. -/
theorem session_is_confined (settings : Settings) (foreign : settings.Lack .foreign)
    (start : Beginning) (operations : List Operation) (outcomes : List Outcome) (final : World)
    (performed : Operation.performAll settings start.world operations = (outcomes, final)) :
    (settings.Lack .network →
      (∀ outcome ∈ outcomes, outcome.outgoing = []) ∧
      ∀ replies, Operation.performAll settings { start with replies }.world operations =
        (outcomes, { final with replies })) ∧
    (settings.Lack .files → settings.Lack .packages →
      final.files = start.files ∧
      ∀ files, Operation.performAll settings { start with files }.world operations =
        (outcomes, { final with files })) ∧
    (settings.Lack .timers → settings.Lack .graphics →
      final.HasNoTimers ∧
      ∀ depth statement world,
        SameTime world (Run.final (execute settings depth statement world))) ∧
    (settings.Lack .cron → settings.Lack .timers → final.HasNoSchedules) ∧
    (settings.Lack .graphics →
      (∀ handlers ∈ final.screen, handlers = []) ∧
      ∀ engine width height world, Engine.createCanvas settings engine width height world =
        .error (.fault (.report (.denied .graphics))) world) ∧
    (settings.Lack .server → final.servers = []) ∧
    (∀ depth statement world,
      Confined settings world (Run.final (execute settings depth statement world))) ∧
    ∀ depth expression world,
      Confined settings world (Run.final (evaluate settings depth expression world)) := by
  have unasked : start.world.outgoing = [] := rfl
  obtain ⟨confined, silent⟩ :=
    Operation.confined_performAll unasked (Confined.refl start.world) operations
  have blind (replies : Option (List Reply) → Option (List Reply)) (files : FileTree → FileTree)
      (hide : settings.Hide replies files) :=
    Operation.performAll_veiled foreign hide operations start.world
  rw [performed] at confined silent blind
  refine ⟨fun network => ⟨silent network, fun replies => ?_⟩,
    fun files packages => ⟨confined.files files packages, fun others => ?_⟩,
    fun timers graphics => ⟨confined.timers timers graphics start.hasNoTimers_world, ?_⟩,
    fun cron timers => confined.schedules cron timers start.hasNoSchedules_world,
    fun graphics => ⟨?_, Engine.createCanvas_refused graphics⟩,
    fun server => confined.servers server,
    (preserved_confined settings).execute, (preserved_confined settings).evaluate⟩
  · exact blind _ _ (Settings.hide_replies network replies)
  · exact blind _ _ (Settings.hide_files files packages others)
  · exact (preserved_sameTime timers graphics).execute
  · rw [confined.clicks graphics]
    exact start.screen_world

/-- A session that may do nothing asks for much and gets nothing of it. -/
theorem session_is_confined_at_nothing_granted :
    let settings : Settings := { permissions := ⟨fun _ => false⟩ }
    let start : Beginning :=
      { files := .bare
        scheduler := some true
        hasScreen := true
        replies := some [.empty] }
    let operations : List Operation :=
      [.execute [.writeFile (.string "text") "name", .install "package",
          .after 0 (.number (.int 1)) [.wait (.number (.int 2))], .cron "* * * * *" [],
          .whenMouseClicks .nothing [.stop], .server (.number (.int 80)) []],
        .evaluate (.get "address" []), .click (.number (.int 1)) (.number (.int 2)),
        .step (.number (.int 1)) 3, .ticks 2]
    let session := Operation.performAll settings start.world operations
    settings.Lack .foreign ∧ (∀ outcome ∈ session.1, outcome.outgoing = []) ∧
      session.2.files = start.files ∧ session.2.HasNoTimers ∧ session.2.HasNoSchedules ∧
      (∀ handlers ∈ session.2.screen, handlers = []) ∧ session.2.servers = [] := by
  intro settings start operations session
  obtain ⟨network, files, timers, schedules, clicks, servers, -⟩ :=
    session_is_confined settings rfl start operations session.1 session.2 (Prod.eta session).symm
  exact ⟨rfl, (network rfl).1, (files rfl rfl).1, (timers rfl rfl).1, schedules rfl rfl,
    (clicks rfl).1, servers rfl⟩

end Parlance
