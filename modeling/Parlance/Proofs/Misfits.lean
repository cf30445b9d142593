import Parlance.Proofs.Disciplines

/-!
No misfit is ever reached. Whatever comes from texts fits, and a world keeps only what has been run
before.
-/

namespace Parlance

open Run List

variable {α β : Type}

/-! ### What a world keeps -/

/-- Whether something is known of all blocks that a world keeps: the bodies of functions, the blocks
for mouse clicks and those that wait for their time. -/
structure World.AllBodies (known : List Stmt → Prop) (world : World) : Prop where
  functions : ∀ scope ∈ world.scopes, ∀ entry ∈ scope.functions, known entry.2.block.body
  handlers : ∀ handlers ∈ world.screen, ∀ handler ∈ handlers, known handler.block.body
  tasks : ∀ scheduler ∈ world.scheduler, scheduler.AllBodies known

namespace World.AllBodies

variable {known : List Stmt → Prop} {world : World}

theorem imp {wide : List Stmt → Prop} (held : world.AllBodies known)
    (wider : ∀ body, known body → wide body) : world.AllBodies wide where
  functions scope member entry listed := wider _ (held.functions scope member entry listed)
  handlers screen present handler member := wider _ (held.handlers screen present handler member)
  tasks scheduler present :=
    have tasks := held.tasks scheduler present
    ⟨fun task member => wider _ (tasks.delayed task member),
      fun task member => wider _ (tasks.recurring task member),
      fun entry member => wider _ (tasks.jobs entry member),
      fun task member => wider _ (tasks.scheduled task member)⟩

end World.AllBodies

/-! ### The discipline of what fits -/

/-- Whether a fault is about a node that does not belong where it stands. -/
def Fault.isMisfit : Fault → Bool
  | .report cause => cause.isMisfit
  | _ => false

/-- Whether a run ends because of a node that does not belong where it stands. -/
def Exit.isMisfit : Exit → Bool
  | .fault cause => cause.isMisfit
  | _ => false

/-- Whether such a node is noted, where the run went on. -/
def Note.isMisfit : Note → Bool
  | .heldUp cause => cause.isMisfit
  | _ => false

/-- Whether nothing of that kind has been noted on the way from one world to another. -/
def NotesFit (before after : World) : Prop :=
  ∃ notes, Noted notes before after ∧ ∀ note ∈ notes, note.isMisfit = false

theorem Exit.isMisfit_of_isPlain {exit : Exit} (isPlain : exit.isPlain = true) :
    exit.isMisfit = false := by
  cases exit with
  | fault cause =>
    cases cause with
    | report cause => cases cause <;> first | rfl | cases isPlain
    | _ => rfl
  | _ => rfl

/-- What is read from a text fits. -/
theorem fits_source (strict : Bool) (source : String) :
    Admits Stmt.Fits (fun exit => strict = true → exit.isMisfit = false) source := by
  refine ⟨fun _ read => fitAll_of_program? read, fun failed _ => ?_⟩
  obtain ⟨_, rfl | ⟨_, rfl⟩ | ⟨_, rfl, _⟩⟩ := exit_of_program failed <;> rfl

/-- Everything fits. And no misfit is met, if that is asked for and no call outside the language
reaches into the run. -/
def fitness (settings : Settings) (strict : Bool) : Discipline settings where
  knows := Expr.Fits
  accepts _ := Stmt.Fits
  keeps := Stmt.FitAll
  permits _ exit := strict = true → exit.isMisfit = false
  relies note := strict = true → note.isInward = false
  makes note := strict = true → note.isMisfit = false
  plain isPlain _ := Exit.isMisfit_of_isPlain isPlain
  unknown _ _ := rfl
  ofLoop permitted _ _ := permitted
  ofBody permitted _ := permitted
  anywhere := id
  heldUp := id
  otherNotes {note} other _ := by
    cases note with
    | heldUp cause => exact absurd rfl (other cause)
    | _ => rfl
  parts fits := by
    obtain ⟨none, inner⟩ := Expr.fits_iff.mp fits
    rw [none]
    exact ⟨inner, forall_mem_nil _⟩
  inside fits := by
    obtain ⟨none, inner, blocks⟩ := Stmt.fits_iff.mp fits
    rw [none]
    exact ⟨inner, forall_mem_nil _, blocks⟩
  breaks _ _ := rfl
  continues _ _ := rfl
  gives _ _ := rfl
  waits := id
  placed fits := Stmt.fitAll_program (forall_mem_singleton.mpr fits)
  package _ _ := fits_source strict _
  inward relied := by
    cases strict with
    | false => exact ⟨nofun, nofun⟩
    | true => exact absurd (relied rfl) Bool.noConfusion

/-! ### Fit runs -/

theorem NotesFit.refl (world : World) : NotesFit world world := ⟨[], rfl, forall_mem_nil _⟩

theorem NotesFit.trans {before between after : World} (first : NotesFit before between)
    (second : NotesFit between after) : NotesFit before after := by
  obtain ⟨early, earlier, earlyFit⟩ := first
  obtain ⟨late, later, lateFit⟩ := second
  refine ⟨late ++ early, ?_, forall_mem_append.mpr ⟨lateFit, earlyFit⟩⟩
  rw [Noted, later, earlier, append_assoc]

namespace Run

/-- What is left by a run that has kept only blocks that fit, and has met no misfit unless something
has reached into it. -/
structure FitEnd (settings : Settings) (before : World) (result : EStateM.Result Exit World α) :
    Prop where
  holds : (fitness settings true).Holds (final result)
  grown : Grown before (final result)
  ends {exit : Exit} {after : World} : (final result).reaches = before.reaches →
    result = .error exit after → exit.isMisfit = false
  notes : (final result).reaches = before.reaches → NotesFit before (final result)

/-- Whether a run keeps only blocks that fit, where only such blocks are kept, and meets no misfit
unless something reaches into it. -/
def IsFit (settings : Settings) (action : Run α) : Prop :=
  ∀ world, (fitness settings true).Holds world → FitEnd settings world (action world)

variable {settings : Settings} {action : Run α} {next : α → Run β}

theorem Obeys.isFit (obeys : ∀ strict, action.Obeys (fitness settings strict) .outside) :
    action.IsFit settings := by
  intro world held
  obtain ⟨_, _, loose⟩ := (obeys false).exists_ends { held with }
  have kept := (loose fun _ _ => nofun).holds
  obtain ⟨notes, noted, strict⟩ := (obeys true).exists_ends held
  have ended (unreached : (final (action world)).reaches = world.reaches) :=
    strict fun note member _ => noted.isInward_eq_false unreached note member
  exact ⟨{ kept with }, (obeys true).grows world,
    fun unreached failed => (ended unreached).permitted failed rfl,
    fun unreached => ⟨notes, noted, fun note member => (ended unreached).makes note member rfl⟩⟩

theorem isFit_plain (isPlain : action.IsPlain) : action.IsFit settings :=
  Obeys.isFit fun _ => obeys_plain isPlain

theorem isFit_look (view : World → α) : (look view).IsFit settings :=
  Obeys.isFit fun _ => obeys_look view

theorem isFit_throw {exit : Exit} (fits : exit.isMisfit = false) :
    (throw exit : Run α).IsFit settings :=
  Obeys.isFit fun _ => obeys_throw fun _ => fits

/-- A change that brings in no block. -/
theorem isFit_modify {change : World → World} (kept : ∀ world, CodeKept world (change world)) :
    (modify change : Run Unit).IsFit settings :=
  Obeys.isFit fun _ => obeys_of_keepsCode ⟨endsPlainly_modify _, kept⟩

/-- Runs in a row, where more is known of what the first one gives. -/
theorem isFit_bind_given {given : α → Prop} (head : action.IsFit settings)
    (gives : ∀ world value after, (fitness settings true).Holds world →
      action world = .ok value after → given value)
    (tail : ∀ value, given value → (next value).IsFit settings) :
    (action >>= next).IsFit settings := by
  intro world held
  have begun := head world held
  cases ended : action world with
  | ok value after =>
    rw [ended] at begun
    rw [bind_ok ended]
    obtain ⟨holds, grown, ends, notes⟩ :=
      tail value (gives world value after held ended) after begun.holds
    have early (unreached : (final (next value after)).reaches = world.reaches) :
        after.reaches = world.reaches :=
      Nat.le_antisymm (unreached ▸ grown.reaches_le) begun.grown.reaches_le
    exact ⟨holds, begun.grown.trans grown,
      fun unreached => ends (unreached.trans (early unreached).symm),
      fun unreached => (begun.notes (early unreached)).trans
        (notes (unreached.trans (early unreached).symm))⟩
  | error exit after =>
    rw [ended] at begun
    rw [bind_error ended]
    refine ⟨begun.holds, begun.grown, fun unreached => ?_, begun.notes⟩
    rintro ⟨⟩
    exact begun.ends unreached rfl

theorem isFit_changeScheduler {change : Scheduler → Scheduler}
    (kept : ∀ known scheduler, scheduler.AllBodies known → (change scheduler).AllBodies known) :
    (changeScheduler change).IsFit settings :=
  isFit_modify fun _ => codeKept_scheduler kept

theorem isFit_bind (head : action.IsFit settings) (tail : ∀ value, (next value).IsFit settings) :
    (action >>= next).IsFit settings :=
  isFit_bind_given head (fun _ _ _ _ _ => trivial) fun value _ => tail value

theorem isFit_expression (source : String) : (expression source).IsFit settings := by
  have cut : (tokensOf source).IsFit settings := by
    rw [tokensOf]
    cases tokens source with
    | ok found => exact isFit_plain (isPlain_pure found)
    | error failure => exact isFit_throw rfl
  refine isFit_bind cut fun found => ?_
  cases parseExpression found with
  | ok value => exact isFit_plain (isPlain_pure value)
  | error failure => cases failure <;> exact isFit_throw rfl

end Run

/-! ### Events -/

/-- What waits, in a world that keeps only what fits. -/
theorem Run.isFit_waiting_bind {settings : Settings} (given : β → Prop) {otherwise : β}
    {view : Scheduler → β}
    {next : β → Run α} (absent : given otherwise)
    (waiting : ∀ scheduler : Scheduler, scheduler.AllBodies Stmt.FitAll → given (view scheduler))
    (tail : ∀ value, given value → (next value).IsFit settings) :
    (Run.lookScheduler otherwise view >>= next).IsFit settings := by
  refine isFit_bind_given (isFit_look _) (fun world value after held looked => ?_) tail
  cases looked
  dsimp only
  cases present : world.scheduler with
  | none => exact absent
  | some scheduler => exact waiting scheduler (held.tasks scheduler present)

section

variable {settings : Settings} {engine : Engine}
  (held : ∀ strict, engine.Obeys (fitness settings strict))

include held

theorem isFit_runKept {block : Block} (fits : Stmt.FitAll block.body) :
    (engine.runKept block).IsFit settings :=
  Run.Obeys.isFit fun strict =>
    .handled handles_undisturbed (by rintro _ ⟨⟩) ((held strict).runBlock fits)

theorem isFit_start {due : Due} (fits : Stmt.FitAll due.block.body) :
    (engine.start due).IsFit settings := by
  refine isFit_bind (isFit_changeScheduler fun known scheduler kept => ?_) fun _ =>
    isFit_runKept held fits
  exact { kept with }

/-- Blocks that fit are started in passes. -/
theorem passRules_isFit :
    PassRules (fun _ action _ => action.IsFit settings) Stmt.FitAll engine engine where
  rounds := .refl _
  pure value := isFit_plain (isPlain_pure value)
  exhausted := isFit_throw rfl
  bind := isFit_bind
  start _ _ fits := isFit_start held fits
  waiting given _ _ _ _ _ absent waiting _ tail := isFit_waiting_bind given absent waiting tail
  markRecurring place time := isFit_changeScheduler fun _ _ kept => kept.markRecurring place time
  markJob name serial time := isFit_changeScheduler fun _ _ kept => kept.markJob name serial time

theorem isFit_passDelayed (time : World → Float) : (engine.passDelayed time).IsFit settings :=
  @SpanRules.passDelayed _ _ engine engine (passRules_isFit held).toSpanRules time time
    (isFit_look time) (fun _ fits => isFit_start held fits)
    fun task => isFit_changeScheduler fun _ _ kept => kept.dropDelayed task

/-- What has been read from texts fits when events come. -/
theorem eventRules_isFit :
    EventRules (fun _ action _ => action.IsFit settings) Stmt.FitAll engine engine where
  toPassRules := passRules_isFit held
  plain := isFit_plain
  cleared := isFit_modify fun _ => .of_same ⟨rfl, rfl, rfl, rfl⟩
  runSource source := Run.Obeys.isFit fun strict =>
    (held strict).runSource (fits_source strict source)
  evaluateSource source := isFit_bind_given (isFit_expression source)
    (fun _ _ _ _ read => fits_of_expression read)
    fun _ fits => Run.Obeys.isFit fun strict => (held strict).evaluate fits
  runKept _ fits := isFit_runKept held fits
  delayedByHand := isFit_passDelayed held Engine.schedulerTime
  delayedByClock now := isFit_passDelayed held fun _ => now
  lookTime _ := isFit_look _
  moveTime _ := isFit_changeScheduler fun _ _ kept =>
    { kept with }
  sleep _ := isFit_modify fun _ => .of_same ⟨rfl, rfl, rfl, rfl⟩
  screen := isFit_look _
  handler place _ _ tail := by
    refine isFit_bind_given (isFit_look _) (fun world found after bodies looked => ?_) tail
    cases looked
    dsimp only
    intro handler there
    cases present : world.screen with
    | none =>
      rw [present] at there
      cases there
    | some handlers =>
      rw [present] at there
      exact bodies.handlers handlers present handler (mem_of_getElem? there)

end

/-! ### Sessions -/

/-- Whether an operation is about texts only: what it runs by itself has been read from a text. -/
def Operation.IsTextual : Operation → Prop
  | .execute program => ∃ source, program? source = some program
  | .evaluate expression =>
    ∃ source world after, Run.expression source world = .ok expression after
  | _ => True

namespace Operation

variable {settings : Settings} {operation : Operation} {world : World}

theorem fitEnd_result (textual : operation.IsTextual)
    (bodies : (fitness settings true).Holds world) :
    Run.FitEnd settings world (operation.result (Engine.ofDepth settings ample) world).2 := by
  have held (strict : Bool) := obeys_ofDepth (fitness settings strict) ample
  have runs : operation.Runs (fun _ action _ => action.IsFit settings)
      (Engine.ofDepth settings ample) (Engine.ofDepth settings ample) := by
    cases operation with
    | execute program =>
      obtain ⟨source, read⟩ := textual
      exact Run.Obeys.isFit fun strict => (held strict).runProgram (fitAll_of_program? read)
    | evaluate expression =>
      obtain ⟨source, world, after, read⟩ := textual
      exact Run.Obeys.isFit fun strict => (held strict).evaluate (fits_of_expression read)
    | _ => trivial
  rw [result_snd]
  exact (eventRules_isFit held).whole runs world bodies

theorem fit_perform (textual : operation.IsTextual) (bodies : (fitness settings true).Holds world) :
    (fitness settings true).Holds (operation.perform settings world).2 ∧
      Grown world (operation.perform settings world).2 ∧
      ((operation.perform settings world).2.reaches = world.reaches →
        (∀ exit ∈ (operation.perform settings world).1.exit, exit.isMisfit = false) ∧
          NotesFit world (operation.perform settings world).2) := by
  have ended := fitEnd_result textual bodies
  obtain ⟨functions, handlers, tasks⟩ := ended.holds
  rcases result : operation.result (Engine.ofDepth settings ample) world with
    ⟨steps, ⟨value, after⟩ | ⟨exit, after⟩⟩
  all_goals rw [result] at ended functions handlers tasks
  · rw [perform_ok result]
    exact ⟨⟨functions, handlers, tasks⟩, ended.grown, fun unreached => ⟨nofun, ended.notes unreached⟩⟩
  · rw [perform_error result]
    refine ⟨⟨functions, handlers, tasks⟩, ended.grown, fun unreached =>
      ⟨fun other same => ?_, ended.notes unreached⟩⟩
    rw [← Option.some.inj same]
    exact ended.ends unreached rfl

theorem fit_performAll {operations : List Operation}
    (textual : ∀ operation ∈ operations, operation.IsTextual)
    (bodies : (fitness settings true).Holds world) :
    Grown world (performAll settings world operations).2 ∧
      ((performAll settings world operations).2.reaches = world.reaches →
        (∀ outcome ∈ (performAll settings world operations).1,
          ∀ exit ∈ outcome.exit, exit.isMisfit = false) ∧
            NotesFit world (performAll settings world operations).2) := by
  induction operations generalizing world with
  | nil => exact ⟨suffix_rfl, fun _ => ⟨forall_mem_nil _, .refl world⟩⟩
  | cons operation rest ih =>
    obtain ⟨here, later⟩ := forall_mem_cons.mp textual
    obtain ⟨kept, begun, first⟩ := fit_perform here bodies
    obtain ⟨further, second⟩ := ih later kept
    rw [performAll_cons]
    refine ⟨begun.trans further, fun unreached => ?_⟩
    have early : (operation.perform settings world).2.reaches = world.reaches :=
      Nat.le_antisymm (unreached ▸ further.reaches_le) begun.reaches_le
    obtain ⟨ends, notes⟩ := first early
    obtain ⟨endsLater, notesLater⟩ := second (unreached.trans early.symm)
    exact ⟨forall_mem_cons.mpr ⟨ends, endsLater⟩, notes.trans notesLater⟩

end Operation

/-! ### Texts reach no misfit -/

/-- The blocks of a program: the program itself and all blocks inside it. -/
inductive Stmt.BlockOf (program : List Stmt) : List Stmt → Prop
  | whole : BlockOf program program
  | inside {body block : List Stmt} {statement : Stmt} : BlockOf program body → statement ∈ body →
    block ∈ statement.blocks → BlockOf program block

/-- Whether a block comes from a text that has been read to be run. -/
def Stmt.AreFromText (block : List Stmt) : Prop :=
  ∃ source program, program? source = some program ∧ BlockOf (Stmt.program program) block

theorem Stmt.AreFromText.fitAll {block : List Stmt} (fromText : AreFromText block) :
    FitAll block := by
  obtain ⟨source, program, read, within⟩ := fromText
  induction within with
  | whole => exact fitAll_program (fitAll_of_program? read)
  | inside _ member listed ih =>
    exact (fits_iff.mp (ih _ member)).2.2 _ listed

end Parlance
