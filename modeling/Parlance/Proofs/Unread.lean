import Parlance.Proofs.Mirroring

/-!
Input that is not read. A program takes the input from its front, line by line, and only where it
asks a question.
-/

namespace Parlance

open World Run

variable {α β : Type}

/-! ### Frames -/

/-- The world with something written before all that is written, and with another input, if one is
given. -/
def World.framed (past : List (Channel × String)) (input? : Option (List Char)) (world : World) :
    World :=
  { world with written := world.written ++ past, input := input?.getD world.input }

namespace World

variable {past : List (Channel × String)} {input? : Option (List Char)} (world : World)

theorem framed_callers : (world.framed past input?).callers = world.callers := rfl

theorem isAside_framed : IsAside (framed past input?) where
  edition _ := rfl
  withEdition _ _ := rfl
  enter _ _ := rfl
  leave world := by
    rw [leave, leave, framed_callers]
    cases world.callers <;> rfl
  note _ _ := rfl
  write _ _ _ := rfl

theorem isTimeless_framed : IsTimeless (framed past input?) where
  scheduler _ := rfl
  reading _ := rfl
  planned _ _ := rfl
  sleep _ _ := rfl

theorem framed_withPlain (left : PlainEnd) :
    (world.withPlain left).framed past input? = (world.framed past input?).withPlain left :=
  congrArg (fun written => { (world.framed past input?).withPlain left with written })
    (List.append_assoc left.written world.written past)

theorem input_leave : world.leave.input = world.input := by
  rw [leave]
  cases world.callers <;> rfl

end World

/-! ### Runs in frames -/

/-- Whether a run reads nothing of the input, although there is some. -/
def Run.Unread (action : Run α) (world : World) : Prop :=
  world.input ≠ [] ∧ (Run.final (action world)).input = world.input

/-- Whether a run takes what it takes of the input from the front, and goes the same way after other
texts; and with another input, too, as long as it reads nothing. -/
structure Run.IsFramed (action : Run α) : Prop where
  takes (world : World) : (Run.final (action world)).input <:+ world.input
  mirrors {world : World} {input? : Option (List Char)}
    (unread : input? ≠ none → action.Unread world) (past : List (Channel × String)) :
    Run.Mirrors (framed past input?) action action world

namespace Run

variable {action : Run α} {next : α → Run β} {body : Run Unit}

theorem isFramed_of_overlooks (kept : ∀ world, (final (action world)).input = world.input)
    (overlooks : ∀ past input?, action.Overlooks (framed past input?)) : action.IsFramed where
  takes world := ⟨[], kept world⟩
  mirrors _ past := overlooks past _ _

theorem isFramed_look (view : World → α)
    (same : ∀ past input? world, view (framed past input? world) = view world) :
    (look view).IsFramed :=
  isFramed_of_overlooks (fun _ => rfl) fun past input? => overlooks_look view (same past input?)

theorem isFramed_modify {change : World → World}
    (kept : ∀ world, (change world).input = world.input)
    (same : ∀ past input? world, change (framed past input? world) =
      framed past input? (change world)) : (modify change : Run Unit).IsFramed :=
  isFramed_of_overlooks kept fun past input? => overlooks_modify (same past input?)

theorem isFramed_throw (exit : Exit) : (throw exit : Run α).IsFramed :=
  isFramed_of_overlooks (fun _ => rfl) fun _ _ _ => rfl

theorem isFramed_plain (isPlain : action.IsPlain) : action.IsFramed := by
  obtain ⟨step, _, steps⟩ := isPlain
  refine isFramed_of_overlooks (fun world => ?_) fun past input? world => ?_
  · rw [steps, final_mapState]
    rfl
  · rw [steps, steps]
    show mapState (world.framed past input?).withPlain (step world.around world.plain) = _
    cases step world.around world.plain with
    | ok value left =>
      exact congrArg (EStateM.Result.ok value) (framed_withPlain world left).symm
    | error exit left =>
      exact congrArg (EStateM.Result.error exit) (framed_withPlain world left).symm

/-- What takes at least one character of the input, if there is one, is framed if it goes the same way
after other texts. -/
theorem isFramed_taking (taken : World → Nat)
    (takes : ∀ world, (final (action world)).input = world.input.drop (taken world + 1))
    (overlooks : ∀ past, action.Overlooks (framed past none)) : action.IsFramed where
  takes world := takes world ▸ List.drop_suffix _ world.input
  mirrors {world input?} unread past := by
    cases input? with
    | none => exact overlooks past world
    | some input =>
      obtain ⟨present, same⟩ := unread (Option.some_ne_none input)
      have shorter := congrArg List.length same
      have size := List.length_pos_iff.mpr present
      rw [takes, List.length_drop] at shorter
      omega

theorem isFramed_readLine : readLine.IsFramed :=
  isFramed_taking _ (fun _ => rfl) fun _ _ => rfl

/-- Where two runs read nothing together, neither of them does. -/
theorem Unread.both {world after : World} {value : α} (head : action.IsFramed)
    (tail : (next value).IsFramed) (ended : action world = .ok value after)
    (unread : (action >>= next).Unread world) :
    action.Unread world ∧ (next value).Unread after := by
  obtain ⟨present, same⟩ := unread
  rw [bind_ok ended] at same
  have taken := head.takes world
  rw [ended] at taken
  -- nothing is taken in between, because what is left at the end is all of it
  have kept : after.input = world.input :=
    taken.eq_of_length_le (same ▸ (tail.takes after).length_le)
  refine ⟨⟨present, ?_⟩, kept ▸ present, same.trans kept.symm⟩
  rw [ended]
  exact kept

theorem isFramed_bind (head : action.IsFramed) (tail : ∀ value, (next value).IsFramed) :
    (action >>= next).IsFramed := by
  refine ⟨fun world => ?_, fun {world input?} unread past => ?_⟩
  · have taken := head.takes world
    cases ended : action world with
    | error exit after =>
      rw [bind_error ended]
      rw [ended] at taken
      exact taken
    | ok value after =>
      rw [bind_ok ended]
      rw [ended] at taken
      exact ((tail value).takes after).trans taken
  · cases ended : action world with
    | error exit after =>
      have mirrored : action (world.framed past input?) = .error exit (after.framed past input?) := by
        refine (head.mirrors (fun given => ⟨(unread given).1, ?_⟩) past).trans (by rw [ended]; rfl)
        rw [ended, ← (unread given).2, bind_error ended]
        rfl
      rw [Mirrors, bind_error ended]
      exact bind_error mirrored
    | ok value after =>
      have both (given : input? ≠ none) := (unread given).both head (tail value) ended
      have mirrored : action (world.framed past input?) = .ok value (after.framed past input?) :=
        (head.mirrors (fun given => (both given).1) past).trans (by rw [ended]; rfl)
      rw [Mirrors, bind_ok ended, bind_ok mirrored]
      exact (tail value).mirrors (fun given => (both given).2) past

/-- What surrounds a run, without touching the input by itself, is framed if the run is. -/
theorem isFramed_around {other : Run β} (start : World → World) (framed : action.IsFramed)
    (begun : ∀ world, (start world).input = world.input)
    (ended : ∀ world, (final (other world)).input = (final (action (start world))).input)
    (mirrors : ∀ past input? world, Mirrors (World.framed past input?) action action (start world) →
      Mirrors (World.framed past input?) other other world) : other.IsFramed where
  takes world := by
    rw [ended, ← begun world]
    exact framed.takes (start world)
  mirrors {world input?} unread past := by
    refine mirrors past input? world (framed.mirrors (fun given => ?_) past)
    obtain ⟨present, same⟩ := unread given
    rw [Unread, begun world, ← ended]
    exact ⟨present, same⟩

theorem IsFramed.handled {holds : Prop} {called : Option String} {wrap : Run α → Run β}
    (handles : Handles holds called wrap) (framed : action.IsFramed) : (wrap action).IsFramed := by
  refine isFramed_around id framed (fun _ => rfl) (fun world => ?_)
    fun _ _ _ => mirrors_handled isAside_framed handles
  obtain ⟨_, _, same⟩ := exists_final_handled handles action world
  rw [same]
  rfl

theorem isFramed_inEdition (edition : Edition) (framed : action.IsFramed) :
    (inEdition edition action).IsFramed := by
  refine isFramed_around (fun world => { world with edition }) framed (fun _ => rfl)
    (fun world => ?_) fun _ _ _ => mirrors_inEdition isAside_framed edition
  rw [inEdition]
  cases action { world with edition } <;> rfl

theorem isFramed_inScope (scope : Scope Value Routine) (framed : action.IsFramed) :
    (inScope scope action).IsFramed := by
  refine isFramed_around (fun world => world.enter scope) framed (fun _ => rfl)
    (fun world => ?_) fun _ _ _ => mirrors_inScope isAside_framed scope
  rw [final_inScope, input_leave]

/-! ### What touches the functions and the outside -/

theorem isFramed_schedule (change : Float → Scheduler → Scheduler) (told : String) :
    (schedule change told).IsFramed := by
  refine isFramed_of_overlooks (fun world => ?_) fun _ _ =>
    overlooks_schedule isTimeless_framed isAside_framed change told
  rw [schedule]
  cases world.scheduler <;> rfl

theorem isFramed_scheduleByCalendar (schedule : String) (block : Block) :
    (scheduleByCalendar schedule block).IsFramed := by
  refine isFramed_of_overlooks (fun world => ?_) fun _ _ =>
    overlooks_scheduleByCalendar isTimeless_framed isAside_framed schedule block
  rw [scheduleByCalendar]
  cases world.scheduler with
  | none => rfl
  | some scheduler =>
    dsimp only
    cases scheduler.addScheduled schedule block <;> rfl

theorem isFramed_keepForClicks (canvas : Value) (block : Block) :
    (keepForClicks canvas block).IsFramed := by
  refine isFramed_of_overlooks (fun world => ?_) fun _ _ =>
    overlooks_keepForClicks isAside_framed canvas block (fun _ => rfl) fun _ _ => rfl
  rw [keepForClicks]
  cases world.screen <;> rfl

theorem isFramed_keep (body : List Stmt) : (keep body).IsFramed :=
  isFramed_look (fun world => Block.mk world.edition body) fun _ _ _ => rfl

theorem isFramed_passTime (span : Float) : (passTime span).IsFramed := by
  refine isFramed_of_overlooks (fun world => ?_) fun _ _ =>
    overlooks_passTime isTimeless_framed span
  cases present : world.scheduler with
  | none =>
    rw [passTime_none span present]
    rfl
  | some scheduler =>
    rw [passTime_some span present]
    dsimp only [final_ok]
    split <;> rfl

theorem isFramed_exchange (request : Outgoing) : (exchange request).IsFramed := by
  refine isFramed_of_overlooks (fun world => ?_) fun _ _ =>
    overlooks_exchange request (fun _ => rfl) (fun _ _ => rfl) fun _ => rfl
  rw [exchange]
  split <;> rfl

theorem isFramed_fromFiles (view : FileTree → Except Refusal α) : (fromFiles view).IsFramed :=
  isFramed_bind (isFramed_look _ fun _ _ _ => rfl) fun files => by
    cases view files with
    | ok value => exact isFramed_plain (isPlain_pure value)
    | error cause => exact isFramed_throw _

theorem isFramed_changingFiles (change : FileChange α) : (changingFiles change).IsFramed := by
  refine isFramed_of_overlooks (fun world => ?_) fun _ _ =>
    overlooks_changingFiles change (fun _ => rfl) fun _ _ => rfl
  rw [changingFiles]
  cases change world.files <;> rfl

theorem isFramed_newEdition : newEdition.IsFramed :=
  isFramed_of_overlooks (fun _ => rfl) fun _ _ _ => rfl

theorem isFramed_note (note : Note) : (Run.note note).IsFramed :=
  isFramed_modify (fun _ => rfl) fun _ _ _ => rfl

theorem isFramed_routine (name : String) : (Engine.routine name).IsFramed := by
  refine isFramed_bind (isFramed_look _ fun _ _ _ => rfl) fun found => ?_
  cases found with
  | some function => exact isFramed_plain (isPlain_pure function)
  | none => exact isFramed_throw _

theorem isFramed_openScope (handing : Handing) : (Engine.openScope handing).IsFramed := by
  cases handing with
  | copies =>
    refine isFramed_bind (isFramed_look _ fun _ _ _ => rfl) fun captures => ?_
    cases captures with
    | true => exact isFramed_bind (isFramed_note .refusal) fun _ => isFramed_throw _
    | false =>
      exact isFramed_bind isFramed_newEdition fun number => isFramed_look _ fun _ _ _ => rfl
  | nothing =>
    exact isFramed_bind isFramed_newEdition fun number => isFramed_plain (isPlain_pure _)

theorem isFramed_program (source : String) : (program source).IsFramed := by
  rcases eq_pure_or_throw_program source with ⟨statements, read⟩ | ⟨exit, failed⟩
  · rw [read]
    exact isFramed_plain (isPlain_pure statements)
  · rw [failed]
    exact isFramed_throw exit

/-- A call that reaches into the run is framed, too: it may take a line of the input. -/
theorem isFramed_inward (settings : Settings) (inward : Inward) :
    (inward.result settings).IsFramed := by
  refine isFramed_bind (isFramed_note .inward) fun _ => ?_
  cases inward with
  | debugging | granted => exact isFramed_plain (isPlain_pure _)
  | ownTime =>
    refine isFramed_bind (isFramed_look _ fun _ _ _ => rfl) fun found => ?_
    cases found with
    | some scheduler => exact isFramed_plain (isPlain_pure _)
    | none => exact isFramed_throw _
  | line => exact isFramed_taking _ (fun _ => rfl) fun _ _ => rfl
  | forget name =>
    refine isFramed_of_overlooks (fun world => ?_) fun past input? world => ?_
    · obtain ⟨_, same⟩ | ⟨_, _, _, same⟩ := Inward.forget_eq settings name world <;> rw [same] <;> rfl
    · rw [Inward.act]
      dsimp only
      rw [framed_callers]
      cases world.callers <;> rfl
  | misfit =>
    exact isFramed_bind (.handled (handles_reporting settings ()) (isFramed_throw _)) fun _ =>
      isFramed_plain (isPlain_pure _)
  | breakLoop =>
    rw [Inward.act]
    split <;> exact isFramed_throw _

end Run

/-! ### All programs -/

variable (settings : Settings)

theorem localCongruence_isFramed :
    LocalCongruence (fun _ action _ => action.IsFramed) settings settings where
  plain := isFramed_plain
  bind := isFramed_bind
  checked activity one other framed :=
    related_checked (fun _ action _ => action.IsFramed) rfl activity one other framed
      (isFramed_throw _)
  failOutside fits := isFramed_plain (isPlain_failOutside settings fits _)
  foreignResult name values _ :=
    isFramed_plain (isPlain_foreignResult settings name values)
  inward reach _ := isFramed_inward settings reach
  readLine := isFramed_readLine
  replies _ := isFramed_look _ fun _ _ _ => rfl
  exchange request _ := isFramed_exchange request
  files _ _ := isFramed_look _ fun _ _ _ => rfl
  setFiles _ _ := isFramed_modify (fun _ => rfl) fun _ _ _ => rfl
  changingFiles _ := isFramed_changingFiles _
  find _ _ := isFramed_fromFiles _
  packages := isFramed_look _ fun _ _ _ => rfl
  registry _ := isFramed_look _ fun _ _ _ => rfl
  noteLoaded _ _ _ := isFramed_modify (fun _ => rfl) fun _ _ _ => rfl
  passTime span _ := isFramed_passTime span
  stopJob _ := isFramed_schedule _ _
  hasScreen := isFramed_look _ fun _ _ _ => rfl
  incoming _ := isFramed_look _ fun _ _ _ => rfl
  noteServer _ _ := isFramed_modify (fun _ => rfl) fun _ _ _ => rfl
  noteAnswer _ _ := isFramed_modify (fun _ => rfl) fun _ _ _ => rfl

theorem callCongruence_isFramed :
    CallCongruence (fun _ action _ => action.IsFramed) settings settings where
  toLocalCongruence := localCongruence_isFramed settings
  newEdition := isFramed_newEdition
  routine := isFramed_routine
  openScope := isFramed_openScope settings.handing
  inEdition edition _ _ := isFramed_inEdition edition
  inScope scope _ _ := isFramed_inScope scope
  givenBack := .handled handles_givenBack
  namingFunction _ := .handled (handles_namingFunction _)

theorem programCongruence_isFramed :
    ProgramCongruence (fun _ action _ => action.IsFramed) settings settings where
  toLocalCongruence := localCongruence_isFramed settings
  misfit _ _ := isFramed_throw _
  register _ body _ _ := isFramed_bind (isFramed_keep body) fun _ =>
    isFramed_schedule _ _
  calendar _ body _ := isFramed_bind (isFramed_keep body) fun _ =>
    isFramed_scheduleByCalendar _ _
  clicks _ body _ := isFramed_bind (isFramed_keep body) fun _ =>
    isFramed_keepForClicks _ _
  reporting value _ _ := .handled (handles_reporting settings value)
  pass := .handled handles_pass
  server parts whole :=
    (callCongruence_isFramed settings).server parts whole (.handled handles_answered)
  raise _ := isFramed_throw _
  define _ _ _ := isFramed_modify (fun _ => rfl) fun _ _ _ => rfl
  callRoutine := (callCongruence_isFramed settings).callRoutine
  runPackage parts source _ := isFramed_bind (isFramed_note (.package source)) fun _ =>
    isFramed_bind (isFramed_program source) ((callCongruence_isFramed settings).runProgram parts)

/-- A run that reads nothing writes the same after other texts and with another input, and leaves
the same behind. -/
theorem Run.IsFramed.moved {action : Run α} (framed : action.IsFramed) {world after : World}
    {value : α} (ends : action world = .ok value after) (unread : action.Unread world) :
    ∃ piece, after.written = piece ++ world.written ∧ ∀ written input,
      action { world with written, input } =
        .ok value { after with written := piece ++ written, input } := by
  let bare : World := { world with written := [] }
  have followed : action (bare.framed world.written none) = _ :=
    framed.mirrors (fun given => absurd rfl given) world.written
  change action world = _ at followed
  rw [ends] at followed
  cases ended : action bare with
  | error exit left =>
    rw [ended] at followed
    cases followed
  | ok result left =>
    rw [ended] at followed
    cases followed
    have unreadBare : action.Unread bare := by
      refine ⟨unread.1, ?_⟩
      rw [ended]
      exact (congrArg input (congrArg Run.final ends)).symm.trans unread.2
    refine ⟨left.written, rfl, fun written input => ?_⟩
    have mirrored : action (bare.framed written (some input)) = _ :=
      framed.mirrors (fun _ => unreadBare) written
    rw [ended] at mirrored
    exact mirrored

/-- Programs take the input from its front; and where they take nothing of an input that is there,
they go the same way in every frame. -/
theorem isFramed_standard (program : List Stmt) :
    ((Engine.standard settings).runProgram program).IsFramed :=
  (callCongruence_isFramed settings).runProgram
    ((programCongruence_isFramed settings).ofDepth ample) program

end Parlance
