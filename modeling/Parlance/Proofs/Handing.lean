import Parlance.Proofs.Alike
import Parlance.Proofs.Journal

/-!
What a call hands to the scope that it opens makes no difference while a program runs: a call may
hand down nothing instead of copies of the functions of the caller, and every program goes alike,
unless a call is refused because a function has captured a library, or a call outside the language
reaches into the run. Afterwards the difference can show.
-/

namespace Parlance

open Engine Run

variable {α β : Type}

/-- The settings with another way of handing down functions. -/
def Settings.withHanding (settings : Settings) (handing : Handing) : Settings :=
  { settings with handing }

/-- Whether a note is about a call that is refused or that reaches into the run. -/
def Note.isDisturbance : Note → Bool
  | .refusal | .inward => true
  | _ => false

/-- Whether a run is matched by another one where some scopes have been opened: as long as no call
is refused in the first and none reaches into it, the second goes alike. -/
structure Run.IsMatchedAt (opened : Nat) (one other : Run α) : Prop where
  grows : one.Keeps Grown
  ends (world beside : World) (notes : List Note) : World.Alike opened world beside →
    Noted notes world (final (one world)) → (∀ note ∈ notes, note.isDisturbance = false) →
      EndsAlike opened (one world) (other beside)

/-- Whether a run is matched by another one, however many scopes have been opened. -/
def Run.IsMatched (one other : Run α) : Prop := ∀ opened, Run.IsMatchedAt opened one other

namespace Run

variable {opened : Nat} {one other : Run α}

theorem isMatchedAt_of_goAlike (grows : one.Keeps Grown) (alike : GoAlike one other) :
    IsMatchedAt opened one other where
  grows := grows
  ends world beside _ together _ _ := alike opened world beside together

/-! ### The ways in which runs are put together -/

theorem isMatchedAt_bind {next later : α → Run β} (head : IsMatchedAt opened one other)
    (tail : ∀ value, IsMatchedAt opened (next value) (later value)) :
    IsMatchedAt opened (one >>= next) (other >>= later) where
  grows := keeps_bind head.grows (fun value => (tail value).grows) fun _ _ _ => List.IsSuffix.trans
  ends world beside notes alike noted accepted := by
    have begun := head.grows world
    have first := head.ends world beside
    change Noted notes world (final (EStateM.bind one next world)) at noted
    show EndsAlike opened (EStateM.bind one next world) (EStateM.bind other later beside)
    rw [EStateM.bind] at noted
    rw [EStateM.bind, EStateM.bind]
    generalize one world = result at begun first noted ⊢
    cases result with
    | ok value after =>
      obtain ⟨late, early, lateNoted, earlyNoted, rfl⟩ :=
        noted.split begun ((tail value).grows after)
      have between := first early alike earlyNoted fun note member =>
        accepted note (List.mem_append_right _ member)
      generalize other beside = result at between ⊢
      cases between with
      | ok _ alikeAfter =>
        exact (tail value).ends after _ late alikeAfter lateNoted fun note member =>
          accepted note (List.mem_append_left _ member)
    | error exit after =>
      have between := first notes alike noted accepted
      generalize other beside = result at between ⊢
      cases between with
      | error _ alikeAfter => exact .error exit alikeAfter

variable {called : Option String}

/-- What is done after an early end is done alike. -/
theorem Follows.goAlike {holds : Prop} {exit : Exit} {next : Run β}
    (follows : Follows holds called exit next) : GoAlike next next := by
  intro opened world beside alike
  cases follows with
  | passed | renamed => exact .error _ alike
  | caught | stalled => exact .ok _ alike
  | heldUp => exact .ok _ (alike.holdUp _)
  | told => exact .ok _ ((alike.holdUp _).write .output _)

theorem IsMatchedAt.handled {holds : Prop} {wrap : Run α → Run β}
    (handles : Handles holds called wrap) (head : IsMatchedAt opened one other) :
    IsMatchedAt opened (wrap one) (wrap other) where
  grows world := (head.grows world).trans (grown_handled handles one world)
  ends world beside notes alike noted accepted := by
    obtain ⟨_, earlier, _, early, rfl⟩ :=
      noted.split (head.grows world) (grown_handled handles one world)
    have between := head.ends world beside earlier alike early fun note member =>
      accepted note (List.mem_append_right _ member)
    generalize begun : one world = first, ended : other beside = second at between
    cases between with
    | ok value alikeAfter =>
      obtain ⟨made, same⟩ := handles.ok value
      rw [same begun, same ended]
      exact .ok made alikeAfter
    | error exit alikeAfter =>
      obtain ⟨_, follows, same⟩ := handles.error exit
      rw [same begun, same ended]
      exact follows.goAlike opened _ _ alikeAfter

/-- Editions do not show inside a scope that has been opened. -/
theorem isMatchedAt_inEdition {edition copy : Edition} (same : opened = 0 → edition = copy)
    (head : IsMatchedAt opened one other) :
    IsMatchedAt opened (inEdition edition one) (inEdition copy other) where
  grows := grown_inEdition edition head.grows
  ends world beside notes alike noted accepted := by
    have inside := head.ends { world with edition } { beside with edition := copy } notes
      (alike.withEditions same)
    rw [inEdition] at noted
    rw [inEdition, inEdition]
    generalize one { world with edition } = result at inside noted ⊢
    cases result with
    | ok value after =>
      have between := inside noted accepted
      generalize other { beside with edition := copy } = result at between ⊢
      cases between with
      | ok _ alikeAfter => exact .ok value (alikeAfter.withEditions alike.edition_eq)
    | error exit after =>
      have between := inside noted accepted
      generalize other { beside with edition := copy } = result at between ⊢
      cases between with
      | error _ alikeAfter => exact .error exit (alikeAfter.withEditions alike.edition_eq)

/-! ### Calls -/

def SameEdition (before after : World) : Prop := after.edition = before.edition

theorem sameEdition_inEdition (edition : Edition) (action : Run α) :
    (inEdition edition action).Keeps SameEdition := by
  intro world
  rw [SameEdition, inEdition]
  cases action { world with edition } <;> rfl

variable {world : World} {name : String}

/-- Runs in scopes of their own that let the same functions be seen. -/
theorem endsAlike_inScope {scope child : Scope Value Routine} {beside : World} {notes : List Note}
    (head : IsMatchedAt (opened + 1) one other) (keeps : one.Keeps SameEdition)
    (keepsBeside : other.Keeps SameEdition)
    (entered : World.Alike (opened + 1) (world.enter scope) (beside.enter child))
    (edition : opened = 0 → world.edition = beside.edition)
    (noted : Noted notes world (final (inScope scope one world)))
    (accepted : ∀ note ∈ notes, note.isDisturbance = false) :
    EndsAlike opened (inScope scope one world) (inScope child other beside) := by
  rw [Noted, final_inScope, journal_leave] at noted
  have inside := head.ends (world.enter scope) (beside.enter child) notes entered noted accepted
  -- inside, the editions may differ; outside of all opened scopes they have to be the same again
  have kept : (final (one (world.enter scope))).edition = world.edition := keeps _
  have keptBeside : (final (other (beside.enter child))).edition = beside.edition := keepsBeside _
  rw [inScope, inScope]
  generalize one (world.enter scope) = first, other (beside.enter child) = second
    at inside kept keptBeside
  cases inside with
  | ok value alike =>
    exact .ok value (alike.leave fun none => kept.trans ((edition none).trans keptBeside.symm))
  | error exit alike =>
    exact .error exit (alike.leave fun none => kept.trans ((edition none).trans keptBeside.symm))

theorem openScope_refused (captures : world.capturesLibrary = true) :
    openScope .copies world = .error (.fault (.wrongType .uncopyable))
      { world with journal := .refusal :: world.journal } := by
  rw [openScope, look_bind, captures]
  rfl

theorem openScope_copies (captures : world.capturesLibrary = false) :
    openScope .copies world =
      .ok (world.callScope world.editions) { world with editions := world.editions + 1 } := by
  rw [openScope, look_bind, captures]
  rfl

/-- A call in a scope with copies, and a call in a scope without functions. -/
theorem isMatchedAt_inNewScope (parameters : List String) (values : List Value)
    (head : IsMatchedAt (opened + 1) one other) (keeps : one.Keeps SameEdition)
    (keepsBeside : other.Keeps SameEdition) :
    IsMatchedAt opened
      (openScope .copies >>= fun scope => inScope (scope.bind parameters values) one)
      (openScope .nothing >>= fun scope =>
        inScope (scope.bind parameters values) other) where
  grows := keeps_bind (grown_openScope .copies) (fun scope => grown_inScope _ head.grows)
    fun _ _ _ => List.IsSuffix.trans
  ends world beside notes alike noted accepted := by
    obtain ⟨face, shown⟩ := alike
    change Noted notes world (final (EStateM.bind _ _ world)) at noted
    show EndsAlike opened (EStateM.bind _ _ world) _
    rw [EStateM.bind] at noted ⊢
    cases captures : world.capturesLibrary with
    | true =>
      -- the refusal is the only note, and the notes hold none
      rw [openScope_refused captures] at noted
      have refused : notes = [.refusal] :=
        (List.append_cancel_right ((List.singleton_append).trans noted)).symm
      rw [refused] at accepted
      exact absurd (accepted _ (List.mem_singleton_self _)) Bool.noConfusion
    | false =>
      rw [openScope_copies captures] at noted ⊢
      let copied := (world.callScope world.editions).bind parameters values
      let child : Scope Value Routine := { Scope.empty with call := some world.editions }
      have seen : visible? (copied :: world.scopes) = visible? world.scopes :=
        visible?_copies world.callers world.editions (Scope.bind_same _ parameters values).1
      have seenBeside : visible? (child.bind parameters values :: (world.withFace face).scopes) =
          visible? (world.withFace face).scopes :=
        visible?_nothing _ (Scope.bind_same child parameters values).1
      have numbered : World.Alike opened { world with editions := world.editions + 1 }
          { world.withFace face with editions := world.editions + 1 } := .mk face shown
      have empty : (world.callScope world.editions).bindings = child.bindings := rfl
      have bindings : copied.bindings = (child.bind parameters values).bindings :=
        Scope.bindings_bind empty parameters values
      have call : copied.call = (child.bind parameters values).call := by
        rw [(Scope.bind_same _ _ _).2, (Scope.bind_same _ _ _).2]
        rfl
      have entered := numbered.enter bindings call
        (seen.trans (shown.scopes.visible?_eq.trans seenBeside.symm))
      exact endsAlike_inScope head keeps keepsBeside entered numbered.edition_eq noted accepted

theorem routine_bind_some {function : Routine}
    (known : Scope.function? world.scopes name = some function) (next : Routine → Run α) :
    (routine name >>= next) world = next function world := by
  show EStateM.bind (routine name) next world = _
  rw [EStateM.bind, routine, look_bind, known]
  rfl

theorem routine_bind_none (unknown : Scope.function? world.scopes name = none)
    (next : Routine → Run α) :
    (routine name >>= next) world =
      .error (.fault (.unbound (.functionName name))) world := by
  show EStateM.bind (routine name) next world = _
  rw [EStateM.bind, routine, look_bind, unknown]
  rfl

/-- The functions that are found under a name look alike. -/
theorem isMatchedAt_routine (name : String) {next later : Routine → Run α}
    (tail : ∀ function copy, function.content = copy.content →
      IsMatchedAt opened (next function) (later copy)) :
    IsMatchedAt opened (routine name >>= next) (routine name >>= later) where
  grows := keeps_bind (grown_routine name) (fun function => (tail function function rfl).grows)
    fun _ _ _ => List.IsSuffix.trans
  ends world beside notes alike noted accepted := by
    have seen : visible? world.scopes name = visible? beside.scopes name := by
      obtain ⟨face, shown⟩ := alike
      exact congrFun shown.scopes.visible?_eq name
    rw [visible?, visible?] at seen
    cases known : Scope.function? world.scopes name with
    | none =>
      rw [known] at seen
      have unknown := Option.map_eq_none_iff.mp seen.symm
      rw [routine_bind_none known, routine_bind_none unknown]
      exact .error _ alike
    | some function =>
      rw [known] at seen
      obtain ⟨copy, found, same⟩ := Option.map_eq_some_iff.mp seen.symm
      rw [routine_bind_some known] at noted
      rw [routine_bind_some known, routine_bind_some found]
      exact (tail function copy same.symm).ends world beside notes alike noted accepted

/-- A call that reaches into the run is not asked about. -/
theorem isMatchedAt_inward (settings : Settings) (inward : Inward) (other : Run Value) :
    IsMatchedAt opened (inward.result settings) other where
  grows world := by
    obtain ⟨reach, same⟩ := inward.exists_final_result settings world
    rw [same]
    exact (List.suffix_cons _ _).trans (List.suffix_append _ _)
  ends world beside notes _ noted accepted := by
    obtain ⟨reach, same⟩ := inward.exists_final_result settings world
    rw [same] at noted
    rw [noted.eq (reach.notes ++ [Note.inward]) (List.append_cons _ _ _)] at accepted
    exact absurd (accepted .inward (List.mem_append_right _ (List.mem_singleton_self _)))
      Bool.noConfusion

end Run

/-! ### All programs -/

section

variable (settings : Settings)

/-- The meanings of expressions and statements are matched, if their parts are. -/
theorem localCongruence_isMatched :
    LocalCongruence (fun _ => Run.IsMatched) (settings.withHanding .copies)
      (settings.withHanding .nothing) := by
  have grown := (preserved_grown (settings.withHanding .copies)).congruence
  have alike {α : Type} {action : Run α} (grows : action.Keeps Grown)
      (goAlike : Run.GoAlike action action) : action.IsMatched action :=
    fun _ => isMatchedAt_of_goAlike grows goAlike
  have plain {α : Type} {action : Run α} (isPlain : action.IsPlain) : action.IsMatched action :=
    alike (grown.plain isPlain) (goAlike_plain isPlain)
  have aside {α : Type} {action : Run α} (grows : action.Keeps Grown)
      (overlooks : ∀ face, action.Overlooks fun world => world.withFace face) :
      action.IsMatched action :=
    alike grows (goAlike_of_overlooks overlooks)
  exact {
    plain := plain
    bind := fun head tail opened =>
      isMatchedAt_bind (head opened) fun value => tail value opened
    checked := fun activity one other matched => related_checked (fun _ => Run.IsMatched) rfl
      activity one other matched (plain (isPlain_report rfl))
    failOutside := fun fits => plain (isPlain_failOutside settings fits _)
    foreignResult := fun name values _ => plain (isPlain_foreignResult settings name values)
    inward := fun inward _ _ => isMatchedAt_inward _ inward _
    readLine := aside grown.readLine fun _ _ => rfl
    replies := fun allowed => aside (grown.replies allowed) fun _ _ => rfl
    exchange := fun request allowed =>
      aside (grown.exchange request allowed) fun _ =>
        overlooks_exchange request (fun _ => rfl) (fun _ _ => rfl) fun _ => rfl
    files := fun view allowed => aside (grown.files view allowed) fun _ _ => rfl
    setFiles := fun files allowed => aside (grown.setFiles files allowed) fun _ _ => rfl
    changingFiles := fun allowed =>
      aside (grown.changingFiles allowed) fun _ =>
        overlooks_changingFiles _ (fun _ => rfl) fun _ _ => rfl
    find := fun name allowed => aside (grown.find name allowed) fun _ =>
      overlooks_fromFiles _ fun _ => rfl
    packages := aside grown.packages fun _ _ => rfl
    registry := fun allowed => aside (grown.registry allowed) fun _ _ => rfl
    noteLoaded := fun name package allowed =>
      aside (grown.noteLoaded name package allowed) fun _ _ => rfl
    passTime := fun span allowed => alike (grown.passTime span allowed) (goAlike_passTime span)
    stopJob := fun name => alike (grown.stopJob name) (goAlike_stopJob name)
    hasScreen := alike grown.hasScreen goAlike_hasScreen
    incoming := fun allowed => aside (grown.incoming allowed) fun _ _ => rfl
    noteServer := fun port allowed => aside (grown.noteServer port allowed) fun _ _ => rfl
    noteAnswer := fun reply allowed => aside (grown.noteAnswer reply allowed) fun _ _ => rfl }

section

variable {one other : Engine} (parts : Engine.Related (fun _ => Run.IsMatched) one other)

include settings parts

theorem isMatched_executeAll (body : List Stmt) :
    (one.executeAll body).IsMatched (other.executeAll body) :=
  (localCongruence_isMatched settings).executeAll fun statement _ => parts.execute statement

theorem isMatched_runProgram (program : List Stmt) :
    (one.runProgram program).IsMatched (other.runProgram program) := by
  have law := localCongruence_isMatched settings
  have grows := (preserved_grown settings).congruence.inner isInner_newEdition
  have numbered : newEdition.IsMatched newEdition := fun _ =>
    isMatchedAt_of_goAlike grows goAlike_newEdition
  exact law.runProgram_of_blocks numbered fun statement _ number opened =>
    isMatchedAt_inEdition (fun _ => rfl) (isMatched_executeAll settings parts _ opened)

variable (source : String)

omit parts in
theorem isMatched_program : (program source).IsMatched (program source) := by
  have grows := (preserved_grown settings).congruence.inner (isInner_program source)
  exact fun _ => isMatchedAt_of_goAlike grows (goAlike_program source)

theorem isMatched_runPackage : (one.runPackage source).IsMatched (other.runPackage source) := by
  have law := localCongruence_isMatched settings
  have grows : (note (.package source)).Keeps Grown :=
    (preserved_grown settings).congruence.note (.package source)
  refine law.bind (fun _ => isMatchedAt_of_goAlike grows (goAlike_note _)) fun _ => ?_
  exact law.bind (isMatched_program settings source) fun program =>
    isMatched_runProgram settings parts program

theorem isMatched_callRoutine (handing : one.handing = .copies)
    (handingBeside : other.handing = .nothing) (name : String) (arguments : List Expr) :
    (one.callRoutine name arguments).IsMatched (other.callRoutine name arguments) := by
  intro opened
  refine .handled (handles_namingFunction name) ?_
  refine isMatchedAt_routine name fun function copy same => ?_
  obtain ⟨parameters, body⟩ := Prod.mk.inj same
  refine isMatchedAt_bind
    ((localCongruence_isMatched settings).evaluateAll (fun argument _ => parts.evaluate argument)
      opened)
    fun values => ?_
  rw [handing, handingBeside, parameters, runBlock, runBlock, body]
  have executed : Run.IsMatchedAt (opened + 1) (one.executeAll copy.block.body)
      (other.executeAll copy.block.body) := isMatched_executeAll settings parts _ (opened + 1)
  exact isMatchedAt_inNewScope copy.parameters values
    (.handled handles_givenBack (isMatchedAt_inEdition nofun executed))
    (keeps_of_final (sameEdition_inEdition _ _) (final_handled handles_givenBack))
    (keeps_of_final (sameEdition_inEdition _ _) (final_handled handles_givenBack))

end

theorem programCongruence_isMatched :
    ProgramCongruence (fun _ => Run.IsMatched) (settings.withHanding .copies)
      (settings.withHanding .nothing) where
  toLocalCongruence := localCongruence_isMatched settings
  misfit _ _ _ := isMatchedAt_of_goAlike (fun _ => List.suffix_rfl)
    fun _ _ _ alike => .error _ alike
  register registration body told allowed _ := isMatchedAt_of_goAlike
    ((preserved_grown _).congruence.programs.register registration body told allowed)
    (goAlike_register registration body told)
  calendar schedule body allowed _ := isMatchedAt_of_goAlike
    ((preserved_grown _).congruence.programs.calendar schedule body allowed)
    (goAlike_calendar schedule body)
  clicks canvas body allowed _ := isMatchedAt_of_goAlike
    ((preserved_grown _).congruence.programs.clicks canvas body allowed)
    (goAlike_clicks canvas body)
  reporting value _ _ head opened := (head opened).handled (handles_reporting settings value)
  pass head opened := (head opened).handled handles_pass
  server parts whole port routes := by
    have law := localCongruence_isMatched settings
    refine law.server whole trivial routes fun allowed number => ?_
    refine law.startServer (fun route _ opened => ?_) allowed number
    exact (isMatched_executeAll settings parts route.body opened).handled handles_answered
  raise _ _ := isMatchedAt_of_goAlike (fun _ => List.suffix_rfl)
    fun _ _ _ alike => .error _ alike
  define name parameters body _ := isMatchedAt_of_goAlike
    ((preserved_grown settings).congruence.inner (isInner_define name parameters body))
    (goAlike_define name parameters body)
  callRoutine parts handing handingBeside _ _ :=
    isMatched_callRoutine settings parts handing handingBeside _
  runPackage parts source _ := isMatched_runPackage settings parts source

end

/-! ### Nothing is seen of it -/

/-- The way in which a run has ended. -/
def Run.outcome : EStateM.Result Exit World α → Except Exit α
  | .ok value _ => .ok value
  | .error exit _ => .error exit

/-- Whether two runs have ended in the same way, and have left the same behind: all that is written,
all cells, all scopes with their variables and their functions, the files, and all that waits for its
time or for mouse clicks, apart from the editions of blocks that wait. -/
structure SameEnd (one other : EStateM.Result Exit World α) : Prop where
  outcome : outcome one = outcome other
  written : (final one).written = (final other).written
  heap : (final one).heap = (final other).heap
  scopes : (final one).scopes = (final other).scopes
  files : (final one).files = (final other).files
  scheduler : (final one).scheduler.map Scheduler.bare = (final other).scheduler.map Scheduler.bare
  screen : (final one).screen.map (List.map ClickHandler.bare) =
    (final other).screen.map (List.map ClickHandler.bare)

theorem EndsAlike.sameEnd {one other : EStateM.Result Exit World α}
    (alike : EndsAlike 0 one other) : SameEnd one other := by
  cases alike with
  | ok value alike | error exit alike =>
    obtain ⟨face, shown⟩ := alike
    exact ⟨rfl, rfl, rfl, shown.scopes.eq_of_zero, rfl, shown.scheduler, shown.screen⟩

/-- Whether no call was refused on the way from one world to another, and no call outside the language
reached into the run. A call is refused if a function that it would have to copy has captured a
library. -/
def RunsUndisturbed (before after : World) : Prop :=
  ∀ notes, Noted notes before after → ∀ note ∈ notes, note.isDisturbance = false

theorem Run.IsMatched.sameEnd {one other : Run α} (matched : one.IsMatched other) {world : World}
    (accepted : RunsUndisturbed world (final (one world))) :
    SameEnd (one world) (other world) := by
  obtain ⟨notes, noted⟩ := ((matched 0).grows world).exists_noted
  exact ((matched 0).ends world world notes (.refl world) noted (accepted notes noted)).sameEnd

end Parlance
