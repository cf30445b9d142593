import Parlance.Proofs.EventMeaning
import Parlance.Proofs.Fitting
import Parlance.Proofs.Scoping

/-!
Disciplines. A discipline says what may be run where, and in which ways runs may end there. If the
functions that a world knows and the blocks that it keeps for later obey it, and the packages that
are loaded on the way, then so do all runs of what it accepts.
-/

namespace Parlance

open Engine Run List

variable {α β : Type}

/-! ### Disciplines -/

/-- Where the blocks of a statement stand. -/
def Stmt.inner (standing : Standing) : Stmt → Standing
  | .branch _ _ _ | .choose _ _ => standing
  | .repeatForever _ | .repeatTimes _ _ | .repeatUntil _ _ | .doUntil _ _ => standing.looped
  | .define _ _ _ => .inBody
  | _ => .outside

/-- Whether the program that a text is may be run, and every way in which reading it can fail. -/
def Admits (accepts : Stmt → Prop) (permits : Exit → Prop) (source : String) : Prop :=
  (∀ program, program? source = some program → ∀ statement ∈ program, accepts statement) ∧
    ∀ {world after : World} {exit : Exit},
      Run.program source world = .error exit after → permits exit

/-- What may be run, and how runs may end. A discipline permits whatever pieces of meanings do by
themselves, and what it accepts has only parts that it accepts. It can rely on what is known of the
notes that are made on the way. -/
structure Discipline (settings : Settings) where
  knows : Expr → Prop
  accepts : Standing → Stmt → Prop
  /-- The blocks that may be kept for later. -/
  keeps : List Stmt → Prop
  permits : Standing → Exit → Prop
  relies : Note → Prop
  makes : Note → Prop
  plain {standing : Standing} {exit : Exit} : exit.isPlain = true → permits standing exit
  unknown {standing : Standing} {name : String} : Builtin.ofName? name = none →
    permits standing (.fault (.report (.undefinedFunction name)))
  ofLoop {standing : Standing} {exit : Exit} : permits standing.looped exit →
    exit ≠ .signal .breakLoop → exit ≠ .signal .continueLoop → permits standing exit
  ofBody {standing : Standing} {exit : Exit} : permits .inBody exit →
    (∀ value, exit ≠ .signal (.giveBack value)) → permits standing exit
  anywhere {standing : Standing} {exit : Exit} : permits .outside exit → permits standing exit
  heldUp {standing : Standing} {cause : Fault} : permits standing (.fault cause) →
    makes (.heldUp cause)
  otherNotes {note : Note} : (∀ cause, note ≠ .heldUp cause) → makes note
  parts {standing : Standing} {expression : Expr} : knows expression → expression.Each knows ∧
    ∀ cause ∈ expression.misfits, permits standing (.fault (.report cause))
  inside {standing : Standing} {statement : Stmt} : accepts standing statement →
    statement.Each knows ∧
      (∀ cause ∈ statement.misfits, permits standing (.fault (.report cause))) ∧
      ∀ body ∈ statement.blocks, ∀ inner ∈ body, accepts (statement.inner standing) inner
  breaks {standing : Standing} : accepts standing .breakLoop →
    permits standing (.signal .breakLoop)
  continues {standing : Standing} : accepts standing .continueLoop →
    permits standing (.signal .continueLoop)
  gives {standing : Standing} {given : Option Expr} {value : Value} :
    accepts standing (.giveBack given) → permits standing (.signal (.giveBack value))
  waits {body : List Stmt} : (∀ inner ∈ body, accepts .outside inner) → keeps body
  placed {statement : Stmt} : accepts .outside statement →
    ∀ inner ∈ Stmt.program [statement], accepts .outside inner
  package {source : String} : settings.Allow .packages → relies (.package source) →
    Admits (accepts .outside) (permits .outside) source
  /-- What a call outside the language can bring about that reaches into the run. -/
  inward {standing : Standing} : relies .inward → permits standing (.signal .breakLoop) ∧
    permits standing (.fault (.report (.unknownStatement "NoneType")))

variable {settings : Settings} {rules : Discipline settings} {world after : World}

namespace Discipline

/-- Whether a world knows and keeps only what obeys a discipline. -/
structure Holds (rules : Discipline settings) (world : World) : Prop where
  functions : ∀ scope ∈ world.scopes, ∀ entry ∈ scope.functions,
    ∀ inner ∈ entry.2.block.body, rules.accepts .inBody inner
  handlers : ∀ handlers ∈ world.screen, ∀ handler ∈ handlers, rules.keeps handler.block.body
  tasks : ∀ scheduler ∈ world.scheduler, scheduler.AllBodies rules.keeps

namespace Holds

theorem withScheduler (held : rules.Holds world) {scheduler : Scheduler}
    (tasks : scheduler.AllBodies rules.keeps) :
    rules.Holds { world with scheduler := some scheduler } :=
  ⟨held.functions, held.handlers, fun _ same => Option.some.inj same ▸ tasks⟩

theorem enter (held : rules.Holds world) {scope : Scope Value Routine} (functions : ∀ entry ∈
    scope.functions, ∀ inner ∈ entry.2.block.body, rules.accepts .inBody inner) :
    rules.Holds (world.enter scope) :=
  ⟨forall_mem_cons.mpr ⟨functions, held.functions⟩, held.handlers, held.tasks⟩

theorem leave (held : rules.Holds world) : rules.Holds world.leave := by
  rw [World.leave]
  split
  · exact held
  · rename_i caller others around
    refine { held with
      functions := fun scope member => held.functions scope (mem_cons_of_mem _ ?_) }
    rw [around]
    exact member

end Holds

/-- What is left by a run that obeys, with the notes that it has made. -/
structure Ends (rules : Discipline settings) (standing : Standing) (notes : List Note)
    (result : EStateM.Result Exit World α) : Prop where
  permitted {exit : Exit} {after : World} : result = .error exit after →
    rules.permits standing exit
  holds : rules.Holds (final result)
  makes : ∀ note ∈ notes, rules.makes note

end Discipline

/-- A discipline that is about the ways in which runs end only, wherever they stand. -/
def Discipline.ofExits (permits : Exit → Prop) (relies : Note → Prop)
    (plain : ∀ {exit : Exit}, exit.isPlain = true → permits exit)
    (signal : ∀ {signal : Signal}, permits (.signal signal))
    (misfit : ∀ {cause : Report}, cause.isMisfit = true → permits (.fault (.report cause)))
    (unknown : ∀ {name : String}, Builtin.ofName? name = none →
      permits (.fault (.report (.undefinedFunction name))))
    (package : ∀ {source : String} {world after : World} {exit : Exit}, settings.Allow .packages →
      relies (.package source) → Run.program source world = .error exit after → permits exit) :
    Discipline settings where
  knows _ := True
  accepts _ _ := True
  keeps _ := True
  permits _ := permits
  relies
  makes _ := True
  plain
  unknown
  ofLoop permitted _ _ := permitted
  ofBody permitted _ := permitted
  anywhere := id
  heldUp _ := trivial
  otherNotes _ := trivial
  parts _ := ⟨Expr.each_of_forall (fun _ => trivial) _,
    fun _ member => misfit (Expr.isMisfit_of_mem_misfits member)⟩
  inside _ := ⟨Stmt.each_of_forall (fun _ => trivial) _,
    fun _ member => misfit (Stmt.isMisfit_of_mem_misfits member), fun _ _ _ _ => trivial⟩
  breaks _ := signal
  continues _ := signal
  gives _ := signal
  waits _ := trivial
  placed _ _ _ := trivial
  package allowed relied := ⟨fun _ _ _ _ => trivial, package allowed relied⟩
  inward _ := ⟨signal, misfit rfl⟩

/-- A discipline that asks nothing of blocks holds in all worlds. -/
theorem Discipline.holds_of_forall (accepts : ∀ statement, rules.accepts .inBody statement)
    (keeps : ∀ body, rules.keeps body) : rules.Holds world where
  functions _ _ _ _ inner _ := accepts inner
  handlers _ _ _ _ := keeps _
  tasks _ _ := ⟨fun _ _ => keeps _, fun _ _ => keeps _, fun _ _ => keeps _, fun _ _ => keeps _⟩

/-! ### Runs that leave what is kept alone -/

/-- Whether the second world knows and keeps no other blocks than the first, and has the same
journal. -/
def CodeKept (before after : World) : Prop :=
  after.journal = before.journal ∧
    ∀ {settings : Settings} (rules : Discipline settings), rules.Holds before → rules.Holds after

/-- A change outside the scopes, the screen, the scheduler and the journal. -/
theorem CodeKept.of_same {before after : World} (same : before.SameInside after) :
    CodeKept before after := by
  refine ⟨same.journal, fun rules held => ⟨?_, ?_, ?_⟩⟩
  · rw [same.scopes]
    exact held.functions
  · rw [same.screen]
    exact held.handlers
  · rw [same.scheduler]
    exact held.tasks

namespace Run

variable {action : Run α}

theorem keepsCode_plain (isPlain : action.IsPlain) : action.Keeps CodeKept := by
  intro world
  obtain ⟨step, _, steps⟩ := isPlain
  rw [steps, final_mapState]
  exact ⟨rfl, fun _ held =>
    { held with functions := forall_mem_cons.mpr (forall_mem_cons.mp held.functions) }⟩

/-- A change of the scheduler that brings in no block. -/
theorem codeKept_scheduler {change : Scheduler → Scheduler}
    (kept : ∀ known scheduler, scheduler.AllBodies known → (change scheduler).AllBodies known) :
    CodeKept world { world with scheduler := world.scheduler.map change } := by
  refine ⟨rfl, fun rules held => ⟨held.functions, held.handlers, fun scheduler present => ?_⟩⟩
  obtain ⟨old, there, rfl⟩ := Option.map_eq_some_iff.mp present
  exact kept rules.keeps old (held.tasks old there)

theorem keepsCode_passTime (span : Float) : (passTime span).Keeps CodeKept := by
  intro world
  cases present : world.scheduler with
  | none =>
    rw [passTime_none span present]
    exact .of_same ⟨rfl, rfl, rfl, rfl⟩
  | some scheduler =>
    rw [passTime_some span present, final_ok]
    split
    · refine ⟨rfl, fun rules held => held.withScheduler ?_⟩
      obtain ⟨delayed, recurring, jobs, scheduled⟩ := held.tasks scheduler present
      exact ⟨delayed, recurring, jobs, scheduled⟩
    · exact .of_same ⟨rfl, rfl, rfl, rfl⟩

theorem keepsCode_stopJob (name : String) : (stopJob name).Keeps CodeKept := by
  intro world
  rw [stopJob, schedule]
  split
  · rename_i scheduler present
    refine ⟨rfl, fun rules held => held.withScheduler ?_⟩
    obtain ⟨delayed, recurring, jobs, scheduled⟩ := held.tasks scheduler present
    exact ⟨delayed, recurring, fun entry member => jobs entry (Table.mem_of_mem_erase member),
      scheduled⟩
  · exact .of_same ⟨rfl, rfl, rfl, rfl⟩

/-! ### Runs that obey -/

/-- Whether a run that stands somewhere obeys a discipline, if the notes that it makes can be relied
on. -/
structure Obeys (rules : Discipline settings) (standing : Standing) (action : Run α) : Prop where
  grows : action.Keeps Grown
  ends {world : World} {notes : List Note} : rules.Holds world →
    Noted notes world (final (action world)) → (∀ note ∈ notes, rules.relies note) →
      rules.Ends standing notes (action world)

variable {next : α → Run β} {standing within : Standing} {body : List Stmt}

theorem Obeys.exists_ends (obeys : action.Obeys rules standing) (held : rules.Holds world) :
    ∃ notes, Noted notes world (final (action world)) ∧
      ((∀ note ∈ notes, rules.relies note) → rules.Ends standing notes (action world)) := by
  obtain ⟨notes, noted⟩ := (obeys.grows world).exists_noted
  exact ⟨notes, noted, obeys.ends held noted⟩

theorem obeys_of_journal (journal : ∀ world, (final (action world)).journal = world.journal)
    (ends : ∀ world exit after, action world = .error exit after → rules.permits standing exit)
    (holds : ∀ world, rules.Holds world → rules.Holds (final (action world))) :
    action.Obeys rules standing where
  grows world := ⟨[], (journal world).symm⟩
  ends {world _} held noted _ := by
    rw [noted.eq [] (journal world)]
    exact ⟨ends world _ _, holds world held, forall_mem_nil _⟩

theorem obeys_of_endsPlainly (plainly : action.EndsPlainly)
    (journal : ∀ world, (final (action world)).journal = world.journal)
    (holds : ∀ world, rules.Holds world → rules.Holds (final (action world))) :
    action.Obeys rules standing := by
  refine obeys_of_journal journal (fun world exit after ended => rules.plain ?_) holds
  have ends := plainly world
  rwa [ended] at ends

theorem obeys_of_keepsCode (both : action.EndsPlainly ∧ action.Keeps CodeKept) :
    action.Obeys rules standing :=
  obeys_of_endsPlainly both.1 (fun world => (both.2 world).1) fun world => (both.2 world).2 rules

theorem obeys_plain (isPlain : action.IsPlain) : action.Obeys rules standing :=
  obeys_of_keepsCode ⟨isPlain.endsPlainly, keepsCode_plain isPlain⟩

theorem obeys_look (view : World → α) : (look view).Obeys rules standing :=
  obeys_of_keepsCode ⟨endsPlainly_look view, fun _ => ⟨rfl, fun _ held => held⟩⟩

theorem obeys_throw {exit : Exit} (permitted : rules.permits standing exit) :
    (throw exit : Run α).Obeys rules standing :=
  obeys_of_journal (fun _ => rfl) (by rintro _ _ _ ⟨⟩; exact permitted) fun _ held => held

/-- Runs in a row, where more is known of what the first one gives. -/
theorem obeys_bind_given {given : α → Prop} (head : action.Obeys rules standing)
    (gives : ∀ world value after, rules.Holds world → action world = .ok value after → given value)
    (grows : ∀ value, (next value).Keeps Grown)
    (tail : ∀ value, given value → (next value).Obeys rules standing) :
    (action >>= next).Obeys rules standing where
  grows := keeps_bind head.grows grows fun _ _ _ => List.IsSuffix.trans
  ends {world notes} held noted relied := by
    have begun := head.grows world
    have first {early : List Note} := @head.ends world early held
    cases ended : action world with
    | ok value after =>
      rw [bind_ok ended] at noted ⊢
      rw [ended] at begun first
      obtain ⟨later, earlier, late, early, rfl⟩ := noted.split begun (grows value after)
      obtain ⟨reliedLater, reliedEarlier⟩ := forall_mem_append.mp relied
      have between := first early reliedEarlier
      have rest := (tail value (gives world value after held ended)).ends between.holds late
        reliedLater
      exact ⟨rest.permitted, rest.holds, forall_mem_append.mpr ⟨rest.makes, between.makes⟩⟩
    | error exit after =>
      rw [bind_error ended] at noted ⊢
      rw [ended] at first
      obtain ⟨permitted, holds, makes⟩ := first noted relied
      exact ⟨by rintro _ _ ⟨⟩; exact permitted rfl, holds, makes⟩

theorem obeys_bind (head : action.Obeys rules standing)
    (tail : ∀ value, (next value).Obeys rules standing) : (action >>= next).Obeys rules standing :=
  obeys_bind_given head (fun _ _ _ _ _ => trivial) (fun value => (tail value).grows)
    fun value _ => tail value

/-- A note that is made, and what can rely on it. -/
theorem obeys_noted {note : Note} (other : ∀ cause, note ≠ .heldUp cause)
    (grows : ∀ world : World, let begun := { world with journal := note :: world.journal }
      Grown begun (final (action begun)))
    (tail : rules.relies note → action.Obeys rules standing) :
    (Run.note note >>= fun _ => action).Obeys rules standing where
  grows world := (suffix_cons note _).trans (grows world)
  ends {world _} held noted relied := by
    let begun : World := { world with journal := note :: world.journal }
    have start : Grown world begun := suffix_cons note _
    obtain ⟨later, earlier, late, early, rfl⟩ := noted.split start (grows world)
    rw [early.eq [note] rfl] at relied ⊢
    obtain ⟨reliedLater, first⟩ := forall_mem_append.mp relied
    have kept : rules.Holds begun := { held with }
    have rest := (tail (forall_mem_singleton.mp first)).ends kept late reliedLater
    exact ⟨rest.permitted, rest.holds, forall_mem_append.mpr
      ⟨rest.makes, forall_mem_singleton.mpr (rules.otherNotes other)⟩⟩

section

variable {holds : Prop} {called : Option String} {wrap : Run α → Run β}
  (handles : Handles holds called wrap) (own : ∀ name ∈ called, Builtin.ofName? name = none)

include handles own

/-- What holds up some ends of a run, where it stands somewhere else. -/
theorem obeys_handled (head : action.Obeys rules within)
    (passes : ∀ exit after, rules.permits within exit →
      wrap (throw exit) after = .error exit after → rules.permits standing exit) :
    (wrap action).Obeys rules standing where
  grows world := (head.grows world).trans (grown_handled handles action world)
  ends {world _} held noted relied := by
    obtain ⟨later, earlier, late, early, rfl⟩ :=
      noted.split (head.grows world) (grown_handled handles action world)
    have first := head.ends held early (forall_mem_append.mp relied).2
    cases ended : action world with
    | ok value after =>
      obtain ⟨_, made⟩ := handles.ok value
      rw [ended] at first late
      rw [made ended] at late ⊢
      rw [late.eq [] rfl]
      exact ⟨nofun, first.holds, first.makes⟩
    | error exit after =>
      obtain ⟨_, follows, goesOn⟩ := handles.error exit
      rw [ended] at first late
      rw [goesOn ended] at late ⊢
      have permitted := first.permitted rfl
      obtain ⟨functions, handlers, tasks⟩ := first.holds
      cases follows with
      | passed =>
        rw [late.eq [] rfl]
        refine ⟨?_, ⟨functions, handlers, tasks⟩, first.makes⟩
        rintro _ _ ⟨⟩
        exact passes exit after permitted (@goesOn (throw exit) after after rfl)
      | caught | stalled =>
        rw [late.eq [] rfl]
        exact ⟨nofun, ⟨functions, handlers, tasks⟩, first.makes⟩
      | renamed named =>
        rw [late.eq [] rfl]
        refine ⟨?_, ⟨functions, handlers, tasks⟩, first.makes⟩
        rintro _ _ ⟨⟩
        exact rules.unknown (own _ named)
      | @heldUp cause | @told cause =>
        rw [late.eq [.heldUp cause] rfl]
        exact ⟨nofun, ⟨functions, handlers, tasks⟩,
          forall_mem_cons.mpr ⟨rules.heldUp permitted, first.makes⟩⟩

theorem Obeys.handled (head : action.Obeys rules standing) : (wrap action).Obeys rules standing :=
  obeys_handled handles own head fun _ _ permitted _ => permitted

end

theorem Obeys.anywhere (head : action.Obeys rules .outside) : action.Obeys rules standing where
  grows := head.grows
  ends held noted relied :=
    have ended := head.ends held noted relied
    ⟨fun failed => rules.anywhere (ended.permitted failed), ended.holds, ended.makes⟩

theorem obeys_pass {body : Run Unit} (head : body.Obeys rules standing.looped) :
    (Loop.pass body).Obeys rules standing := by
  refine obeys_handled handles_pass (by rintro _ ⟨⟩) head fun exit after permitted passed => ?_
  refine rules.ofLoop permitted ?_ ?_ <;>
    · rintro rfl
      cases passed

/-- The body of a function gives back a value to the call. -/
theorem obeys_givenBack {body : Run Unit} (head : body.Obeys rules .inBody) :
    (givenBack body).Obeys rules standing := by
  refine obeys_handled handles_givenBack (by rintro _ ⟨⟩) head fun exit after permitted passed => ?_
  refine rules.ofBody permitted fun value given => ?_
  subst given
  cases passed

theorem obeys_inEdition (edition : Edition) (head : action.Obeys rules standing) :
    (inEdition edition action).Obeys rules standing where
  grows := grown_inEdition edition head.grows
  ends {world notes} held noted relied := by
    have inside {made : List Note} := @head.ends { world with edition } made
      { held with }
    rw [inEdition] at noted ⊢
    cases ended : action { world with edition } <;>
      · rw [ended] at inside noted
        obtain ⟨permitted, ⟨functions, handlers, tasks⟩, makes⟩ := inside noted relied
        refine ⟨?_, ⟨functions, handlers, tasks⟩, makes⟩
        rintro _ _ ⟨⟩
        try exact permitted rfl

theorem obeys_inScope {scope : Scope Value Routine} (functions : ∀ entry ∈ scope.functions,
    ∀ inner ∈ entry.2.block.body, rules.accepts .inBody inner)
    (head : action.Obeys rules standing) : (inScope scope action).Obeys rules standing where
  grows := grown_inScope scope head.grows
  ends {world notes} held noted relied := by
    rw [Noted, final_inScope, journal_leave] at noted
    obtain ⟨permitted, holds, makes⟩ := head.ends (held.enter functions) noted relied
    refine ⟨fun {exit after} failed => ?_, ?_, makes⟩
    · obtain ⟨left, ended, -⟩ := error_of_inScope failed
      exact permitted ended
    · rw [final_inScope]
      exact holds.leave

/-- A call that reaches into the run, where it can be relied on that none does. -/
theorem obeys_inward (inward : Inward) : (inward.result settings).Obeys rules standing := by
  refine obeys_noted (by rintro _ ⟨⟩) (fun world => ?_) fun relied => ?_
  · obtain ⟨reach, same⟩ := inward.exists_final_result settings world
    show Grown _ (final (inward.result settings world))
    rw [same]
    exact suffix_append _ _
  obtain ⟨breaks, misfit⟩ := @rules.inward standing relied
  cases inward with
  | debugging | granted => exact obeys_plain (isPlain_pure _)
  | ownTime =>
    refine obeys_bind (obeys_look World.scheduler) fun found => ?_
    cases found with
    | some scheduler => exact obeys_plain (isPlain_pure _)
    | none => exact obeys_throw (rules.plain rfl)
  | line => exact obeys_of_keepsCode ⟨fun _ => rfl, fun _ => .of_same ⟨rfl, rfl, rfl, rfl⟩⟩
  | forget name =>
    refine obeys_of_keepsCode ⟨fun world => ?_, fun world => ?_⟩ <;>
      obtain ⟨_, same⟩ | ⟨caller, others, around, same⟩ := Inward.forget_eq settings name world <;>
      rw [same]
    · rfl
    · rfl
    · exact ⟨rfl, fun _ held => held⟩
    · refine ⟨rfl, fun rules held => ⟨?_, held.handlers, held.tasks⟩⟩
      have functions := held.functions
      rw [World.scopes, around] at functions
      obtain ⟨here, outer⟩ := forall_mem_cons.mp functions
      exact forall_mem_cons.mpr ⟨here, forall_mem_cons.mpr (forall_mem_cons.mp outer)⟩
  | misfit =>
    exact obeys_bind (.handled (handles_reporting settings ()) (by rintro _ ⟨⟩)
      (obeys_throw misfit)) fun _ => obeys_plain (isPlain_pure _)
  | breakLoop =>
    show (if settings.debug = true then _ else _ : Run Value).Obeys rules standing
    split
    · exact obeys_throw breaks
    · exact obeys_throw (rules.plain rfl)

/-! ### What is kept -/

theorem obeys_define (name : String) (parameters : List String)
    (accepted : ∀ inner ∈ body, rules.accepts .inBody inner) :
    (define name parameters body).Obeys rules standing := by
  refine obeys_of_journal (fun _ => rfl) (by rintro _ _ _ ⟨⟩) fun world held => ?_
  obtain ⟨here, around⟩ := forall_mem_cons.mp held.functions
  refine ⟨forall_mem_cons.mpr ⟨fun entry listed => ?_, around⟩, held.handlers, held.tasks⟩
  rcases Table.mem_insert listed with old | new
  · exact here entry old
  · rw [new]
    exact accepted

section

variable (accepted : ∀ inner ∈ body, rules.accepts .outside inner)

include accepted

/-- A block that is kept without a note or an end of its own. -/
theorem obeys_keep_bind {next : Block → Run α} (plainly : ∀ block, (next block).EndsPlainly)
    (journal : ∀ block world, (final (next block world)).journal = world.journal)
    (holds : ∀ block : Block, rules.keeps block.body → ∀ world, rules.Holds world →
      rules.Holds (final (next block world))) : (keep body >>= next).Obeys rules standing := by
  refine obeys_bind_given (obeys_look fun world => Block.mk world.edition body) ?_
    (fun block world => ⟨[], (journal block world).symm⟩) fun block (kept : rules.keeps block.body) =>
      obeys_of_endsPlainly (plainly block) (journal block) (holds block kept)
  rintro world block after _ ⟨⟩
  exact rules.waits accepted

theorem obeys_register (registration : Registration) (told : String) :
    (register registration body told).Obeys rules standing := by
  refine obeys_keep_bind accepted (fun _ => endsPlainly_schedule _ told)
    (fun block world => ?_) fun block kept world held => ?_
  all_goals
    rw [schedule]
    split
  · rfl
  · rfl
  · rename_i scheduler present
    exact held.withScheduler ((held.tasks scheduler present).add registration kept world.reading)
  · exact (keepsCode_plain (isPlain_writeLine told) world).2 rules held

theorem obeys_registerByCalendar (schedule : String) :
    (registerByCalendar schedule body).Obeys rules standing := by
  refine obeys_keep_bind accepted (endsPlainly_scheduleByCalendar schedule)
    (fun block world => ?_) fun block kept world held => ?_
  all_goals
    rw [scheduleByCalendar]
    split
  · rfl
  · split <;> rfl
  · exact (keepsCode_plain (isPlain_writeLine _) world).2 rules held
  · rename_i scheduler present
    split
    · rename_i changed added
      exact held.withScheduler ((held.tasks scheduler present).addScheduled kept added)
    · exact held

theorem obeys_registerForClicks (canvas : Value) :
    (registerForClicks canvas body).Obeys rules standing := by
  refine obeys_keep_bind accepted (endsPlainly_keepForClicks canvas)
    (fun block world => ?_) fun block kept world held => ?_
  all_goals
    rw [keepForClicks]
    split
  · rfl
  · rfl
  · rename_i handlers present
    refine ⟨held.functions, fun other same => ?_, held.tasks⟩
    rw [← Option.some.inj same]
    exact forall_mem_append.mpr
      ⟨held.handlers handlers present, forall_mem_singleton.mpr kept⟩
  · exact (keepsCode_plain (isPlain_writeLine _) world).2 rules held

end

/-! ### What is found -/

theorem obeys_newEdition : newEdition.Obeys rules standing :=
  obeys_of_keepsCode ⟨fun _ => rfl, fun _ => .of_same ⟨rfl, rfl, rfl, rfl⟩⟩

theorem obeys_routine (name : String) : (routine name).Obeys rules standing := by
  refine obeys_bind (obeys_look _) fun found => ?_
  cases found with
  | some routine => exact obeys_plain (isPlain_pure routine)
  | none => exact obeys_throw (rules.plain rfl)

theorem obeys_openScope (handing : Handing) : (openScope handing).Obeys rules standing := by
  cases handing with
  | copies =>
    refine obeys_bind (obeys_look _) fun captures => ?_
    cases captures with
    | true =>
      have failed : (fail (.wrongType .uncopyable) : Run (Scope Value Routine)).Obeys rules
          standing := obeys_throw (rules.plain rfl)
      exact obeys_noted (by rintro _ ⟨⟩) (fun _ => failed.grows _) fun _ => failed
    | false => exact obeys_bind obeys_newEdition fun number => obeys_look _
  | nothing => exact obeys_bind obeys_newEdition fun number => obeys_plain (isPlain_pure _)

theorem final_program (source : String) (world : World) : final (program source world) = world := by
  cases ended : program source world with
  | ok program after =>
    rw [program_eq_pure (program?_of_program ended)] at ended
    cases ended
    rfl
  | error exit after => exact (exit_of_program ended).1

variable {name : String} {function : Routine} {handing : Handing} {scope : Scope Value Routine}

theorem exists_of_function? {scopes : List (Scope Value Routine)}
    (found : Scope.function? scopes name = some function) :
    ∃ scope ∈ scopes, (name, function) ∈ scope.functions := by
  induction scopes with
  | nil => cases found
  | cons scope around ih =>
    unfold Scope.function? at found
    split at found
    · rename_i here
      cases found
      exact ⟨scope, mem_cons_self, Table.mem_of_get? here⟩
    · obtain ⟨other, member, listed⟩ := ih found
      exact ⟨other, mem_cons_of_mem _ member, listed⟩

theorem exists_of_routine (found : routine name world = .ok function after) :
    ∃ scope ∈ world.scopes, (name, function) ∈ scope.functions := by
  rw [routine, look_bind] at found
  cases known : Scope.function? world.scopes name with
  | none =>
    rw [known] at found
    cases found
  | some routine =>
    rw [known] at found
    cases found
    exact exists_of_function? known

/-- The functions of the scope that a call opens have the bodies of functions that the world knows
in its innermost scope. -/
theorem exists_of_openScope {entry : String × Routine}
    (opened : openScope handing world = .ok scope after) (listed : entry ∈ scope.functions) :
    ∃ known ∈ world.scope.functions, entry.2.block.body = known.2.block.body := by
  cases handing with
  | copies =>
    rw [openScope, look_bind] at opened
    generalize world.capturesLibrary = result at opened ⊢
    cases result with
    | true => cases opened
    | false =>
      cases opened
      obtain ⟨function, known, rfl⟩ := mem_map.mp listed
      exact ⟨function, known, rfl⟩
  | nothing =>
    cases opened
    cases listed

end Run

/-- Apart from definitions, calls, packages and blocks that are kept, a meaning obeys if its parts
do. -/
theorem localCongruence_obeys (rules : Discipline settings) (standing : Standing) :
    LocalCongruence (fun _ action _ => action.Obeys rules standing) settings settings := by
  have outside {α : Type} {action : Run α} (plainly : action.EndsPlainly)
      (same : action.Keeps World.SameInside) : action.Obeys rules standing :=
    obeys_of_keepsCode ⟨plainly, fun world => .of_same (same world)⟩
  exact {
    plain := obeys_plain
    bind := obeys_bind
    checked activity one other inside := related_checked
      (fun _ action _ => action.Obeys rules standing) rfl activity one other inside
      (obeys_plain (isPlain_report rfl))
    failOutside fits := obeys_plain (isPlain_failOutside settings fits _)
    foreignResult name values _ := obeys_plain (isPlain_foreignResult settings name values)
    inward reach _ := obeys_inward reach
    readLine := outside (fun _ => rfl) fun _ => ⟨rfl, rfl, rfl, rfl⟩
    replies _ := obeys_look _
    exchange request _ := by
      refine outside (fun world => ?_) fun world => ?_ <;> rw [exchange] <;> split
      · rfl
      · rfl
      · exact ⟨rfl, rfl, rfl, rfl⟩
      · exact ⟨rfl, rfl, rfl, rfl⟩
    files _ _ := obeys_look _
    setFiles _ _ := outside (fun _ => rfl) fun _ => ⟨rfl, rfl, rfl, rfl⟩
    changingFiles _ := by
      refine outside (fun world => ?_) fun world => ?_ <;> rw [changingFiles] <;> split
      · rfl
      · rename_i cause _ _
        exact cause.isPlain_fault
      · exact ⟨rfl, rfl, rfl, rfl⟩
      · exact ⟨rfl, rfl, rfl, rfl⟩
    find name _ := obeys_bind (obeys_look _) fun files =>
      obeys_plain (isPlain_ofExcept (Package.find files _ name))
    packages := obeys_look _
    registry _ := obeys_look _
    noteLoaded _ _ _ := outside (fun _ => rfl) fun _ => ⟨rfl, rfl, rfl, rfl⟩
    passTime span _ := obeys_of_keepsCode ⟨endsPlainly_modify _, keepsCode_passTime span⟩
    stopJob name := obeys_of_keepsCode ⟨endsPlainly_schedule _ _, keepsCode_stopJob name⟩
    hasScreen := obeys_look _
    incoming _ := obeys_look _
    noteServer _ _ := outside (fun _ => rfl) fun _ => ⟨rfl, rfl, rfl, rfl⟩
    noteAnswer _ _ := outside (fun _ => rfl) fun _ => ⟨rfl, rfl, rfl, rfl⟩ }

/-! ### Engines -/

/-- Whether an engine runs what a discipline accepts in ways that obey, and lets the journal
grow. -/
structure Engine.Obeys (rules : Discipline settings) (engine : Engine) : Prop where
  evaluate {expression : Expr} : rules.knows expression →
    (engine.evaluate expression).Obeys rules .outside
  execute {standing : Standing} {statement : Stmt} : rules.accepts standing statement →
    (engine.execute statement).Obeys rules standing
  grows : Engine.Related (fun _ action _ => action.Keeps Grown) engine engine

namespace Engine.Obeys

variable {engine : Engine} {standing : Standing} (held : engine.Obeys rules)

include held

theorem executeAll {body : List Stmt} (accepted : ∀ inner ∈ body, rules.accepts standing inner) :
    (engine.executeAll body).Obeys rules standing :=
  @LocalCongruence.executeAll _ _ _ engine engine (localCongruence_obeys rules standing) body
    fun statement member => held.execute (accepted statement member)

theorem runBlock {block : Block} (accepted : ∀ inner ∈ block.body, rules.accepts standing inner) :
    (engine.runBlock block).Obeys rules standing :=
  obeys_inEdition _ (held.executeAll accepted)

theorem runProgram {program : List Stmt}
    (accepted : ∀ statement ∈ program, rules.accepts .outside statement) :
    (engine.runProgram program).Obeys rules .outside :=
  @LocalCongruence.runProgram_of_blocks _ _ _ engine engine (localCongruence_obeys rules .outside) _
    obeys_newEdition fun statement member _ =>
      held.runBlock (rules.placed (accepted statement member))

theorem runSource {source : String}
    (admitted : Admits (rules.accepts .outside) (rules.permits .outside) source) :
    (engine.runSource source).Obeys rules .outside := by
  have growth := (preserved_grown settings).congruence
  have reading : (program source).Obeys rules .outside := by
    refine obeys_of_journal (fun world => ?_) (fun _ _ _ => admitted.2) fun world held => ?_
    all_goals rw [final_program]
    exact held
  refine obeys_bind_given reading (fun _ program _ _ read => ?_)
    (fun program => growth.calls.runProgram held.grows program)
    fun _ accepted => held.runProgram accepted
  exact admitted.1 program (program?_of_program read)

theorem callRoutine {name : String} (own : Builtin.ofName? name = none) {arguments : List Expr}
    (known : ∀ argument ∈ arguments, rules.knows argument) :
    (engine.callRoutine name arguments).Obeys rules standing := by
  have grown := preserved_grown settings
  have grownBody (scope : Scope Value Routine) (function : Routine) : (inScope scope
      (givenBack (engine.runBlock function.block))).Keeps Grown :=
    grown_inScope scope (keeps_of_final (grown.congruence.runBlock held.grows function.block)
      (final_handled handles_givenBack))
  have evaluated : (engine.evaluateAll arguments).Obeys rules standing :=
    @ExpressionCongruence.evaluateAll _ _ _ engine engine
      (localCongruence_obeys rules standing).toExpressionCongruence arguments
      fun argument member => (held.evaluate (known argument member)).anywhere
  refine .handled (handles_namingFunction name) (fun _ named => Option.some.inj named ▸ own) ?_
  -- the function that is found obeys, because the world does
  have found (world : World) (function : Routine) (after : World) (holds : rules.Holds world)
      (found : routine name world = .ok function after) :
      ∀ inner ∈ function.block.body, rules.accepts .inBody inner := by
    obtain ⟨scope, member, listed⟩ := exists_of_routine found
    exact holds.functions scope member _ listed
  have opened (world : World) (scope : Scope Value Routine) (after : World)
      (holds : rules.Holds world) (opened : openScope engine.handing world = .ok scope after) :
      ∀ entry ∈ scope.functions, ∀ inner ∈ entry.2.block.body, rules.accepts .inBody inner := by
    intro entry listed
    obtain ⟨known, there, same⟩ := exists_of_openScope opened listed
    rw [same]
    exact holds.functions world.scope mem_cons_self known there
  refine obeys_bind_given (obeys_routine name) found (fun function => ?_) fun function accepted => ?_
  · refine grown.keeps_bind evaluated.grows fun values => ?_
    exact grown.keeps_bind (grown_openScope engine.handing) fun scope => grownBody _ function
  refine obeys_bind evaluated fun values => ?_
  refine obeys_bind_given (obeys_openScope engine.handing) opened
    (fun scope => grownBody _ function) fun scope functions => ?_
  refine obeys_inScope ?_ (obeys_givenBack (held.runBlock accepted))
  rw [(Scope.bind_same _ _ _).1]
  exact functions

theorem parts :
    Engine.Parts (fun _ action _ => action.Obeys rules standing) settings rules.knows engine
      engine where
  rounds := .refl _
  evaluate known := (held.evaluate known).anywhere
  callRoutine own known := held.callRoutine own known
  runPackage source allowed := obeys_noted (by rintro _ ⟨⟩)
    (fun _ => (preserved_grown settings).congruence.runSource held.grows source _)
    fun relied => (held.runSource (rules.package allowed relied)).anywhere

theorem inside {statement : Stmt} (accepted : rules.accepts standing statement) :
    Engine.Inside (fun _ action _ => action.Obeys rules standing) settings settings engine engine
      statement := by
  obtain ⟨parts, -, blocks⟩ := rules.inside accepted
  cases statement with
  | branch _ yes no =>
    obtain ⟨first, second⟩ := forall_mem_cons.mp blocks
    refine ⟨held.executeAll first, held.executeAll ?_⟩
    cases no with
    | none => exact forall_mem_nil _
    | some body => exact second body (mem_singleton_self body)
  | repeatForever body | repeatTimes _ body | repeatUntil _ body | doUntil body _ =>
    exact obeys_pass (held.executeAll (forall_mem_singleton.mp blocks))
  | breakLoop => exact obeys_throw (rules.breaks accepted)
  | continueLoop => exact obeys_throw (rules.continues accepted)
  | giveBack _ => exact fun _ => obeys_throw (rules.gives accepted)
  | define name parameters body =>
    exact obeys_define name parameters (forall_mem_singleton.mp blocks)
  | choose _ cases =>
    exact fun case member => held.executeAll (blocks case.body (mem_map_of_mem member))
  | server port routes =>
    have law := localCongruence_obeys rules standing
    refine law.server held.parts parts routes fun allowed number => ?_
    have answering : ∀ route ∈ routes,
        (answered (engine.executeAll route.body)).Obeys rules standing := fun route member =>
      .handled handles_answered (by rintro _ ⟨⟩)
        (held.executeAll (blocks route.body (mem_map_of_mem member))).anywhere
    exact @LocalCongruence.startServer _ _ _ engine engine law _ answering allowed number
  | whenMouseClicks _ body =>
    exact fun _ canvas => obeys_registerForClicks (forall_mem_singleton.mp blocks) canvas
  | cron schedule body =>
    exact fun _ => obeys_registerByCalendar (forall_mem_singleton.mp blocks) schedule
  | after _ _ body | every _ body | job _ _ body =>
    exact fun _ _ _ => obeys_register (forall_mem_singleton.mp blocks) _ _
  | _ => trivial

end Engine.Obeys

/-- What a discipline accepts is run in ways that obey, down to any depth. -/
theorem obeys_ofDepth (rules : Discipline settings) (depth : Nat) :
    (ofDepth settings depth).Obeys rules := by
  have growth := (preserved_grown settings).congruence
  induction depth with
  | zero =>
    exact ⟨fun _ => obeys_throw (rules.plain rfl), fun _ => obeys_throw (rules.plain rfl),
      growth.ofDepth 0⟩
  | succ depth ih =>
    refine ⟨fun {expression} known => ?_, fun {standing statement} accepted => ?_,
      growth.ofDepth (depth + 1)⟩
    · obtain ⟨inner, misfits⟩ := rules.parts known
      show (evaluate settings (depth + 1) expression).Obeys rules .outside
      rw [evaluate]
      exact .handled (handles_reporting settings _) (by rintro _ ⟨⟩)
        ((localCongruence_obeys rules .outside).valueOf ih.parts inner
          fun cause member => obeys_throw (misfits cause member))
    · obtain ⟨inner, misfits, _⟩ := rules.inside accepted
      show (execute settings (depth + 1) statement).Obeys rules standing
      rw [execute]
      exact .handled (handles_reporting settings _) (by rintro _ ⟨⟩)
        ((localCongruence_obeys rules standing).carryOut ih.parts inner
          (fun cause member => obeys_throw (misfits cause member)) (ih.inside accepted))

end Parlance
