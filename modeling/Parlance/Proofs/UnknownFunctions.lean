import Parlance.Proofs.Disciplines
import Parlance.Proofs.Handing
import Parlance.Proofs.Outcomes

/-!
Reports of unknown functions. No run reports a function that every program has. The call of any
other function reports it if it is unknown, and also if a name without a meaning ends the evaluation
of its arguments or its body.
-/

namespace Parlance

open Run

variable {α β : Type}

/-! ### Functions that every program has -/

def Exit.SparesBuiltins (exit : Exit) : Prop :=
  ∀ name, exit = .fault (.report (.undefinedFunction name)) → Builtin.ofName? name = none

/-- No run ends with a report about a function that every program has. -/
def sparingBuiltins (settings : Settings) : Discipline settings :=
  .ofExits Exit.SparesBuiltins (fun _ => True) (by rintro _ isPlain _ rfl; cases isPlain)
    (by rintro _ _ ⟨⟩)
    (by rintro _ isMisfit _ ⟨⟩; cases isMisfit) (by rintro _ own _ ⟨⟩; exact own)
    fun _ _ failed => by
      obtain ⟨_, rfl | ⟨_, rfl⟩ | ⟨_, rfl, _⟩⟩ := Run.exit_of_program failed <;> rintro _ ⟨⟩

/-- A call does not report a function that every program has. -/
theorem sparesBuiltins_call (settings : Settings) (depth : Nat) (name : String)
    (arguments : List Expr) : ((Engine.ofDepth settings depth).call name arguments).EndsOnly
      fun exit _ => exit.SparesBuiltins := by
  have law := localCongruence_obeys (sparingBuiltins settings) .outside
  have parts := @Engine.Obeys.parts _ _ _ .outside (obeys_ofDepth (sparingBuiltins settings) depth)
  have obeys := @ExpressionCongruence.call _ _ _ _ (Engine.ofDepth settings depth)
    (Engine.ofDepth settings depth) law.toExpressionCongruence parts.toExpressionParts name
    arguments (fun _ _ => trivial) (law.reaches_call parts fun _ _ => trivial)
  intro world exit after ended
  have held : (sparingBuiltins settings).Holds world :=
    Discipline.holds_of_forall (fun _ => trivial) fun _ => trivial
  obtain ⟨notes, _, ends⟩ := obeys.exists_ends held
  exact (ends fun _ _ => trivial).permitted ended

/-! ### Functions that are known -/

namespace Run

variable {world after : World} {exit : Exit} {name : String} {action : Run α}

/-- A scope can fail to be opened in one way only. -/
theorem exit_of_openScope {handing : Handing}
    (refused : Engine.openScope handing world = .error exit after) :
    exit = .fault (.wrongType .uncopyable) := by
  cases handing with
  | copies =>
    cases captures : world.capturesLibrary with
    | true =>
      rw [openScope_refused captures] at refused
      cases refused
      rfl
    | false =>
      rw [openScope_copies captures] at refused
      cases refused
  | nothing => cases refused

theorem givenBack_eq_error_iff {body : Run Unit} : givenBack body world = .error exit after ↔
      body world = .error exit after ∧ ∀ value, exit ≠ .signal (.giveBack value) := by
  constructor
  · intro ended
    rcases error_of_handled handles_givenBack ended with begun | ⟨_, ⟨⟩, _⟩
    refine ⟨begun, ?_⟩
    rintro value rfl
    rw [givenBack, begun] at ended
    cases ended
  · rintro ⟨ended, notGiven⟩
    rw [givenBack, ended]
    split
    · rename_i given
      cases given
    · rename_i value _ given
      cases given
      exact absurd rfl (notGiven value)
    · rename_i same
      cases same
      rfl

/-- A run that a call names ends in a report of that name if it ends so by itself, or with a name
without a meaning. -/
theorem namingFunction_eq_report_iff :
    namingFunction name action world = .error (.fault (.report (.undefinedFunction name))) after ↔
      (∃ cause, action world = .error (.fault (.unbound cause)) after) ∨
        action world = .error (.fault (.report (.undefinedFunction name))) after := by
  rw [namingFunction]
  split
  · rename_i cause left ended
    rw [ended]
    constructor
    · rintro ⟨⟩
      exact .inl ⟨cause, rfl⟩
    · rintro (⟨_, ⟨⟩⟩ | ⟨⟨⟩⟩)
      rfl
  · rename_i others
    exact ⟨.inr, fun ended => ended.elim (fun found => absurd found.choose_spec (others _ _)) id⟩

theorem namingFunction_of_other (ended : action world = .error exit after)
    (other : ∀ cause, exit ≠ .fault (.unbound cause)) :
    namingFunction name action world = .error exit after := by
  rw [namingFunction]
  split
  · rename_i cause left same
    cases ended.symm.trans same
    exact absurd rfl (other cause)
  · exact ended

end Run

namespace Engine

variable (engine : Engine) (function : Routine) (arguments : List Expr) {name : String}
  {world after : World} {exit : Exit}

/-- What a call does with the function that it has found. -/
def application : Run Value := do
  let values ← engine.evaluateAll arguments
  let scope ← openScope engine.handing
  Run.inScope (scope.bind function.parameters values)
    (Run.givenBack (engine.runBlock function.block))

/-- How a call of a function that has been found ends without a result: as the evaluation of its
arguments does, or because its scope cannot be opened, or as its body does, unless that gives back a
value. -/
inductive Breaks (world : World) : Exit → World → Prop
  | inArguments {exit : Exit} {after : World} :
      engine.evaluateAll arguments world = .error exit after → Breaks world exit after
  | inOpening {values : List Value} {between after : World} {exit : Exit} :
      engine.evaluateAll arguments world = .ok values between →
        openScope engine.handing between = .error exit after → Breaks world exit after
  | inBody {values : List Value} {scope : Scope Value Routine} {between opened left : World}
      {exit : Exit} : engine.evaluateAll arguments world = .ok values between →
        openScope engine.handing between = .ok scope opened →
          engine.runBlock function.block
            (opened.enter (scope.bind function.parameters values)) = .error exit left →
            (∀ value, exit ≠ .signal (.giveBack value)) → Breaks world exit left.leave

theorem application_eq_error_iff : engine.application function arguments world = .error exit after ↔
    engine.Breaks function arguments world exit after := by
  constructor
  · intro ended
    rw [application] at ended
    cases given : engine.evaluateAll arguments world with
    | error =>
      rw [bind_error given] at ended
      cases ended
      exact .inArguments given
    | ok values between =>
      rw [bind_ok given] at ended
      cases began : openScope engine.handing between with
      | error =>
        rw [bind_error began] at ended
        cases ended
        exact .inOpening given began
      | ok scope opened =>
        rw [bind_ok began] at ended
        obtain ⟨left, inside, rfl⟩ := error_of_inScope ended
        obtain ⟨inside, notGiven⟩ := givenBack_eq_error_iff.mp inside
        exact .inBody given began inside notGiven
  · rintro (given | ⟨given, began⟩ | ⟨given, began, ended, notGiven⟩)
    · exact bind_error given
    · rw [application, bind_ok given, bind_error began]
    · rw [application, bind_ok given, bind_ok began, Run.inScope,
        givenBack_eq_error_iff.mpr ⟨ended, notGiven⟩]

theorem call_known (own : Builtin.ofName? name = none)
    (known : Scope.function? world.scopes name = some function) :
    engine.call name arguments world =
      Run.namingFunction name (engine.application function arguments) world := by
  rw [call, own]
  show Run.namingFunction name (routine name >>= _) world = _
  rw [Run.namingFunction, Run.namingFunction, routine_bind_some known]
  rfl

theorem call_unknown (own : Builtin.ofName? name = none)
    (unknown : Scope.function? world.scopes name = none) : engine.call name arguments world =
      .error (.fault (.report (.undefinedFunction name))) world := by
  rw [call, own]
  show Run.namingFunction name (routine name >>= _) world = _
  rw [Run.namingFunction, routine_bind_none unknown]

end Engine

/-- Whether a call of that name takes the exit, which has come out of the arguments or the body, for
a sign that the function is unknown, or lets it through as just such a report. Reports come out of
expressions and statements while debugging only. -/
def Exit.IsTakenForUnknown (settings : Settings) (name : String) (exit : Exit) : Prop :=
  (∃ cause, exit = .fault (.unbound cause)) ∨
    settings.debug = true ∧ exit = .fault (.report (.undefinedFunction name))

/-- Outside debugging no report comes out of the arguments or the body of a function. -/
theorem Engine.Breaks.debug_of_report {settings : Settings} {depth : Nat} {function : Routine}
    {arguments : List Expr} {world after : World} {cause : Report}
    (breaks : (Engine.ofDepth settings depth).Breaks function arguments world
      (.fault (.report cause)) after) : settings.debug = true := by
  cases breaks with
  | inArguments given => exact endsOnly_evaluateAll settings depth arguments _ _ _ given cause rfl
  | inOpening _ began => cases exit_of_openScope began
  | inBody _ _ ended =>
    obtain ⟨left, inside, -⟩ := error_of_inEdition ended
    exact endsOnly_executeAll settings depth function.block.body _ _ _ inside cause rfl

/-- A call reports its function as unknown if and only if no function of every program and none of
the scopes has that name, or a function of the scopes has it and its arguments or its body end with
a name without a meaning, or, while debugging, with just such a report. What else comes out of the
arguments or the body of a known function comes out of the call as it is. A report of the call is
raised while debugging, and otherwise written as one line in place of the result, for calls that are
expressions as for calls that are statements. -/
theorem function_is_reported_unknown_iff (settings : Settings) (depth : Nat) (name : String)
    (arguments : List Expr) (world after : World) :
    let engine := Engine.ofDepth settings depth
    let reported : Exit := .fault (.report (.undefinedFunction name))
    (engine.call name arguments world = .error reported after ↔
      Builtin.ofName? name = none ∧
        (Scope.function? world.scopes name = none ∧ after = world ∨
          ∃ function exit, Scope.function? world.scopes name = some function ∧
            engine.Breaks function arguments world exit after ∧
            exit.IsTakenForUnknown settings name)) ∧
    (∀ function exit, Builtin.ofName? name = none →
      Scope.function? world.scopes name = some function →
        engine.Breaks function arguments world exit after →
          (∀ cause, exit ≠ .fault (.unbound cause)) →
            engine.call name arguments world = .error exit after) ∧
    (engine.call name arguments world = .error reported after →
      let told := (after.holdUp (.report (.undefinedFunction name))).write .output
        ("Function '" ++ name ++ "' not defined" ++ "\n")
      evaluate settings (depth + 1) (.call name arguments) world =
          (if settings.debug then .error reported after else .ok .nothing told) ∧
        execute settings (depth + 1) (.call name arguments) world =
          if settings.debug then .error reported after else .ok () told) := by
  intro engine reported
  refine ⟨⟨fun ended => ?_, ?_⟩, fun function exit own known breaks other => ?_, fun ended => ?_⟩
  · have own := sparesBuiltins_call settings depth name arguments world _ after ended name rfl
    refine ⟨own, ?_⟩
    cases known : Scope.function? world.scopes name with
    | none =>
      rw [engine.call_unknown arguments own known] at ended
      cases ended
      exact .inl ⟨rfl, rfl⟩
    | some function =>
      rw [engine.call_known function arguments own known, namingFunction_eq_report_iff] at ended
      rcases ended with ⟨cause, ended⟩ | ended
      · have breaks := (engine.application_eq_error_iff function arguments).mp ended
        exact .inr ⟨function, _, rfl, breaks, .inl ⟨cause, rfl⟩⟩
      · have breaks := (engine.application_eq_error_iff function arguments).mp ended
        exact .inr ⟨function, _, rfl, breaks, .inr ⟨breaks.debug_of_report, rfl⟩⟩
  · rintro ⟨own, ⟨unknown, rfl⟩ | ⟨function, exit, known, breaks, taken⟩⟩
    · exact engine.call_unknown arguments own unknown
    · have ended := (engine.application_eq_error_iff function arguments).mpr breaks
      rw [engine.call_known function arguments own known, namingFunction_eq_report_iff]
      rcases taken with ⟨cause, rfl⟩ | ⟨-, rfl⟩
      · exact .inl ⟨cause, ended⟩
      · exact .inr ended
  · rw [engine.call_known function arguments own known]
    exact namingFunction_of_other
      ((engine.application_eq_error_iff function arguments).mpr breaks) other
  · have carried : engine.carryOut settings (.call name arguments) world =
        .error reported after := bind_error ended
    rw [evaluate, execute]
    exact ⟨reporting_of_report settings .nothing ended, reporting_of_report settings () carried⟩

/-- A known function can be reported as unknown: its body reads a name without a meaning. -/
theorem known_function_is_reported_unknown :
    let settings : Settings := { permissions := ⟨fun _ => false⟩ }
    let world : World := Beginning.world { files := .bare }
    let defined := Run.final (execute settings 9 (.define "f" [] [.say [.identifier "y"]]) world)
    let called := execute settings 9 (.call "f" []) defined
    Builtin.ofName? "f" = none ∧ (Scope.function? defined.scopes "f").isSome = true ∧
      (Run.final called).transcript = "Function 'f' not defined\n" := by
  decide +kernel

end Parlance
