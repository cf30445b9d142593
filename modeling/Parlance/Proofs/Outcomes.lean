import Parlance.Proofs.Depths

/-!
What runs come to. Unless its steps are used up, a greater depth changes nothing about a run, so it
comes to at most one result.
-/

namespace Parlance

variable {α β : Type}

/-! ### What runs come to -/

namespace Run

/-- Whether a run that is made down to a depth comes to a result, if the depth is great enough. -/
def Comes (run : Nat → Run α) (world : World) (result : EStateM.Result Exit World α) : Prop :=
  ∃ depth, run depth world = result ∧ isExhausted result = false

/-- Whether two runs, each from its own world, come to the same. -/
def ComeToSame (one : Nat → Run α) (world : World) (other : Nat → Run α) (beside : World) : Prop :=
  ∀ result, Comes one world result ↔ Comes other beside result

/-- Whether a run that has come to a result comes to it down to every greater depth. -/
def IsSteady (run : Nat → Run α) : Prop := ∀ ⦃few many⦄, few ≤ many → (run few).Settles (run many)

namespace Comes

variable {run other : Nat → Run α} {world : World} {result : EStateM.Result Exit World α}

theorem unique {second : EStateM.Result Exit World α} (steady : IsSteady run)
    (comes : Comes run world result) (comesToo : Comes run world second) : result = second := by
  obtain ⟨few, rfl, enough⟩ := comes
  obtain ⟨many, rfl, enoughToo⟩ := comesToo
  rcases Nat.le_total few many with fewer | more
  · exact (steady fewer world enough).symm
  · exact steady more world enoughToo

theorem exists_depth (steady : IsSteady run) (comes : Comes run world result) :
    ∃ depth, ∀ greater, depth ≤ greater → run greater world = result := by
  obtain ⟨depth, rfl, enough⟩ := comes
  exact ⟨depth, fun _ deeper => steady deeper world enough⟩

/-- A run comes to what another one comes to, if each depth of that one is matched by some depth. -/
theorem settled (comes : Comes run world result)
    (settles : ∀ depth, ∃ greater, (run depth).Settles (other greater)) :
    Comes other world result := by
  obtain ⟨depth, rfl, enough⟩ := comes
  obtain ⟨greater, same⟩ := settles depth
  exact ⟨greater, same world enough, enough⟩

end Comes

theorem comeToSame_of_settles {one other : Nat → Run α} (world : World)
    (forth : ∀ depth, ∃ greater, (one depth).Settles (other greater))
    (back : ∀ depth, ∃ greater, (other depth).Settles (one greater)) :
    ComeToSame one world other world :=
  fun _ => ⟨fun comes => comes.settled forth, fun comes => comes.settled back⟩

namespace ComeToSame

variable {one other third : Nat → Run α} {world beside between : World}

theorem symm (same : ComeToSame one world other beside) : ComeToSame other beside one world :=
  fun result => (same result).symm

theorem trans (same : ComeToSame one world other beside)
    (sameToo : ComeToSame other beside third between) : ComeToSame one world third between :=
  fun result => (same result).trans (sameToo result)

end ComeToSame

variable {action : Run α} {world : World} {settings : Settings}

section

variable {run : Nat → Run α} {next : Nat → α → Run β} {world after : World}

theorem exists_comes_of_bind {result : EStateM.Result Exit World β}
    (comes : Comes (fun depth => run depth >>= next depth) world result) :
    ∃ first, Comes run world first := by
  obtain ⟨depth, rfl, enough⟩ := comes
  exact ⟨run depth world, depth, rfl, isExhausted_of_bind enough⟩

/-- A run followed by another one comes to what the second one comes to from where the first one
has ended. -/
theorem comeToSame_bind (head : IsSteady run)
    (tail : ∀ value, IsSteady fun depth => next depth value) {value : α}
    (comes : Comes run world (.ok value after)) :
    ComeToSame (fun depth => run depth >>= next depth) world (fun depth => next depth value)
      after := by
  intro result
  constructor
  · rintro ⟨depth, rfl, enough⟩
    have here : run depth world = .ok value after :=
      Comes.unique head ⟨depth, rfl, isExhausted_of_bind enough⟩ comes
    exact ⟨depth, (bind_ok here).symm, enough⟩
  · rintro ⟨depth, rfl, enough⟩
    obtain ⟨few, ended, _⟩ := comes
    have here : run (max few depth) world = .ok value after :=
      (head (Nat.le_max_left few depth) world (by rw [ended]; rfl)).trans ended
    have later := tail value (Nat.le_max_right few depth) after enough
    exact ⟨max few depth, (bind_ok here).trans later, enough⟩

variable {later : Nat → α → Run β}

theorem comeToSame_of_error {exit : Exit} (head : IsSteady run)
    (comes : Comes run world (.error exit after)) :
    ComeToSame (fun depth => run depth >>= next depth) world
      (fun depth => run depth >>= later depth) world := by
  have transfers {one other : Nat → α → Run β} {result : EStateM.Result Exit World β}
      (comesTo : Comes (fun depth => run depth >>= one depth) world result) :
      Comes (fun depth => run depth >>= other depth) world result := by
    obtain ⟨depth, rfl, enough⟩ := comesTo
    have here : run depth world = .error exit after :=
      Comes.unique head ⟨depth, rfl, isExhausted_of_bind enough⟩ comes
    exact ⟨depth, (bind_error here).trans (bind_error here).symm, enough⟩
  exact fun _ => ⟨transfers, transfers⟩

/-- Runs that begin alike come to the same, if they do so from wherever the beginning ends. -/
theorem comeToSame_bind_of (head : IsSteady run)
    (tail : ∀ value, IsSteady fun depth => next depth value)
    (tailToo : ∀ value, IsSteady fun depth => later depth value)
    (same : ∀ value after, Comes run world (.ok value after) →
      ComeToSame (fun depth => next depth value) after (fun depth => later depth value) after) :
    ComeToSame (fun depth => run depth >>= next depth) world
      (fun depth => run depth >>= later depth) world := by
  by_cases comes : ∃ first, Comes run world first
  · obtain ⟨first, comes⟩ := comes
    cases first with
    | ok value after =>
      exact ((comeToSame_bind head tail comes).trans (same value after comes)).trans
        (comeToSame_bind head tailToo comes).symm
    | error exit after => exact comeToSame_of_error head comes
  · intro result
    exact iff_of_false (fun found => comes (exists_comes_of_bind found))
      fun found => comes (exists_comes_of_bind found)

end

/-! ### Reports -/

/-- Whether an exit is no report, or reports end the run. -/
def IsUnreported (settings : Settings) (exit : Exit) (_ : World) : Prop :=
  ∀ cause, exit = .fault (.report cause) → settings.debug = true

/-- A report does not get past where it is written. -/
theorem endsOnly_reporting (settings : Settings) (value : α) (action : Run α) :
    (reporting settings value action).EndsOnly (IsUnreported settings) := by
  rintro world _ after ended cause rfl
  rw [reporting] at ended
  split at ended
  · split at ended
    · assumption
    · cases ended
  · rename_i others
    exact absurd ended (others cause after)

variable (value : α)

/-- Where no report arises nothing is written. -/
theorem reporting_apply
    (ends : ∀ exit after, action world = .error exit after → IsUnreported settings exit after) :
    reporting settings value action world = action world := by
  rw [reporting]
  split
  · rename_i cause after ended
    rw [if_pos (ends _ after ended cause rfl), ended]
  · rfl

theorem reporting_eq (ends : action.EndsOnly (IsUnreported settings)) :
    reporting settings value action = action :=
  funext fun world => reporting_apply value (ends world)

/-- A report ends the run while debugging, and is written otherwise. -/
theorem reporting_of_report (settings : Settings) {after : World} {cause : Report} (value : α)
    (ended : action world = .error (.fault (.report cause)) after) :
    reporting settings value action world =
      if settings.debug then .error (.fault (.report cause)) after
      else .ok value ((after.holdUp (.report cause)).write .output (cause.message ++ "\n")) := by
  rw [reporting, ended]

/-- Steps that are used up are no report. -/
theorem isExhausted_of_reporting {value : α}
    (enough : isExhausted (reporting settings value action world) = false) :
    isExhausted (action world) = false := by
  refine isExhausted_eq_false fun after ended => ?_
  rw [reporting, ended] at enough
  cases enough

end Run

namespace Engine

variable (settings : Settings) (depth : Nat)

theorem endsOnly_evaluate (expression : Expr) :
    ((ofDepth settings depth).evaluate expression).EndsOnly (Run.IsUnreported settings) := by
  cases depth with
  | zero => rintro world _ after ⟨⟩ cause ⟨⟩
  | succ depth => exact Run.endsOnly_reporting settings _ _

theorem endsOnly_execute (statement : Stmt) :
    ((ofDepth settings depth).execute statement).EndsOnly (Run.IsUnreported settings) := by
  cases depth with
  | zero => rintro world _ after ⟨⟩ cause ⟨⟩
  | succ depth => exact Run.endsOnly_reporting settings _ _

theorem endsOnly_holds (condition : Expr) :
    ((ofDepth settings depth).holds condition).EndsOnly (Run.IsUnreported settings) :=
  Run.endsOnly_bind (endsOnly_evaluate settings depth condition) fun _ => Run.endsOnly_look _

theorem endsOnly_evaluateAll (arguments : List Expr) :
    ((ofDepth settings depth).evaluateAll arguments).EndsOnly (Run.IsUnreported settings) := by
  induction arguments with
  | nil => rintro world _ after ⟨⟩
  | cons argument rest ih =>
    refine Run.endsOnly_bind (endsOnly_evaluate settings depth argument) fun _ => ?_
    exact Run.endsOnly_bind ih fun _ => by rintro world _ after ⟨⟩

theorem endsOnly_executeAll (body : List Stmt) :
    ((ofDepth settings depth).executeAll body).EndsOnly (Run.IsUnreported settings) := by
  induction body with
  | nil => rintro world _ after ⟨⟩
  | cons statement rest ih =>
    exact Run.endsOnly_bind (endsOnly_execute settings depth statement) fun _ =>
      ih

end Engine

end Parlance
