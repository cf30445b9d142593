import Mathlib.Logic.Relation
import Parlance.Proofs.Outcomes

/-!
The two loops that go on until a condition holds. One looks at the condition before each pass, the
other one after each pass that comes to its end.
-/

namespace Parlance

open Loop Engine Run

namespace Loop

variable {settings : Settings} {condition : Run Bool} {body : Run Unit}

theorem endsOnly_pass (ends : body.EndsOnly (Run.IsUnreported settings)) :
    (pass body).EndsOnly (Run.IsUnreported settings) := by
  intro world exit after ended
  rw [pass] at ended
  split at ended
  all_goals cases ended
  exact ends world exit after ‹_›

/-- What is left of a loop that looks at the condition after each pass, once a pass has ended. -/
def onwardUntil (condition : Run Bool) (rest : Run Unit) : Pass → Run Unit
  | .broken => pure ()
  | .continued => rest
  | .finished => condition >>= fun held => if held then pure () else rest

/-- What is left once a pass has ended, if only a pass that is broken out of ends the loop. -/
def onward (rest : Run Unit) : Pass → Run Unit
  | .broken => pure ()
  | .continued | .finished => rest

def lookAndPass (condition : Run Bool) (body rest : Run Unit) : Run Unit :=
  condition >>= fun held => if held then pure () else pass body >>= onward rest

variable (rounds : Nat)

theorem passUntil_succ : passUntil condition body (rounds + 1) =
    pass body >>= onwardUntil condition (passUntil condition body rounds) := by
  refine congrArg (pass body >>= ·) (funext fun how => ?_)
  cases how <;> rfl

theorem untilHolds_succ : untilHolds condition body (rounds + 1) =
    lookAndPass condition body (untilHolds condition body rounds) := by
  refine congrArg (condition >>= ·) (funext fun held => ?_)
  cases held with
  | true => rfl
  | false =>
    refine congrArg (pass body >>= ·) (funext fun how => ?_)
    cases how <;> rfl

theorem endsOnly_passUntil (test : condition.EndsOnly (Run.IsUnreported settings))
    (ends : body.EndsOnly (Run.IsUnreported settings)) (rounds : Nat) :
    (passUntil condition body rounds).EndsOnly (Run.IsUnreported settings) := by
  induction rounds with
  | zero => rintro world _ after ⟨⟩ cause ⟨⟩
  | succ rounds ih =>
    rw [passUntil_succ]
    refine endsOnly_bind (endsOnly_pass ends) fun how => ?_
    cases how with
    | broken => rintro world _ after ⟨⟩
    | continued => exact ih
    | finished =>
      refine endsOnly_bind test fun held => ?_
      cases held with
      | true => rintro world _ after ⟨⟩
      | false => exact ih

theorem endsOnly_untilHolds (test : condition.EndsOnly (Run.IsUnreported settings))
    (ends : body.EndsOnly (Run.IsUnreported settings)) (rounds : Nat) :
    (untilHolds condition body rounds).EndsOnly (Run.IsUnreported settings) := by
  induction rounds with
  | zero => rintro world _ after ⟨⟩ cause ⟨⟩
  | succ rounds ih =>
    rw [untilHolds_succ]
    refine endsOnly_bind test fun held => ?_
    cases held with
    | true => rintro world _ after ⟨⟩
    | false =>
      refine endsOnly_bind (endsOnly_pass ends) fun how => ?_
      cases how with
      | broken => rintro world _ after ⟨⟩
      | continued | finished => exact ih

section

variable {test : Run Bool} {rest others : Run Unit}

theorem settles_onward (later : rest.Settles others) (how : Pass) :
    (onward rest how).Settles (onward others how) := by
  cases how with
  | broken => exact .refl _
  | continued | finished => exact later

theorem settles_onwardUntil (look : condition.Settles test) (later : rest.Settles others)
    (how : Pass) : (onwardUntil condition rest how).Settles (onwardUntil test others how) := by
  cases how with
  | broken => exact .refl _
  | continued => exact later
  | finished =>
    refine .bind look fun held => ?_
    cases held with
    | true => exact .refl _
    | false => exact later

end

end Loop

/-! ### Loops round by round -/

section

variable (settings : Settings)

theorem isSteady_holds (condition : Expr) :
    Run.IsSteady fun depth => (ofDepth settings depth).holds condition :=
  fun _ _ fewer => .bind ((settles_ofDepth settings fewer).evaluate condition) fun _ => .refl _

theorem isSteady_pass (body : List Stmt) :
    Run.IsSteady fun depth => pass ((ofDepth settings depth).executeAll body) := by
  intro few many fewer
  have law := settles_congruence settings
  exact law.pass (law.executeAll fun statement _ =>
    (settles_ofDepth settings fewer).execute statement)

end

theorem comeToSame_unrolled (whole : Nat → Run Unit) (loop : (depth rounds : Nat) → Run Unit)
    (round : Nat → Run Unit → Run Unit) (nothing : whole 0 = throw .exhausted)
    (carriedOut : ∀ depth, whole (depth + 1) = loop depth depth)
    (none : ∀ depth, loop depth 0 = throw .exhausted)
    (more : ∀ depth rounds, loop depth (rounds + 1) = round depth (loop depth rounds))
    (settles : ∀ {few many : Nat}, few ≤ many → ∀ {rest others : Run Unit}, rest.Settles others →
      (round few rest).Settles (round many others)) (world : World) :
    Run.ComeToSame whole world (fun depth => round depth (whole depth)) world := by
  have settlesLoop {few many fewRounds manyRounds : Nat} (fewer : few ≤ many)
      (roundsFewer : fewRounds ≤ manyRounds) :
      (loop few fewRounds).Settles (loop many manyRounds) := by
    induction fewRounds generalizing manyRounds with
    | zero =>
      rw [none]
      exact .usedUp _
    | succ fewRounds ih =>
      obtain ⟨left, rfl⟩ := Nat.exists_eq_add_of_lt roundsFewer
      rw [more, more]
      exact settles fewer (ih (Nat.le_add_right fewRounds left))
  refine comeToSame_of_settles world (fun depth => ⟨depth, ?_⟩) fun depth => ⟨depth + 2, ?_⟩
  · cases depth with
    | zero =>
      rw [nothing]
      exact .usedUp _
    | succ depth =>
      rw [carriedOut]
      cases depth with
      | zero =>
        rw [none]
        exact .usedUp _
      | succ depth =>
        rw [more]
        refine settles (Nat.le_succ (depth + 1)) ?_
        rw [← more]
        exact settlesLoop (Nat.le_refl (depth + 1)) (Nat.le_succ depth)
  · rw [carriedOut, more]
    refine settles (Nat.le_succ depth) ?_
    cases depth with
    | zero =>
      rw [nothing]
      exact .usedUp _
    | succ depth =>
      rw [carriedOut]
      exact settlesLoop (Nat.le_add_right depth 2) (Nat.le_succ depth)

/-! ### The two loops -/

/-- A condition to end at, and a body. -/
structure UntilLoop where
  condition : Expr
  body : List Stmt

namespace UntilLoop

variable (settings : Settings) (loop : UntilLoop)

def pass (depth : Nat) : Run Pass := Loop.pass ((ofDepth settings depth).executeAll loop.body)

def look (depth : Nat) : Run Bool := (ofDepth settings depth).holds loop.condition

/-- The loop that looks after each pass. -/
def doing (depth : Nat) : Run Unit :=
  (ofDepth settings depth).execute (.doUntil loop.body loop.condition)

/-- The loop that looks before each pass. -/
def repeating (depth : Nat) : Run Unit :=
  (ofDepth settings depth).execute (.repeatUntil loop.condition loop.body)

/-- One pass, and then the loop that looks before each pass, unless the pass is broken out of. -/
def passThenRepeating (depth : Nat) : Run Unit :=
  loop.pass settings depth >>= Loop.onward (loop.repeating settings depth)

/-- Whether a pass comes to its end and the condition does not hold after it. -/
def Step (world next : World) : Prop :=
  ∃ between, Run.Comes (loop.pass settings) world (.ok .finished between) ∧
    Run.Comes (loop.look settings) between (.ok false next)

/-- Whether so many passes that come to their end lead from one world to another, and the condition
does not hold after any of them. -/
def GoesOn : World → World → Prop := Relation.ReflTransGen (loop.Step settings)

theorem isSteady_look : Run.IsSteady (loop.look settings) :=
  Parlance.isSteady_holds settings loop.condition

theorem isSteady_pass : Run.IsSteady (loop.pass settings) :=
  Parlance.isSteady_pass settings loop.body

theorem isSteady_doing : Run.IsSteady (loop.doing settings) :=
  fun _ _ fewer => (settles_ofDepth settings fewer).execute _

theorem isSteady_repeating : Run.IsSteady (loop.repeating settings) :=
  fun _ _ fewer => (settles_ofDepth settings fewer).execute _

variable (how : Pass) (depth : Nat)

theorem isSteady_onwardUntil : Run.IsSteady fun depth =>
    onwardUntil (loop.look settings depth) (loop.doing settings depth) how :=
  fun _ _ fewer => settles_onwardUntil (loop.isSteady_look settings fewer)
    (loop.isSteady_doing settings fewer) how

theorem isSteady_onward : Run.IsSteady fun depth =>
    onward (loop.repeating settings depth) how :=
  fun _ _ fewer => settles_onward (loop.isSteady_repeating settings fewer) how

theorem isSteady_passThenRepeating : Run.IsSteady (loop.passThenRepeating settings) :=
  fun _ _ fewer => .bind (loop.isSteady_pass settings fewer) fun how =>
    loop.isSteady_onward settings how fewer

theorem doing_succ : loop.doing settings (depth + 1) =
    passUntil (loop.look settings depth) ((ofDepth settings depth).executeAll loop.body) depth :=
  reporting_eq () (endsOnly_passUntil (endsOnly_holds settings depth _)
    (endsOnly_executeAll settings depth _) depth)

theorem repeating_succ : loop.repeating settings (depth + 1) =
    untilHolds (loop.look settings depth) ((ofDepth settings depth).executeAll loop.body) depth :=
  reporting_eq () (endsOnly_untilHolds (endsOnly_holds settings depth _)
    (endsOnly_executeAll settings depth _) depth)

variable {settings loop} {world after : World}

/-- The loop that looks after each pass is a pass and what is left of the loop. -/
theorem comeToSame_doing (world : World) : Run.ComeToSame (loop.doing settings) world
    (fun depth => loop.pass settings depth >>=
      Loop.onwardUntil (loop.look settings depth) (loop.doing settings depth)) world := by
  refine comeToSame_unrolled _ _ (fun depth rest => loop.pass settings depth >>=
    Loop.onwardUntil (loop.look settings depth) rest) rfl (loop.doing_succ settings) (fun _ => rfl)
    (fun _ rounds => passUntil_succ rounds) ?_ world
  intro few many fewer rest others later
  refine .bind (loop.isSteady_pass settings fewer) fun how => ?_
  exact settles_onwardUntil (loop.isSteady_look settings fewer) later how

/-- The loop that looks before each pass is a look, and a pass followed by that loop unless the
condition holds. -/
theorem comeToSame_repeating (world : World) : Run.ComeToSame (loop.repeating settings) world
    (fun depth => loop.look settings depth >>= fun held =>
      if held then pure () else loop.passThenRepeating settings depth) world := by
  refine comeToSame_unrolled _ _ (fun depth rest => Loop.lookAndPass (loop.look settings depth)
    ((ofDepth settings depth).executeAll loop.body) rest) rfl (loop.repeating_succ settings)
    (fun _ => rfl) (fun _ rounds => untilHolds_succ rounds) ?_ world
  intro few many fewer rest others later
  refine .bind (loop.isSteady_look settings fewer) fun held => ?_
  cases held with
  | true => exact .refl _
  | false =>
    exact .bind (loop.isSteady_pass settings fewer) fun how => settles_onward later how

variable {how : Pass} {next : World} {result : EStateM.Result Exit World Unit}

theorem doing_of_pass (passed : Run.Comes (loop.pass settings) world (.ok how after)) :
    Run.ComeToSame (loop.doing settings) world (fun depth =>
      onwardUntil (loop.look settings depth) (loop.doing settings depth) how) after :=
  (comeToSame_doing world).trans (comeToSame_bind (loop.isSteady_pass settings)
    (loop.isSteady_onwardUntil settings) passed)

theorem passThenRepeating_of_pass (passed : Run.Comes (loop.pass settings) world (.ok how after)) :
    Run.ComeToSame (loop.passThenRepeating settings) world (fun depth =>
      onward (loop.repeating settings depth) how) after :=
  comeToSame_bind (loop.isSteady_pass settings) (loop.isSteady_onward settings) passed

theorem isSteady_unless {rest : Nat → Run Unit} (steady : Run.IsSteady rest) (held : Bool) :
    Run.IsSteady fun depth => if held then pure () else rest depth := by
  cases held with
  | true => exact fun _ _ _ => .refl _
  | false => exact steady

/-- After a pass that comes to its end, and after which the condition does not hold, both sides are
where they were. -/
theorem Step.same (step : loop.Step settings world next) :
    Run.ComeToSame (loop.doing settings) world (loop.doing settings) next ∧
      Run.ComeToSame (loop.passThenRepeating settings) world (loop.passThenRepeating settings)
        next := by
  obtain ⟨between, passed, looked⟩ := step
  constructor
  · exact (doing_of_pass passed).trans (comeToSame_bind (loop.isSteady_look settings)
      (isSteady_unless (loop.isSteady_doing settings)) looked)
  · have again : Run.ComeToSame (loop.repeating settings) between
        (loop.passThenRepeating settings) next :=
      (comeToSame_repeating between).trans (comeToSame_bind (loop.isSteady_look settings)
        (isSteady_unless (loop.isSteady_passThenRepeating settings)) looked)
    exact (passThenRepeating_of_pass passed).trans again

theorem GoesOn.same {last : World} (goes : loop.GoesOn settings world last) :
    Run.ComeToSame (loop.doing settings) world (loop.doing settings) last ∧
      Run.ComeToSame (loop.passThenRepeating settings) world (loop.passThenRepeating settings)
        last := by
  induction goes with
  | refl => exact ⟨fun _ => Iff.rfl, fun _ => Iff.rfl⟩
  | tail _ step ih =>
    exact ⟨ih.1.trans step.same.1, ih.2.trans step.same.2⟩

/-- Whether no pass that comes to its end leads on from a world. -/
def IsLast (settings : Settings) (loop : UntilLoop) (world : World) : Prop :=
  ∀ next, ¬ loop.Step settings world next

/-- Where each pass leaves fewer rounds, only so many passes lead on. -/
theorem exists_isLast (left : Nat → Run Unit)
    (fewer : ∀ {rounds : Nat} {world next : World}, loop.Step settings world next →
      Run.isExhausted (left rounds world) = false →
        ∃ rest < rounds, Run.isExhausted (left rest next) = false)
    {rounds : Nat} (enough : Run.isExhausted (left rounds world) = false) :
    ∃ last, loop.GoesOn settings world last ∧ IsLast settings loop last := by
  induction rounds using Nat.strongRecOn generalizing world with
  | ind rounds ih =>
    by_cases isLast : IsLast settings loop world
    · exact ⟨world, .refl, isLast⟩
    · obtain ⟨next, step⟩ := Classical.not_forall.mp isLast
      have step := Classical.not_not.mp step
      obtain ⟨rest, less, enoughLater⟩ := fewer step enough
      obtain ⟨last, goes, isLast⟩ := ih rest less enoughLater
      exact ⟨last, .head step goes, isLast⟩

/-- A pass that is known to come to a result comes to it wherever it comes to any. -/
theorem Step.passed (step : loop.Step settings world next) {depth : Nat}
    (enough : Run.isExhausted (loop.pass settings depth world) = false) :
    ∃ between, loop.pass settings depth world = .ok .finished between ∧
      (Run.isExhausted (loop.look settings depth between) = false →
        loop.look settings depth between = .ok false next) := by
  obtain ⟨between, passed, looked⟩ := step
  refine ⟨between, ?_, fun enoughToo => ?_⟩
  · exact Run.Comes.unique (loop.isSteady_pass settings) ⟨depth, rfl, enough⟩ passed
  · exact Run.Comes.unique (loop.isSteady_look settings) ⟨depth, rfl, enoughToo⟩ looked

theorem exists_isLast_of_doing (comes : Run.Comes (loop.doing settings) world result) :
    ∃ last, loop.GoesOn settings world last ∧ IsLast settings loop last := by
  obtain ⟨depth, rfl, enough⟩ := comes
  cases depth with
  | zero => cases enough
  | succ depth =>
    rw [doing_succ] at enough
    refine exists_isLast _ ?_ enough
    intro rounds world next step enough
    cases rounds with
    | zero => cases enough
    | succ rounds =>
      rw [passUntil_succ] at enough
      change Run.isExhausted ((loop.pass settings depth >>= _) world) = false at enough
      obtain ⟨between, passed, looked⟩ := step.passed (isExhausted_of_bind enough)
      rw [bind_ok passed] at enough
      have looked := looked (isExhausted_of_bind enough)
      rw [onwardUntil, bind_ok looked] at enough
      exact ⟨rounds, Nat.lt_succ_self rounds, enough⟩

theorem exists_isLast_of_repeating
    (comes : Run.Comes (loop.passThenRepeating settings) world result) :
    ∃ last, loop.GoesOn settings world last ∧ IsLast settings loop last := by
  obtain ⟨depth, rfl, enough⟩ := comes
  let body := (ofDepth settings depth).executeAll loop.body
  have settles : (loop.repeating settings depth).Settles
      (untilHolds (loop.look settings depth) body depth) := by
    cases depth with
    | zero => exact .usedUp _
    | succ depth =>
      rw [repeating_succ]
      exact (settles_congruence settings).untilHolds
        (loop.isSteady_look settings (Nat.le_succ depth))
        (loop.isSteady_pass settings (Nat.le_succ depth)) (.of_le .usedUp (Nat.le_succ depth))
  have whole := Run.Settles.bind (.refl (loop.pass settings depth)) (Loop.settles_onward settles)
  refine exists_isLast (fun rounds => loop.pass settings depth >>=
    Loop.onward (Loop.untilHolds (loop.look settings depth) body rounds)) ?_
    ((congrArg Run.isExhausted (whole world enough)).trans enough)
  intro rounds world next step enough
  obtain ⟨between, passed, looked⟩ := step.passed (isExhausted_of_bind enough)
  rw [bind_ok passed, Loop.onward] at enough
  cases rounds with
  | zero => cases enough
  | succ rounds =>
    rw [untilHolds_succ] at enough
    have looked := looked (isExhausted_of_bind enough)
    rw [lookAndPass, bind_ok looked] at enough
    exact ⟨rounds, Nat.lt_succ_self rounds, enough⟩

/-- Where no pass that comes to its end leads on, the two sides can part only after a pass that is
continued early. -/
theorem IsLast.same (isLast : IsLast settings loop world)
    (continued : ∀ after, Run.Comes (loop.pass settings) world (.ok .continued after) →
      Run.ComeToSame (loop.doing settings) after (loop.repeating settings) after) :
    Run.ComeToSame (loop.doing settings) world (loop.passThenRepeating settings) world := by
  refine (comeToSame_doing world).trans (comeToSame_bind_of (loop.isSteady_pass settings)
    (loop.isSteady_onwardUntil settings) (loop.isSteady_onward settings) fun how after passed => ?_)
  cases how with
  | broken => exact fun _ => Iff.rfl
  | continued => exact continued after passed
  | finished =>
    refine .trans (comeToSame_bind_of (loop.isSteady_look settings)
      (isSteady_unless (loop.isSteady_doing settings))
      (isSteady_unless (loop.isSteady_passThenRepeating settings)) fun held next looked => ?_)
      (comeToSame_repeating after).symm
    cases held with
    | true => exact fun _ => Iff.rfl
    | false => exact absurd ⟨after, passed, looked⟩ (isLast next)

end UntilLoop

open UntilLoop in
/-- The loop that looks at its condition after a pass is one pass followed by the loop that looks
before each pass if and only if the two loops come to the same from wherever a pass of it is first
continued early: from there the first goes on with a pass and the second with a look. After any
other pass the first loop, too, goes on with a look at the condition, unless it is broken out of. -/
theorem doUntil_is_pass_then_repeatUntil_iff (settings : Settings) (loop : UntilLoop)
    (world : World) :
    (∀ how after, Run.Comes (loop.pass settings) world (.ok how after) →
      Run.ComeToSame (loop.doing settings) world (fun depth =>
        onwardUntil (loop.look settings depth) (loop.doing settings depth) how) after) ∧
    (Run.ComeToSame (loop.doing settings) world (loop.passThenRepeating settings) world ↔
      ∀ between after, loop.GoesOn settings world between →
        Run.Comes (loop.pass settings) between (.ok .continued after) →
          Run.ComeToSame (loop.doing settings) after (loop.repeating settings) after) := by
  refine ⟨fun _ _ => doing_of_pass, fun same between after goes continued => ?_, fun parts => ?_⟩
  · have sameThere := (goes.same.1.symm.trans same).trans goes.same.2
    exact ((doing_of_pass continued).symm.trans sameThere).trans
      (passThenRepeating_of_pass continued)
  · have fromLast (found : ∃ last, loop.GoesOn settings world last ∧ IsLast settings loop last) :
        Run.ComeToSame (loop.doing settings) world (loop.passThenRepeating settings) world := by
      obtain ⟨last, goes, isLast⟩ := found
      exact (goes.same.1.trans (isLast.same fun after => parts last after goes)).trans
        goes.same.2.symm
    intro result
    constructor
    · intro comes
      exact (fromLast (exists_isLast_of_doing comes) result).mp comes
    · intro comes
      exact (fromLast (exists_isLast_of_repeating comes) result).mpr comes

/-- A loop that looks after each pass can go on although its condition holds: the pass that makes it
hold is continued early, and one more number is written. -/
theorem doUntil_overlooks_condition_after_continue :
    let settings : Settings := { permissions := ⟨fun _ => false⟩ }
    let start : Beginning := { files := .bare }
    let world := Run.final (Run.setVariable "n" (.number (.int 0)) start.world)
    let loop : UntilLoop :=
      { condition := .binary (.identifier "n") .isAtLeast (.number (.int 1))
        body := [.change (.identifier "n") .increase (some (.number (.int 1))),
          .say [.identifier "n"],
          .branch (.binary (.identifier "n") .equals (.number (.int 1))) [.continueLoop] none] }
    ¬ Run.ComeToSame (loop.doing settings) world (loop.passThenRepeating settings) world := by
  intro settings start world loop same
  have enough : Run.isExhausted (loop.doing settings 9 world) = false := by decide +kernel
  have enoughBeside : Run.isExhausted (loop.passThenRepeating settings 9 world) = false := by
    decide +kernel
  have sameEnd : loop.doing settings 9 world = loop.passThenRepeating settings 9 world :=
    Run.Comes.unique (loop.isSteady_passThenRepeating settings)
      ((same _).mp ⟨9, rfl, enough⟩) ⟨9, rfl, enoughBeside⟩
  have written : (Run.final (loop.doing settings 9 world)).transcript = "1\n2\n" := by
    decide +kernel
  have writtenBeside :
      (Run.final (loop.passThenRepeating settings 9 world)).transcript = "1\n" := by
    decide +kernel
  rw [sameEnd, writtenBeside] at written
  exact absurd written (by decide)

end Parlance
