import Mathlib.Data.List.Nodup
import Parlance.Proofs.EventMeaning

/-!
Blocks that run once. A program only adds registrations, at the end of what waits; a pass goes over
what waits at its beginning, starts what is due and drops one registration for each start.
-/

namespace Parlance

open Engine Run List

/-! ### Equal times -/

open Float.Model (UnpackedFloat)

theorem eq_or_zeros_of_compare {first second : UnpackedFloat}
    (equal : first.compare second = some .eq) :
    first = second ∨ ∃ sign other, first = .zero sign ∧ second = .zero other := by
  cases first with
  | notANumber => cases equal
  | infinity sign =>
    cases second with
    | infinity other =>
      have same : compare sign other = .eq := Option.some.inj equal
      cases sign <;> cases other <;> first | exact .inl rfl | cases same
    | notANumber => cases equal
    | zero | finite => cases sign <;> cases equal
  | zero sign =>
    cases second with
    | zero other => exact .inr ⟨sign, other, rfl, rfl⟩
    | notANumber => cases equal
    | infinity other | finite other => cases other <;> cases equal
  | finite sign mantissa exponent =>
    cases second with
    | finite other width power =>
      have same : sign = other ∧ (compare exponent power).then (compare mantissa width) = .eq := by
        cases sign <;> cases other
        · exact ⟨rfl, Ordering.swap_eq_eq.1 (Option.some.inj equal)⟩
        · cases equal
        · cases equal
        · exact ⟨rfl, Option.some.inj equal⟩
      obtain ⟨rfl, same⟩ := same
      obtain ⟨exponents, mantissas⟩ := Ordering.then_eq_eq.1 same
      obtain rfl := Int.compare_eq_eq.1 exponents
      obtain rfl := Nat.compare_eq_eq.1 mantissas
      exact .inl rfl
    | notANumber => cases equal
    | infinity other => cases other <;> cases equal
    | zero => cases sign <;> cases equal

/-- Both zeros compare alike with every number. -/
theorem compare_zero (sign other : UnpackedFloat.Sign) (third : UnpackedFloat) :
    (UnpackedFloat.zero sign).compare third = (UnpackedFloat.zero other).compare third := by
  cases third with
  | infinity side | finite side => cases side <;> rfl
  | notANumber | zero => rfl

variable {now : Float} {left kept rest : List Delayed} {task : Delayed} {before between : Scheduler}

theorem le_of_equal_times {first second : Float} (equal : (first == second) = true)
    (come : second ≤ now) : first ≤ now := by
  have compared : first.toModel.unpack.compare second.toModel.unpack = some .eq := eq_of_beq equal
  have same : first.toModel.unpack.compare now.toModel.unpack =
      second.toModel.unpack.compare now.toModel.unpack := by
    obtain same | ⟨sign, other, isZero, isZeroToo⟩ := eq_or_zeros_of_compare compared
    · rw [same]
    · rw [isZero, isZeroToo]
      exact compare_zero sign other _
  have found : (second.toModel.unpack.compare now.toModel.unpack).any (·.isLE) = true :=
    of_decide_eq_true come
  rw [← same] at found
  exact decide_eq_true found

theorem Delayed.le_of_isLike {first second : Delayed} (alike : first.isLike second = true)
    (come : second.time ≤ now) : first.time ≤ now := by
  rw [isLike, Bool.and_eq_true] at alike
  exact le_of_equal_times alike.1 come

/-- Whether no block of a list is like a later one. -/
def Delayed.AreUnlike (tasks : List Delayed) : Prop :=
  tasks.Pairwise fun earlier later => earlier.isLike later = false

/-- Where no block is like a later one, this is so after one of them has been examined. -/
theorem Delayed.AreUnlike.examine {others : List Delayed}
    (unlike : AreUnlike (left ++ task :: others)) (remains : kept.Sublist (left ++ [task])) :
    (∀ other ∈ left, other.isLike task = false) ∧ AreUnlike (kept ++ others) := by
  refine ⟨fun other isLeft => ?_, ?_⟩
  · exact (pairwise_append.1 unlike).2.2 other isLeft task (.head others)
  · have within := remains.append (List.Sublist.refl others)
    rw [append_assoc] at within
    exact unlike.sublist within

def Delayed.IsDroppedFor (start dropped : Delayed) : Prop :=
  dropped = start ∨ dropped.isLike start = true

/-! ### Numbers -/

/-- The blocks that were started and run once, latest first. -/
def Scheduler.begun (scheduler : Scheduler) : List Delayed := scheduler.started.filterMap Due.once?

/-- Whether every registration has a number of its own, and whether what waits to run once has been
registered and waits in the order of registration. -/
structure Scheduler.IsNumbered (scheduler : Scheduler) : Prop where
  falling : scheduler.history.Pairwise fun later earlier => earlier.serial < later.serial
  counted : ∀ task ∈ scheduler.history, task.serial < scheduler.serials
  waiting : scheduler.delayed.Sublist scheduler.history.reverse

namespace Scheduler

variable {scheduler : Scheduler}

theorem isNumbered_new (isVirtual : Bool) : IsNumbered { isVirtual } where
  falling := .nil
  counted _ registered := absurd registered not_mem_nil
  waiting := .slnil

theorem IsNumbered.nodup_history (numbered : scheduler.IsNumbered) : scheduler.history.Nodup := by
  refine numbered.falling.imp fun falling same => ?_
  rw [same] at falling
  exact Nat.lt_irrefl _ falling

theorem IsNumbered.nodup_delayed (numbered : scheduler.IsNumbered) : scheduler.delayed.Nodup :=
  (nodup_reverse.2 numbered.nodup_history).sublist numbered.waiting

/-- A number stands for one registration. -/
theorem IsNumbered.eq_of_serial (numbered : scheduler.IsNumbered) {first second : Delayed}
    (isFirst : first ∈ scheduler.delayed) (isSecond : second ∈ scheduler.delayed)
    (same : first.serial = second.serial) : first = second := by
  have rising : scheduler.delayed.Pairwise fun earlier later => earlier.serial < later.serial :=
    (pairwise_reverse.2 numbered.falling).sublist numbered.waiting
  have apart : (scheduler.delayed.map Delayed.serial).Nodup :=
    pairwise_map.2 (rising.imp Nat.ne_of_lt)
  exact inj_on_of_nodup_map apart isFirst isSecond same

variable {left : List Delayed}

/-- A block does not wait twice. -/
theorem IsNumbered.notMem_others (numbered : scheduler.IsNumbered) {others rest : List Delayed}
    {task : Delayed} (waiting : scheduler.delayed = left ++ task :: others ++ rest) :
    task ∉ others := by
  have distinct := numbered.nodup_delayed
  rw [waiting, append_assoc] at distinct
  have distinctFrom := (nodup_append.1 distinct).2.1
  exact fun again => (nodup_cons.1 distinctFrom).1 (mem_append_left rest again)

/-- What is dropped does not matter for the numbers. -/
theorem IsNumbered.of_sublist (numbered : scheduler.IsNumbered)
    (remains : left.Sublist scheduler.delayed) : IsNumbered { scheduler with delayed := left } where
  falling := numbered.falling
  counted := numbered.counted
  waiting := remains.trans numbered.waiting

end Scheduler

/-! ### What programs do -/

/-- Whether a scheduler has come from another one by registrations only. Nothing that waits is
dropped, no block that runs once is started, and the time is moved only if the scheduler has a time
of its own. -/
structure Scheduler.Extends (before after : Scheduler) : Prop where
  isVirtual : after.isVirtual = before.isVirtual
  time : before.isVirtual = false → after.time = before.time
  begun : after.begun = before.begun
  added : ∃ more, after.history = more.reverse ++ before.history ∧
    after.delayed = before.delayed ++ more
  numbered : before.IsNumbered → after.IsNumbered

namespace Scheduler

variable {before between after : Scheduler} (scheduler : Scheduler)

theorem Extends.refl : scheduler.Extends scheduler where
  isVirtual := rfl
  time _ := rfl
  begun := rfl
  added := ⟨[], rfl, (append_nil _).symm⟩
  numbered := id

theorem Extends.trans (first : before.Extends between) (second : between.Extends after) :
    before.Extends after where
  isVirtual := second.isVirtual.trans first.isVirtual
  time isReal := (second.time (first.isVirtual.trans isReal)).trans (first.time isReal)
  begun := second.begun.trans first.begun
  added := by
    obtain ⟨more, registered, waiting⟩ := first.added
    obtain ⟨later, registeredLater, waitingLater⟩ := second.added
    refine ⟨more ++ later, ?_, ?_⟩
    · rw [registeredLater, registered, reverse_append, append_assoc]
    · rw [waitingLater, waiting, append_assoc]
  numbered := second.numbered ∘ first.numbered

/-- What touches none of the records extends the scheduler. -/
theorem Extends.of_same (isVirtual : after.isVirtual = before.isVirtual)
    (time : before.isVirtual = false → after.time = before.time)
    (begun : after.begun = before.begun) (history : after.history = before.history)
    (delayed : after.delayed = before.delayed) (serials : before.serials ≤ after.serials) :
    before.Extends after where
  isVirtual := isVirtual
  time := time
  begun := begun
  added := ⟨[], history, delayed.trans (append_nil _).symm⟩
  numbered numbered :=
    { falling := history ▸ numbered.falling
      counted := fun task registered =>
        Nat.lt_of_lt_of_le (numbered.counted task (history ▸ registered)) serials
      waiting := delayed ▸ history ▸ numbered.waiting }

theorem extends_addDelayed (clock : Float) (place : Nat) (seconds : Float)
    (block : Block) : scheduler.Extends (scheduler.addDelayed clock place seconds block) where
  isVirtual := rfl
  time _ := rfl
  begun := rfl
  added := ⟨[_], rfl, rfl⟩
  numbered numbered :=
    { falling := .cons numbered.counted numbered.falling
      counted := by
        intro task registered
        obtain rfl | earlier := mem_cons.1 registered
        · exact Nat.lt_succ_self _
        · exact Nat.lt_succ_of_lt (numbered.counted task earlier)
      waiting := by
        show List.Sublist (scheduler.delayed ++ [_]) (List.reverse (_ :: scheduler.history))
        rw [reverse_cons]
        exact numbered.waiting.append (List.Sublist.refl _) }

theorem extends_add (registration : Registration) (block : Block)
    (clock : Float) : scheduler.Extends (registration.add block clock scheduler) := by
  cases registration with
  | once place span => exact scheduler.extends_addDelayed clock place span block
  | again span => exact .of_same rfl (fun _ => rfl) rfl rfl rfl (Nat.le_refl _)
  | job name span => exact .of_same rfl (fun _ => rfl) rfl rfl rfl (Nat.le_succ _)

/-- A start of a block that is kept when it has run is no start of one that runs once. -/
theorem extends_start {due : Due} (lasting : due.once? = none) :
    scheduler.Extends (scheduler.start due) :=
  .of_same rfl (fun _ => rfl) (filterMap_cons_none lasting) rfl rfl (Nat.le_refl _)

theorem extends_markJob (name : String) (serial : Nat) (time : Float) :
    scheduler.Extends (scheduler.markJob name serial time) := by
  rw [markJob]
  split
  · split
    · exact .of_same rfl (fun _ => rfl) rfl rfl rfl (Nat.le_refl _)
    · exact .refl scheduler
  · exact .refl scheduler

end Scheduler

/-- Programs register blocks, and that is all that they do to the blocks that run once. -/
theorem Scheduler.extends_rules : SchedulerRules Scheduler.Extends where
  refl := .refl
  trans := .trans
  time _ _ virtual := .of_same rfl
    (fun isReal => absurd (isReal.symm.trans virtual) Bool.false_ne_true) rfl rfl rfl
    (Nat.le_refl _)
  add := Scheduler.extends_add
  stopJob _ _ := .of_same rfl (fun _ => rfl) rfl rfl rfl (Nat.le_refl _)
  calendar _ _ := .of_same rfl (fun _ => rfl) rfl rfl rfl (Nat.le_refl _)

/-- Whether the scheduler of a world has come from that of another one by registrations only. -/
def World.Registers (before after : World) : Prop :=
  Option.Rel Scheduler.Extends before.scheduler after.scheduler

theorem World.preserved_registers (settings : Settings) : Preserved Registers settings :=
  Scheduler.extends_rules.preserved settings

/-! ### What a pass does -/

/-- What happens when some blocks are examined that wait between others: before them stand those
that were examined and are still there, after them those that are not examined. Every start of a
block drops one from among the first and the examined ones, the started block or one like it, and
what is registered meanwhile is added at the end. -/
structure Scheduler.Sweeps (before after : Scheduler)
    (left tasks rest starts dropped kept more : List Delayed) : Prop where
  isVirtual : after.isVirtual = before.isVirtual
  stands : before.isVirtual = false → after.time = before.time
  numbered : after.IsNumbered
  begun : after.begun = starts.reverse ++ before.begun
  history : after.history = more.reverse ++ before.history
  delayed : after.delayed = kept ++ rest ++ more
  among : starts.Sublist tasks
  remains : kept.Sublist (left ++ tasks)
  balance : (left ++ tasks).Perm (dropped ++ kept)
  alike : List.Forall₂ Delayed.IsDroppedFor starts dropped

namespace Scheduler.Sweeps

variable {before between after : Scheduler}
  {left tasks others rest starts startsLater dropped droppedLater kept keptLater more moreLater :
    List Delayed}

/-- Where no block is started, the examined ones stay where they are. -/
theorem idle (numbered : before.IsNumbered) (waiting : before.delayed = left ++ tasks ++ rest) :
    before.Sweeps before left tasks rest [] [] (left ++ tasks) [] where
  isVirtual := rfl
  stands _ := rfl
  numbered := numbered
  begun := rfl
  history := rfl
  delayed := waiting.trans (append_nil _).symm
  among := nil_sublist tasks
  remains := List.Sublist.refl _
  balance := List.Perm.refl _
  alike := .nil

/-- Examining some blocks and then others. -/
theorem append
    (first : before.Sweeps between left tasks (others ++ rest) starts dropped kept more)
    (second : between.Sweeps after kept others (rest ++ more) startsLater droppedLater keptLater
      moreLater) :
    before.Sweeps after left (tasks ++ others) rest (starts ++ startsLater)
      (dropped ++ droppedLater) keptLater (more ++ moreLater) where
  isVirtual := second.isVirtual.trans first.isVirtual
  stands isReal := (second.stands (first.isVirtual.trans isReal)).trans (first.stands isReal)
  numbered := second.numbered
  begun := by
    rw [second.begun, first.begun, reverse_append, append_assoc]
  history := by
    rw [second.history, first.history, reverse_append, append_assoc]
  delayed := by
    rw [second.delayed, append_assoc, append_assoc, append_assoc]
  among := first.among.append second.among
  remains := by
    rw [← append_assoc]
    exact second.remains.trans (first.remains.append (List.Sublist.refl others))
  balance := by
    rw [← append_assoc]
    calc (left ++ tasks ++ others).Perm (dropped ++ kept ++ others) :=
          first.balance.append_right others
      _ = dropped ++ (kept ++ others) := append_assoc _ _ _
      List.Perm _ (dropped ++ (droppedLater ++ keptLater)) := second.balance.append_left dropped
      _ = dropped ++ droppedLater ++ keptLater := (append_assoc _ _ _).symm
  alike := rel_append first.alike second.alike

end Scheduler.Sweeps

namespace Engine

variable {engine : Engine} {time : World → Float}

theorem examine_eq (engine : Engine) (time : World → Float) (task : Delayed) (world : World) :
    engine.examine time task world = if task.time ≤ time world then
      (engine.start (.once task) >>= fun _ =>
        changeScheduler fun scheduler => scheduler.dropDelayed task) world
      else .ok () world := by
  rw [examine, look_bind]
  split <;> rfl

theorem runDelayed_cons (engine : Engine) (time : World → Float) (task : Delayed)
    (rest : List Delayed) : engine.runDelayed time (task :: rest) =
      engine.examine time task >>= fun _ => engine.runDelayed time rest := rfl

end Engine

/-- When a block has run, one of those that wait up to it is dropped: the block itself or one like
it. -/
theorem Scheduler.exists_dropped {scheduler : Scheduler} (numbered : scheduler.IsNumbered)
    (waiting : scheduler.delayed = left ++ [task] ++ rest) :
    ∃ dropped kept, (scheduler.dropDelayed task).delayed = kept ++ rest ∧
      kept.Sublist (left ++ [task]) ∧ (left ++ [task]).Perm (dropped :: kept) ∧
      task.IsDroppedFor dropped ∧
      ((∀ other ∈ left, other.isLike task = false) → dropped = task) := by
  -- The block itself is there, so the search for one to drop ends with it at the latest.
  have itself : task.drops task = true := by simp [Delayed.drops]
  have isThere : task ∈ left ++ [task] := mem_append_right left (mem_singleton_self task)
  obtain ⟨dropped, earlier, later, -, drops, split, erased⟩ :=
    exists_of_eraseP isThere itself
  have wasThere : dropped ∈ left ++ [task] := split ▸ mem_append_right earlier (.head later)
  have same (serial : dropped.serial = task.serial) : dropped = task :=
    numbered.eq_of_serial (waiting ▸ mem_append_left rest wasThere)
      (waiting ▸ mem_append_left rest isThere) serial
  have found : task.IsDroppedFor dropped := by
    rw [Delayed.drops, Bool.or_eq_true, decide_eq_true_eq] at drops
    exact drops.imp_left same
  refine ⟨dropped, earlier ++ later, ?_, ?_, ?_, found, fun unlike => ?_⟩
  · show scheduler.delayed.eraseP _ = _
    rw [waiting, eraseP_append_left itself rest isThere, erased]
  · rw [← erased]
    exact eraseP_sublist
  · rw [split]
    exact perm_middle
  · obtain isLeft | isTask := mem_append.1 wasThere
    · exact found.resolve_right (Bool.eq_false_iff.1 (unlike dropped isLeft))
    · exact mem_singleton.1 isTask

/-- A block that is due is started and registers others, and one block is dropped. -/
theorem Scheduler.sweeps_drop (numbered : before.IsNumbered)
    (waiting : before.delayed = left ++ [task] ++ rest)
    (extended : (before.start (.once task)).Extends between) :
    ∃ dropped kept more, before.Sweeps (between.dropDelayed task) left [task] rest [task] [dropped]
      kept more ∧ ((∀ other ∈ left, other.isLike task = false) → dropped = task) := by
  obtain ⟨more, registered, added⟩ := extended.added
  have numberedToo := extended.numbered { numbered with }
  have waitingToo : between.delayed = left ++ [task] ++ (rest ++ more) := by
    rw [added, ← append_assoc]
    exact congrArg (· ++ more) waiting
  obtain ⟨dropped, kept, after, remains, balance, found, exact⟩ :=
    exists_dropped numberedToo waitingToo
  refine ⟨dropped, kept, more, ?_, exact⟩
  exact
    { isVirtual := extended.isVirtual
      stands := extended.time
      numbered := numberedToo.of_sublist eraseP_sublist
      begun := extended.begun
      history := registered
      delayed := after.trans (append_assoc kept rest more).symm
      among := List.Sublist.refl [task]
      remains := remains
      balance := balance
      alike := .cons found .nil }

/-- Whether of some blocks those are started whose time has come when they are examined. -/
def Engine.StartsDue (engine : Engine) (time : World → Float) (world : World)
    (tasks starts : List Delayed) : Prop :=
  ∀ earlier task later, tasks = earlier ++ task :: later →
    ∃ reached, engine.runDelayed time earlier world = .ok () reached ∧
      (task ∈ starts ↔ task.time ≤ time reached)

/-- Whether it is one and the same time whenever one of some blocks is examined. -/
def Engine.StandsStill (engine : Engine) (time : World → Float) (world : World)
    (tasks : List Delayed) (now : Float) : Prop :=
  ∀ earlier task later reached, tasks = earlier ++ task :: later →
    engine.runDelayed time earlier world = .ok () reached → time reached = now

namespace Engine

variable {engine : Engine} {time : World → Float} {world between : World} {task : Delayed}
  {others starts : List Delayed}

theorem startsDue_cons (examined : engine.examine time task world = .ok () between)
    (fresh : task ∉ others) (among : starts.Sublist others)
    (due : engine.StartsDue time between others starts) :
    engine.StartsDue time world (task :: others)
      ((if task.time ≤ time world then [task] else []) ++ starts) := by
  intro earlier found later split
  cases earlier with
  | nil =>
    obtain ⟨rfl, rfl⟩ := List.cons.inj split
    refine ⟨world, rfl, ?_⟩
    have notLater : task ∉ starts := fun isStarted => fresh (among.subset isStarted)
    by_cases come : task.time ≤ time world <;> simp [come, notLater]
  | cons first earlier =>
    obtain ⟨rfl, rfl⟩ := List.cons.inj split
    obtain ⟨reached, passed, iff⟩ := due earlier found later rfl
    refine ⟨reached, ?_, ?_⟩
    · rw [runDelayed_cons, bind_ok examined]
      exact passed
    · have different : found ≠ task := by
        rintro rfl
        exact fresh (mem_append_right earlier (.head later))
      by_cases come : task.time ≤ time world <;> simp [come, different, iff]

theorem StandsStill.tail {now : Float} (examined : engine.examine time task world = .ok () between)
    (still : engine.StandsStill time world (task :: others) now) :
    engine.StandsStill time between others now := by
  intro earlier found later reached split passed
  refine still (task :: earlier) found later reached (by rw [split]; rfl) ?_
  rw [runDelayed_cons, bind_ok examined]
  exact passed

end Engine

/-- What is left over when one more block has been examined is not due, if nothing was before. -/
theorem waits_of_balance
    (balance : (left ++ [task]).Perm ((if task.time ≤ now then [task] else []) ++ kept))
    (waiting : ∀ other ∈ left, ¬ other.time ≤ now) : ∀ other ∈ kept, ¬ other.time ≤ now := by
  intro other isKept
  by_cases come : task.time ≤ now
  · rw [if_pos come] at balance
    have same : left.Perm kept :=
      (perm_append_left_iff [task]).1 (perm_append_comm.trans balance)
    exact waiting other (same.mem_iff.2 isKept)
  · rw [if_neg come] at balance
    obtain isLeft | isTask := mem_append.1 (balance.mem_iff.2 isKept)
    · exact waiting other isLeft
    · rw [mem_singleton.1 isTask]
      exact come

section

variable {engine : Engine} {time : World → Float}
  (keeps : ∀ block, (engine.runKept block).Keeps World.Registers)

include keeps

variable {world : World} {before : Scheduler} {left rest : List Delayed}

/-- Examining one block: if it is due, then it is started and one is dropped. -/
theorem sweeps_examine {task : Delayed} (present : world.scheduler = some before)
    (numbered : before.IsNumbered) (waiting : before.delayed = left ++ [task] ++ rest)
    (ended : hasEnded (engine.examine time task world) = true) :
    ∃ reached after dropped kept more, engine.examine time task world = .ok () reached ∧
      reached.scheduler = some after ∧
      before.Sweeps after left [task] rest (if task.time ≤ time world then [task] else []) dropped
        kept more ∧
      ((∀ other ∈ left, task.time ≤ time world → other.isLike task = false) →
        dropped = if task.time ≤ time world then [task] else []) := by
  rw [examine_eq] at ended ⊢
  by_cases due : task.time ≤ time world
  · rw [if_pos due] at ended
    simp only [if_pos due]
    have begun := hasEnded_of_bind ended
    obtain ⟨between, midway, started, there, extended⟩ := exists_ok_start keeps present begun
    obtain ⟨dropped, kept, more, swept, exact⟩ :=
      Scheduler.sweeps_drop numbered waiting extended
    refine ⟨_, midway.dropDelayed task, [dropped], kept, more, bind_ok started, ?_, swept,
      fun unlike => ?_⟩
    · show between.scheduler.map _ = _
      rw [there]
      rfl
    · rw [exact fun other isLeft => unlike other isLeft due]
  · rw [if_neg due] at ended
    simp only [if_neg due]
    exact ⟨world, before, [], left ++ [task], [], rfl, present, .idle numbered waiting, fun _ => rfl⟩

/-- Examining blocks one after another. The started blocks are dropped themselves if no block is
like a later one, and also if the time is the same all along: a block that is left over was not due
then, and one like it is not due, either. -/
theorem sweeps_runDelayed (tasks : List Delayed) (present : world.scheduler = some before)
    (numbered : before.IsNumbered) (waiting : before.delayed = left ++ tasks ++ rest)
    (ended : hasEnded (engine.runDelayed time tasks world) = true) :
    ∃ reached after starts dropped kept more, engine.runDelayed time tasks world = .ok () reached ∧
      reached.scheduler = some after ∧
      before.Sweeps after left tasks rest starts dropped kept more ∧
      engine.StartsDue time world tasks starts ∧
      (Delayed.AreUnlike (left ++ tasks) → dropped = starts) ∧
      ∀ now, (∀ other ∈ left, ¬ other.time ≤ now) → engine.StandsStill time world tasks now →
        dropped = starts := by
  -- What waits is always what is left over, then what is still to be examined, then the rest.
  induction tasks generalizing world before left rest with
  | nil =>
    refine ⟨world, before, [], [], left ++ [], [], rfl, present, .idle numbered waiting, ?_,
      fun _ => rfl, fun _ _ _ => rfl⟩
    intro earlier task later split
    exact absurd split.symm (append_ne_nil_of_right_ne_nil earlier (cons_ne_nil task later))
  | cons task others ih =>
    have waitingFirst : before.delayed = left ++ [task] ++ (others ++ rest) := by
      rw [waiting, append_assoc, append_assoc]
      rfl
    obtain ⟨between, midway, droppedFirst, keptFirst, moreFirst, examined, presentMidway, sweptFirst,
      exactFirst⟩ := sweeps_examine keeps present numbered waitingFirst (hasEnded_of_bind ended)
    rw [runDelayed_cons, bind_ok examined] at ended ⊢
    have waitingMidway : midway.delayed = keptFirst ++ others ++ (rest ++ moreFirst) := by
      rw [sweptFirst.delayed, append_assoc, append_assoc, append_assoc]
    obtain ⟨reached, after, starts, dropped, kept, more, passed, there, swept, due, unlike, still⟩ :=
      ih presentMidway sweptFirst.numbered waitingMidway ended
    have fresh := numbered.notMem_others waiting
    refine ⟨reached, after, _, _, kept, _, passed, there, sweptFirst.append swept,
      startsDue_cons examined fresh swept.among due, fun unlikeAll => ?_,
      fun now waitingStill standing => ?_⟩
    · obtain ⟨unlikeTask, unlikeLater⟩ := unlikeAll.examine sweptFirst.remains
      rw [exactFirst fun other isLeft _ => unlikeTask other isLeft, unlike unlikeLater]
    · -- What is left over was not due at this time, so nothing like it is due now.
      have timeNow : time world = now := standing [] task others world rfl rfl
      have first := exactFirst fun other isLeft come => Bool.eq_false_iff.2 fun alike =>
        waitingStill other isLeft (timeNow ▸ other.le_of_isLike alike come)
      have balance := sweptFirst.balance
      rw [first, timeNow] at balance
      have waitingLater := waits_of_balance balance waitingStill
      rw [first, still now waitingLater (standing.tail examined)]

end

/-! ### What an advance does -/

/-- What an advance does to the blocks that run once: it examines those that wait at its beginning
and no others. -/
structure Engine.Advances (engine : Engine) (time : World → Float) (world : World)
    (before after : Scheduler) (starts dropped kept more : List Delayed) : Prop
    extends before.Sweeps after [] before.delayed [] starts dropped kept more where
  due : engine.StartsDue time world before.delayed starts
  /-- The started blocks are those that are dropped, if none that waits is like a later one. -/
  unlike : Delayed.AreUnlike before.delayed → dropped = starts
  /-- So they are, too, if no time passes between the examinations. -/
  still (now : Float) : engine.StandsStill time world before.delayed now → dropped = starts

/-- What is registered after the pass adds to what was registered during the pass. -/
theorem Scheduler.Sweeps.extend {after : Scheduler} {tasks starts dropped more : List Delayed}
    (swept : before.Sweeps between left tasks rest starts dropped kept more)
    (extended : between.Extends after) :
    ∃ moreLater, before.Sweeps after left tasks rest starts dropped kept (more ++ moreLater) := by
  obtain ⟨moreLater, registered, waiting⟩ := extended.added
  refine ⟨moreLater, ?_⟩
  exact
    { isVirtual := extended.isVirtual.trans swept.isVirtual
      stands := fun isReal =>
        (extended.time (swept.isVirtual.trans isReal)).trans (swept.stands isReal)
      numbered := extended.numbered swept.numbered
      begun := extended.begun.trans swept.begun
      history := by rw [registered, swept.history, reverse_append, append_assoc]
      delayed := by rw [waiting, swept.delayed, append_assoc _ more]
      among := swept.among
      remains := swept.remains
      balance := swept.balance
      alike := swept.alike }

section

variable (settings : Settings) (depth : Nat)

theorem keeps_runKept (block : Block) :
    ((ofDepth settings depth).runKept block).Keeps World.Registers :=
  (World.preserved_registers settings).keeps_runKept depth block

/-- The other passes register blocks, and that is all that they do to those that run once. -/
theorem passRules_registers :
    PassRules (fun _ action _ => action.Keeps World.Registers) (fun _ => True)
      (ofDepth settings depth) (ofDepth settings depth) where
  rounds := .refl _
  pure value := (World.preserved_registers settings).keeps_look fun _ => value
  exhausted _ := Scheduler.extends_rules.of_eq rfl
  bind := (World.preserved_registers settings).keeps_bind
  start due lasting _ := (World.preserved_registers settings).keeps_bind
    (keeps_changeScheduler fun scheduler => scheduler.extends_start lasting)
    fun _ => keeps_runKept settings depth due.block
  waiting _ _ _ _ _ always _ _ _ tail := (World.preserved_registers settings).keeps_bind
    ((World.preserved_registers settings).keeps_look _) fun value =>
      tail value (always (fun _ => trivial) value)
  markRecurring _ _ := keeps_changeScheduler fun _ =>
    .of_same rfl (fun _ => rfl) rfl rfl rfl (Nat.le_refl _)
  markJob name serial time := keeps_changeScheduler fun scheduler =>
    scheduler.extends_markJob name serial time

theorem keeps_runLasting (time calendar : World → Float) :
    ((ofDepth settings depth).runLasting time calendar).Keeps World.Registers :=
  have preserved := World.preserved_registers settings
  @PassRules.runLasting _ _ _ _ (passRules_registers settings depth) time time
    (preserved.keeps_look time) calendar calendar
    (preserved.keeps_bind (preserved.keeps_look calendar) fun _ =>
      preserved.keeps_inner (isInner_ofExcept _))

variable {world : World} {before : Scheduler} (present : world.scheduler = some before)
  (numbered : before.IsNumbered)

include present numbered

/-- What the pass over the blocks that run once does. -/
theorem advances_passDelayed (time : World → Float)
    (ended : hasEnded ((ofDepth settings depth).passDelayed time world) = true) :
    ∃ reached after starts dropped kept more,
      (ofDepth settings depth).passDelayed time world = .ok () reached ∧
      reached.scheduler = some after ∧
      (ofDepth settings depth).Advances time world before after starts dropped kept more := by
  rw [passDelayed_eq _ time present] at ended ⊢
  have waiting : before.delayed = [] ++ before.delayed ++ [] := (append_nil _).symm
  obtain ⟨reached, after, starts, dropped, kept, more, passed, there, swept, due, unlike, still⟩ :=
    sweeps_runDelayed (keeps_runKept settings depth) before.delayed present numbered waiting ended
  exact ⟨reached, after, starts, dropped, kept, more, passed, there, swept, due, unlike,
    fun now standing => still now (fun _ absent => absurd absent not_mem_nil) standing⟩

/-- What everything that is due does to the blocks that run once. -/
theorem advances_runDue (time calendar : World → Float)
    (ended : hasEnded ((ofDepth settings depth).runDue time calendar world) = true) :
    ∃ after starts dropped kept more,
      (final ((ofDepth settings depth).runDue time calendar world)).scheduler =
        some after ∧
      (ofDepth settings depth).Advances time world before after starts dropped kept more := by
  obtain ⟨reached, between, starts, dropped, kept, more, passed, there, advanced⟩ :=
    advances_passDelayed settings depth present numbered time (hasEnded_of_bind ended)
  have registered := keeps_runLasting settings depth time calendar reached
  rw [runDue, bind_ok passed]
  obtain ⟨after, thereAfter, extended⟩ := World.SchedulerKept.exists_some registered there
  obtain ⟨moreLater, swept⟩ := advanced.extend extended
  exact ⟨after, starts, dropped, kept, more ++ moreLater, thereAfter, swept, advanced.due,
    advanced.unlike, advanced.still⟩

end

end Parlance
