import Parlance.Proofs.Endings
import Parlance.Proofs.Formation

/-!
Nodes that belong where they stand. An expression or a statement fits if neither it nor anything
inside it is reported when it is run.
-/

namespace Parlance

open List

variable {α β : Type} {known : Expr → Prop} {expression : Expr} {statement : Stmt}
  {met : Symbol → Prop} {source : String} {program body : List Stmt} {next : Nat}

theorem Expr.each_iff (expression : Expr) :
    expression.Each known ↔ ∀ part ∈ expression.parts, known part := by
  cases expression with
  | dictionary | object | get | post => exact forall_mem_map.symm
  | _ => simp [Each, parts]

/-! ### What fits -/

/-- Whether an expression and everything inside it belong where they stand. -/
inductive Expr.Fits : Expr → Prop
  | intro {expression : Expr} : expression.misfits = [] →
    (∀ part ∈ expression.parts, part.Fits) → expression.Fits

theorem Expr.fits_iff : expression.Fits ↔ expression.misfits = [] ∧ expression.Each Expr.Fits := by
  rw [Expr.each_iff]
  exact ⟨fun ⟨fits, parts⟩ => ⟨fits, parts⟩, fun ⟨fits, parts⟩ => ⟨fits, parts⟩⟩

/-- Whether a statement and everything inside it belong where they stand. -/
inductive Stmt.Fits : Stmt → Prop
  | intro {statement : Stmt} : statement.misfits = [] → statement.Each Expr.Fits →
    (∀ body ∈ statement.blocks, ∀ inner ∈ body, inner.Fits) → statement.Fits

theorem Stmt.fits_iff : statement.Fits ↔ statement.misfits = [] ∧ statement.Each Expr.Fits ∧
      ∀ body ∈ statement.blocks, ∀ inner ∈ body, inner.Fits :=
  ⟨fun ⟨fits, parts, inside⟩ => ⟨fits, parts, inside⟩,
    fun ⟨fits, parts, inside⟩ => ⟨fits, parts, inside⟩⟩

def Stmt.FitAll (body : List Stmt) : Prop := ∀ statement ∈ body, statement.Fits

/-! ### What is read -/

theorem Expr.misfits_eq_nil (formed : expression.IsFormed met) : expression.misfits = [] := by
  cases expression with
  | binary left operator right =>
    cases operator with
    | unknown name => exact formed.elim
    | _ => rfl
  | unary operator operand =>
    cases formed
    rfl
  | misplaced kind => exact formed.elim
  | absent => exact formed.elim
  | _ => rfl

theorem Expr.targetMisfits_eq_nil {target : Expr} (isTarget : target.IsTarget) :
    target.targetMisfits = [] := by
  cases target with
  | identifier | property | index => rfl
  | _ => exact isTarget.elim

theorem Stmt.misfits_eq_nil (formed : statement.IsFormed met) : statement.misfits = [] := by
  cases statement with
  | assign target value => exact Expr.targetMisfits_eq_nil formed
  | change target kind value => exact Expr.targetMisfits_eq_nil formed.1
  | misplaced kind => exact formed.elim
  | absent => exact formed.elim
  | _ => rfl

/-- An expression that readers form fits, whatever symbols they meet. -/
theorem Expr.Grown.fits (grown : expression.Grown met) : expression.Fits := by
  induction grown with
  | intro formed _ ih =>
    exact .intro (Expr.misfits_eq_nil formed) ih

/-- The expressions that a statement evaluates are among its expressions, or inside its target. -/
theorem Stmt.each_fits (formed : statement.IsFormed met)
    (fit : ∀ expression ∈ statement.expressions, expression.Fits) : statement.Each Expr.Fits := by
  cases statement with
  | assign target value =>
    have all : target.Fits ∧ value.Fits := by simpa [expressions] using fit
    exact ⟨(Expr.fits_iff.mp all.1).2, all.2⟩
  | change target kind value =>
    cases value with
    | none => cases formed.2
    | some value =>
      have all : target.Fits ∧ value.Fits := by simpa [expressions] using fit
      exact ⟨(Expr.fits_iff.mp all.1).2, all.2⟩
  | remove list value place =>
    cases value <;> cases place <;> simp_all [expressions, Each, IsFormed]
  | choose subject cases =>
    obtain ⟨subjectFits, ends⟩ := forall_mem_cons.mp fit
    refine ⟨subjectFits, fun case member => ?_⟩
    have low := ends case.low (mem_flatMap.mpr ⟨case, member, mem_cons_self⟩)
    have high := ends case.high (mem_flatMap.mpr
      ⟨case, member, mem_cons_of_mem _ (mem_singleton_self _)⟩)
    exact ⟨low, high⟩
  | _ => simp_all [expressions, Each]

/-- A statement that readers form fits, whatever symbols they meet. -/
theorem Stmt.Grown.fits (grown : statement.Grown met) : statement.Fits := by
  induction grown with
  | intro formed parts _ ih =>
    refine .intro (Stmt.misfits_eq_nil formed) ?_ ih
    exact Stmt.each_fits formed fun expression member => (parts expression member).fits

/-- Any symbol can be met. -/
theorem onlyMeet_any (tokens : List Token) : Parse.OnlyMeet (fun _ => True) tokens :=
  fun _ _ => trivial

theorem fitAll_of_program? (read : program? source = some program) : Stmt.FitAll program := by
  obtain ⟨found, _, parsed⟩ := program?_eq_some.mp read
  exact fun statement member =>
    (Stmt.allGrown_of_parse (onlyMeet_any found) parsed statement member).fits

/-- The expression that a text begins with fits. -/
theorem fits_of_expression {world after : World}
    (read : Run.expression source world = .ok expression after) : expression.Fits := by
  obtain ⟨found, _, parsed⟩ := Run.exists_tokens read
  exact (Expr.grown_of_parseExpression (onlyMeet_any found) parsed).fits

/-! ### Places -/

/-- Each item that has its places was an item before. -/
theorem mem_placed (one : α → StateM Nat α) (all : List α → StateM Nat (List α))
    (empty : ∀ next, (all [] next).1 = []) (step : ∀ first rest next,
      (all (first :: rest) next).1 = (one first next).1 :: (all rest (one first next).2).1)
    {items : List α} {item : α} (member : item ∈ (all items next).1) :
    ∃ inner ∈ items, ∃ place, item = (one inner place).1 := by
  induction items generalizing next with
  | nil =>
    rw [empty] at member
    cases member
  | cons first rest ih =>
    rw [step] at member
    rcases mem_cons.mp member with rfl | later
    · exact ⟨first, mem_cons_self, next, rfl⟩
    · obtain ⟨inner, listed, place, same⟩ := ih later
      exact ⟨inner, mem_cons_of_mem _ listed, place, same⟩

theorem Stmt.mem_placedAll (member : statement ∈ (Stmt.placedAll body next).1) :
    ∃ inner ∈ body, ∃ place, statement = (inner.placed place).1 :=
  mem_placed Stmt.placed Stmt.placedAll (fun _ => rfl) (fun _ _ _ => rfl) member

theorem Case.mem_placedAll {cases : List Case} {case : Case}
    (member : case ∈ (Case.placedAll cases next).1) :
    ∃ inner ∈ cases, ∃ place, case = (inner.placed place).1 :=
  mem_placed Case.placed Case.placedAll (fun _ => rfl) (fun _ _ _ => rfl) member

theorem Route.mem_placedAll {routes : List Route} {route : Route}
    (member : route ∈ (Route.placedAll routes next).1) :
    ∃ inner ∈ routes, ∃ place, route = (inner.placed place).1 :=
  mem_placed Route.placed Route.placedAll (fun _ => rfl) (fun _ _ _ => rfl) member

theorem Stmt.blocks_placed (member : body ∈ ((statement.placed next).1).blocks) :
    ∃ old ∈ statement.blocks, ∃ place, body = (Stmt.placedAll old place).1 := by
  cases statement with
  | branch condition yes no =>
    rcases mem_cons.mp member with rfl | otherwise
    · exact ⟨yes, mem_cons_self, next, rfl⟩
    · cases no with
      | none => cases otherwise
      | some old =>
        rw [mem_singleton.mp otherwise]
        exact ⟨old, mem_cons_of_mem _ (mem_singleton_self old), _, rfl⟩
  | choose subject cases =>
    obtain ⟨case, listed, rfl⟩ := mem_map.mp member
    obtain ⟨inner, old, place, rfl⟩ := Case.mem_placedAll listed
    obtain ⟨low, high, block⟩ := inner
    exact ⟨block, mem_map.mpr ⟨_, old, rfl⟩, place, rfl⟩
  | server port routes =>
    obtain ⟨route, listed, rfl⟩ := mem_map.mp member
    obtain ⟨inner, old, place, rfl⟩ := Route.mem_placedAll listed
    obtain ⟨method, path, block⟩ := inner
    exact ⟨block, mem_map.mpr ⟨_, old, rfl⟩, place, rfl⟩
  | repeatForever old | repeatTimes _ old | repeatUntil _ old | doUntil old _ | define _ _ old
  | whenMouseClicks _ old | after _ _ old | every _ old | job _ _ old | cron _ old =>
    rw [mem_singleton.mp member]
    exact ⟨old, mem_singleton_self old, _, rfl⟩
  | _ => cases member

theorem Stmt.each_placed (each : statement.Each known) (next : Nat) :
    ((statement.placed next).1).Each known := by
  cases statement with
  | choose subject cases =>
    refine ⟨each.1, fun case member => ?_⟩
    obtain ⟨inner, listed, place, rfl⟩ := Case.mem_placedAll member
    obtain ⟨low, high, block⟩ := inner
    exact each.2 (.mk low high block) listed
  | _ => exact each

theorem Stmt.misfits_placed (statement : Stmt) (next : Nat) :
    ((statement.placed next).1).misfits = statement.misfits := by
  cases statement <;> rfl

theorem Stmt.Fits.placed (fits : statement.Fits) (next : Nat) :
    ((statement.placed next).1).Fits := by
  induction fits generalizing next with
  | intro fits parts _ ih =>
    refine .intro ((misfits_placed _ next).trans fits) (each_placed parts next) ?_
    intro body member inner listed
    obtain ⟨old, block, place, rfl⟩ := blocks_placed member
    obtain ⟨statement, inside, mark, rfl⟩ := mem_placedAll listed
    exact ih old block statement inside mark

theorem Stmt.fitAll_program (fit : FitAll program) : FitAll (Stmt.program program) := by
  intro statement member
  obtain ⟨inner, listed, rfl⟩ := mem_map.mp member
  exact (fit inner listed).placed 0

end Parlance
