import Parlance.Proofs.Plain

/-!
The parts of expressions and statements, and the nodes that do not belong where they stand. Such
nodes can be built by hand; a meaning reports them when it comes to them, and the reports are listed
here for each node.
-/

namespace Parlance

/-! ### Parts -/

/-- Whether something holds of the expressions that an expression is made of. -/
def Expr.Each (known : Expr → Prop) : Expr → Prop
  | .binary left _ right => known left ∧ known right
  | .unary _ operand => known operand
  | .property owner _ => known owner
  | .index owner place => known owner ∧ known place
  | .list elements => ∀ element ∈ elements, known element
  | .dictionary pairs | .object pairs | .get _ pairs | .post _ pairs => ∀ pair ∈ pairs, known pair.2
  | .call _ arguments | .foreignCall _ arguments => ∀ argument ∈ arguments, known argument
  | .find value container => known value ∧ known container
  | .filter items condition => known items ∧ known condition
  | .map items transform => known items ∧ known transform
  | .split subject _ | .join subject _ | .replace subject _ _ | .contains subject _ => known subject
  | .slice subject start stop => known subject ∧ known start ∧ known stop
  | .createCanvas width height => known width ∧ known height
  | _ => True

/-- Whether something holds of the expressions that a statement evaluates by itself. A target is not
evaluated, but what it is made of is. -/
def Stmt.Each (known : Expr → Prop) : Stmt → Prop
  | .assign target value => target.Each known ∧ known value
  | .change target _ value => target.Each known ∧ known (value.getD .absent)
  | .say parts => ∀ part ∈ parts, known part
  | .print value | .showTable _ value | .writeFile value _ => known value
  | .branch condition _ _ | .repeatTimes condition _ | .repeatUntil condition _
  | .doUntil _ condition => known condition
  | .giveBack value => ∀ result ∈ value, known result
  | .choose subject cases => known subject ∧ ∀ case ∈ cases, known case.low ∧ known case.high
  | .add list value => known list ∧ known value
  | .remove list value place => known list ∧ known (place.getD (value.getD .absent))
  | .sort list | .reverse list | .shuffle list => known list
  | .drawCircle x y size _ => known x ∧ known y ∧ known size
  | .drawRectangle x₁ y₁ x₂ y₂ _ | .drawLine x₁ y₁ x₂ y₂ _ =>
    known x₁ ∧ known y₁ ∧ known x₂ ∧ known y₂
  | .drawText content x y size _ => known content ∧ known x ∧ known y ∧ known size
  | .whenMouseClicks subject _ | .wait subject | .after _ subject _ | .every subject _
  | .server subject _ | .job _ subject _ => known subject
  | .call _ arguments => ∀ argument ∈ arguments, known argument
  | _ => True

variable {known : Expr → Prop} {cause : Report}

theorem Expr.each_of_forall (all : ∀ expression, known expression) (expression : Expr) :
    expression.Each known := by
  cases expression <;> simp [Each, all]

theorem Stmt.each_of_forall (all : ∀ expression, known expression) (statement : Stmt) :
    statement.Each known := by
  cases statement <;> simp [Each, Expr.each_of_forall, all]

/-! ### Misfits -/

/-- What is reported of an expression that is read or written as a target, but is none. -/
def Expr.targetMisfits : Expr → List Report
  | .identifier _ | .property _ _ | .index _ _ => []
  | target => [.unreadableTarget target.kindName, .unwritableTarget target.kindName]

/-- What is reported of an expression that does not belong where it stands. -/
def Expr.misfits : Expr → List Report
  | .binary _ (.unknown name) _ => [.unknownBinary name]
  | .unary (.unknown name) _ => [.unknownUnary name]
  | .misplaced kind => [.unknownExpression kind]
  | .absent => [.unknownExpression Expr.absent.kindName]
  | _ => []

/-- What is reported of a statement that does not belong where it stands. -/
def Stmt.misfits : Stmt → List Report
  | .assign target _ | .change target _ _ => target.targetMisfits
  | .misplaced kind => [.unknownStatement kind]
  | .absent => [.unknownStatement Expr.absent.kindName]
  | _ => []

theorem Expr.isMisfit_of_mem_targetMisfits {target : Expr} (member : cause ∈ target.targetMisfits) :
    cause.isMisfit = true := by
  unfold targetMisfits at member
  split at member <;> simp at member
  rcases member with rfl | rfl <;> rfl

theorem Expr.isMisfit_of_mem_misfits {expression : Expr} (member : cause ∈ expression.misfits) :
    cause.isMisfit = true := by
  unfold misfits at member
  split at member <;> simp at member <;> rw [member] <;> rfl

theorem Stmt.isMisfit_of_mem_misfits {statement : Stmt} (member : cause ∈ statement.misfits) :
    cause.isMisfit = true := by
  unfold misfits at member
  split at member
  · exact Expr.isMisfit_of_mem_targetMisfits member
  · exact Expr.isMisfit_of_mem_targetMisfits member
  · rw [List.mem_singleton.mp member]
    rfl
  · rw [List.mem_singleton.mp member]
    rfl
  · cases member

end Parlance
