import Parlance.Evaluate.Engine

/-!
Operators. Both operands are always evaluated. `and` and `or` give one of their operands.
-/

namespace Parlance

def Relation.decide (relation : Relation) (left right : Value) : Run Value := do
  return .boolean (← Run.fromHeap fun heap => heap.compare relation left right)

/-- What an operator gives for two values. -/
def BinaryOperator.apply (operator : BinaryOperator) (left right : Value) : Run Value := do
  match operator with
  | .plus => Run.withHeap fun heap => heap.plus left right
  | .minus => Run.withHeap fun heap => heap.minus left right
  | .times => Run.withHeap fun heap => heap.times left right
  | .dividedBy => Run.withHeap fun heap => heap.dividedBy left right
  | .equals => Run.look fun world => .boolean (world.heap.equal left right)
  | .doesNotEqual => Run.look fun world => .boolean (!world.heap.equal left right)
  | .isGreaterThan => Relation.greater.decide left right
  | .isLessThan => Relation.less.decide left right
  | .isAtLeast => Relation.greaterEqual.decide left right
  | .isAtMost => Relation.lessEqual.decide left right
  | .and => return if ← Run.isTrue left then right else left
  | .or => return if ← Run.isTrue left then left else right
  | .unknown name => Run.report (.unknownBinary name)

def UnaryOperator.apply (operator : UnaryOperator) (operand : Value) : Run Value := do
  match operator with
  | .not => return .boolean (!(← Run.isTrue operand))
  | .unknown name => Run.report (.unknownUnary name)

end Parlance
