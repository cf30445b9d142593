import Parlance.Number

/-!
Expressions. Operators that the language does not know, and nodes that stand where no expression
belongs, can be built by hand; evaluating them is an error, and the error needs their names.
-/

namespace Parlance

/-- Operators between two operands, and any other name in their place. -/
inductive BinaryOperator where
  | plus | minus | times | dividedBy
  | equals | doesNotEqual | isGreaterThan | isLessThan | isAtLeast | isAtMost
  | and | or
  | unknown (name : String)
deriving Repr, DecidableEq, Inhabited

inductive UnaryOperator where
  | not
  | unknown (name : String)
deriving Repr, DecidableEq, Inhabited

/-- Expressions. -/
inductive Expr where
  | number (value : Number)
  /-- A double that is not a number. No text can write one; each has a place of its own. -/
  | undefined (place : Nat)
  | string (value : String)
  | boolean (value : Bool)
  | nothing
  | pi
  | identifier (name : String)
  | binary (left : Expr) (operator : BinaryOperator) (right : Expr)
  | unary (operator : UnaryOperator) (operand : Expr)
  | property (object : Expr) (name : String)
  | index (object : Expr) (index : Expr)
  | list (elements : List Expr)
  | dictionary (pairs : List (String × Expr))
  | object (properties : List (String × Expr))
  | call (name : String) (arguments : List Expr)
  | find (value container : Expr)
  | filter (list condition : Expr)
  | map (list transform : Expr)
  | split (text : Expr) (delimiter : String)
  | join (list : Expr) (delimiter : String)
  | replace (text : Expr) (old new : String)
  | contains (text : Expr) (pattern : String)
  | slice (text start stop : Expr)
  | get (address : String) (parameters : List (String × Expr))
  | post (address : String) (parameters : List (String × Expr))
  | fileText (name : String)
  | createCanvas (width height : Expr)
  | foreignCall (path : String) (arguments : List Expr)
  | misplaced (name : String)
  | absent
deriving Inhabited

/-- How messages call an expression that does not belong where it stands. -/
def Expr.kindName : Expr → String
  | .number _ => "NumberLiteral"
  | .undefined _ => "NumberLiteral"
  | .string _ => "StringLiteral"
  | .boolean _ => "BooleanLiteral"
  | .nothing => "NothingLiteral"
  | .pi => "PiLiteral"
  | .identifier _ => "Identifier"
  | .binary .. => "BinaryOp"
  | .unary .. => "UnaryOp"
  | .property .. => "PropertyAccess"
  | .index .. => "IndexAccess"
  | .list _ => "ListLiteral"
  | .dictionary _ => "DictionaryLiteral"
  | .object _ => "ObjectLiteral"
  | .call .. => "FunctionCall"
  | .find .. => "FindExpression"
  | .filter .. => "FilterExpression"
  | .map .. => "MapExpression"
  | .split .. => "StringSplit"
  | .join .. => "StringJoin"
  | .replace .. => "StringReplace"
  | .contains .. => "StringFind"
  | .slice .. => "StringSlice"
  | .get .. => "GetRequest"
  | .post .. => "PostRequest"
  | .fileText _ => "ReadFile"
  | .createCanvas .. => "CreateCanvas"
  | .foreignCall .. => "PythonCall"
  | .misplaced name => name
  | .absent => "NoneType"

end Parlance
