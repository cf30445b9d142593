import Parlance.Table

/-!
Scopes: the variables and functions that names stand for. Scopes lie inside one another; a name
that a scope does not know is looked for in the scope around it. A new scope begins with the
functions of the scope around it and without variables. Nothing is ever entered into a scope other
than the innermost one.
-/

namespace Parlance

/-- The names of one scope: variables with values in `α` and functions in `β`. -/
structure Scope (α β : Type) where
  bindings : Table α
  functions : Table β
  /-- The call that opened the scope; nothing for a scope that no call has opened. Every call has a
  number of its own, so that two scopes are told apart whatever names they hold. -/
  call : Option Nat := none
deriving Inhabited

namespace Scope

variable {α β : Type}

def empty : Scope α β := { bindings := [], functions := [] }

def set (scope : Scope α β) (name : String) (value : α) : Scope α β :=
  { scope with bindings := scope.bindings.insert name value }

def unset (scope : Scope α β) (name : String) : Scope α β :=
  { scope with bindings := scope.bindings.erase name }

def define (scope : Scope α β) (name : String) (function : β) : Scope α β :=
  { scope with functions := scope.functions.insert name function }

/-- The scope that begins inside another one. -/
def child (scope : Scope α β) : Scope α β :=
  { bindings := [], functions := scope.functions }

/-- The value of a variable in the first scope that knows it, innermost first. -/
def get? : List (Scope α β) → String → Option α
  | [], _ => none
  | scope :: around, name =>
    match scope.bindings.get? name with
    | some value => some value
    | none => get? around name

/-- The function of that name in the first scope that knows it, innermost first. -/
def function? : List (Scope α β) → String → Option β
  | [], _ => none
  | scope :: around, name =>
    match scope.functions.get? name with
    | some function => some function
    | none => function? around name

end Scope

end Parlance
