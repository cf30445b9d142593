import Parlance.Proofs.Plain

/-!
Where signals may be raised. A statement that leaves a loop belongs inside a loop, and a statement
that gives back a value belongs inside a function.
-/

namespace Parlance

/-- What stands around a statement. -/
structure Standing where
  inLoop : Bool
  inFunction : Bool

namespace Standing

def outside : Standing := ⟨false, false⟩

def inBody : Standing := ⟨false, true⟩

def looped (standing : Standing) : Standing := { standing with inLoop := true }

/-- Whether something around a statement waits for the signal, if the exit is one that has to be
waited for. -/
def permits (standing : Standing) : Exit → Bool
  | .signal .breakLoop | .signal .continueLoop => standing.inLoop
  | .signal (.giveBack _) => standing.inFunction
  | _ => true

theorem permits_of_isQuiet (standing : Standing) {exit : Exit} (quiet : exit.isQuiet = true) :
    standing.permits exit = true := by
  cases exit with
  | signal signal =>
    cases signal with
    | stop => rfl
    | _ => cases quiet
  | _ => rfl

/-- Outside everything only what nobody waits for is permitted. -/
theorem permits_outside (exit : Exit) : outside.permits exit = exit.isQuiet := by
  cases exit with
  | signal signal => cases signal <;> rfl
  | _ => rfl

end Standing

/-! ### Scoped statements -/

mutual

/-- Whether all signals in a statement are raised where they may be. -/
def Stmt.isScoped (standing : Standing) : Stmt → Bool
  | .branch _ yes no => Stmt.areScoped standing yes && Stmt.areScopedIfAny standing no
  | .repeatForever body | .repeatTimes _ body | .repeatUntil _ body | .doUntil body _ =>
    Stmt.areScoped standing.looped body
  | .breakLoop | .continueLoop => standing.inLoop
  | .giveBack _ => standing.inFunction
  | .define _ _ body => Stmt.areScoped .inBody body
  | .choose _ cases => Case.areScoped standing cases
  | .whenMouseClicks _ body | .after _ _ body | .every _ body | .job _ _ body | .cron _ body =>
    Stmt.areScoped .outside body
  | .server _ routes => Route.areScoped routes
  | _ => true

/-- Whether all statements of a block are scoped. -/
def Stmt.areScoped (standing : Standing) : List Stmt → Bool
  | [] => true
  | statement :: rest => statement.isScoped standing && Stmt.areScoped standing rest

/-- Whether all statements of a block that may be missing are scoped. -/
def Stmt.areScopedIfAny (standing : Standing) : Option (List Stmt) → Bool
  | none => true
  | some body => Stmt.areScoped standing body

def Case.isScoped (standing : Standing) : Case → Bool
  | .mk _ _ body => Stmt.areScoped standing body

/-- Whether the blocks of all cases are scoped. -/
def Case.areScoped (standing : Standing) : List Case → Bool
  | [] => true
  | case :: rest => case.isScoped standing && Case.areScoped standing rest

def Route.isScoped : Route → Bool
  | .mk _ _ body => Stmt.areScoped .outside body

/-- Whether the blocks of all routes are scoped. -/
def Route.areScoped : List Route → Bool
  | [] => true
  | route :: rest => route.isScoped && Route.areScoped rest

end

theorem Stmt.areScoped_iff (standing : Standing) (body : List Stmt) :
    Stmt.areScoped standing body = true ↔
      ∀ statement ∈ body, statement.isScoped standing = true := by
  induction body with
  | nil => simp [Stmt.areScoped]
  | cons statement rest ih => simp [Stmt.areScoped, ih]

theorem Case.areScoped_iff (standing : Standing) (cases : List Case) :
    Case.areScoped standing cases = true ↔
      ∀ case ∈ cases, Stmt.areScoped standing case.body = true := by
  induction cases with
  | nil => simp [Case.areScoped]
  | cons case rest ih =>
    cases case
    simp [Case.areScoped, Case.isScoped, Case.body, ih]

theorem Route.areScoped_iff (routes : List Route) : Route.areScoped routes = true ↔
      ∀ route ∈ routes, Stmt.areScoped .outside route.body = true := by
  induction routes with
  | nil => simp [Route.areScoped]
  | cons route rest ih =>
    cases route
    simp [Route.areScoped, Route.isScoped, Route.body, ih]

/-! ### Places do not matter -/

mutual

theorem Stmt.isScoped_placed (standing : Standing) (statement : Stmt) (next : Nat) :
    ((statement.placed next).1).isScoped standing = statement.isScoped standing := by
  cases statement with
  | branch condition yes no =>
    have first := Stmt.areScoped_placedAll standing yes next
    have second := Stmt.areScopedIfAny_placedOption standing no (Stmt.placedAll yes next).2
    exact congrArg₂ (· && ·) first second
  | repeatForever body | repeatTimes _ body | repeatUntil _ body | doUntil body _ =>
    exact Stmt.areScoped_placedAll standing.looped body next
  | define name parameters body => exact Stmt.areScoped_placedAll .inBody body next
  | choose subject cases => exact Case.areScoped_placedAll standing cases next
  | after place seconds body => exact Stmt.areScoped_placedAll .outside body (next + 1)
  | whenMouseClicks _ body | every _ body | job _ _ body | cron _ body =>
    exact Stmt.areScoped_placedAll .outside body next
  | server port routes => exact Route.areScoped_placedAll routes next
  | _ => rfl

theorem Stmt.areScoped_placedAll (standing : Standing) (body : List Stmt) (next : Nat) :
    Stmt.areScoped standing (Stmt.placedAll body next).1 = Stmt.areScoped standing body := by
  cases body with
  | nil => rfl
  | cons statement rest =>
    have first := Stmt.isScoped_placed standing statement next
    have second := Stmt.areScoped_placedAll standing rest (statement.placed next).2
    exact congrArg₂ (· && ·) first second

theorem Stmt.areScopedIfAny_placedOption (standing : Standing) (body : Option (List Stmt))
    (next : Nat) :
    Stmt.areScopedIfAny standing (Stmt.placedOption body next).1 =
      Stmt.areScopedIfAny standing body := by
  cases body with
  | none => rfl
  | some body => exact Stmt.areScoped_placedAll standing body next

theorem Case.isScoped_placed (standing : Standing) (case : Case) (next : Nat) :
    ((case.placed next).1).isScoped standing = case.isScoped standing := by
  cases case with
  | mk low high body => exact Stmt.areScoped_placedAll standing body next

theorem Case.areScoped_placedAll (standing : Standing) (cases : List Case) (next : Nat) :
    Case.areScoped standing (Case.placedAll cases next).1 = Case.areScoped standing cases := by
  cases cases with
  | nil => rfl
  | cons case rest =>
    have first := Case.isScoped_placed standing case next
    have second := Case.areScoped_placedAll standing rest (case.placed next).2
    exact congrArg₂ (· && ·) first second

theorem Route.isScoped_placed (route : Route) (next : Nat) :
    (route.placed next).1.isScoped = route.isScoped := by
  cases route with
  | mk method path body => exact Stmt.areScoped_placedAll .outside body next

theorem Route.areScoped_placedAll (routes : List Route) (next : Nat) :
    Route.areScoped (Route.placedAll routes next).1 = Route.areScoped routes := by
  cases routes with
  | nil => rfl
  | cons route rest =>
    have first := Route.isScoped_placed route next
    have second := Route.areScoped_placedAll rest (route.placed next).2
    exact congrArg₂ (· && ·) first second

end

/-- Giving a program its places leaves it scoped or not. -/
theorem Stmt.areScoped_program (standing : Standing) (program : List Stmt) :
    Stmt.areScoped standing (Stmt.program program) = Stmt.areScoped standing program := by
  induction program with
  | nil => rfl
  | cons statement rest ih =>
    exact congrArg₂ (· && ·) (Stmt.isScoped_placed standing statement 0) ih

end Parlance
