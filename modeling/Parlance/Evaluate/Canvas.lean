import Parlance.Evaluate.Engine

/-!
Drawing and mouse clicks. What is drawn is told to the output.
-/

namespace Parlance

namespace Run

/-- Keeps a block for mouse clicks. Without a screen it is only told. -/
def keepForClicks (canvas : Value) (block : Block) : Run Unit := fun world =>
  match world.screen with
  | some handlers =>
    writeLine "[event] registered mouse click handler"
      { world with screen := some (handlers ++ [⟨canvas, block⟩]) }
  | none => writeLine "[event] registered mouse click handler for canvas" world

end Run

namespace Engine

def coordinates (engine : Engine) (expressions : List Expr) : Run (List String) := do
  let numbers ← expressions.mapM engine.whole
  numbers.mapM fun number => Run.text (.int number)

def drawCircle (settings : Settings) (engine : Engine) (x y size : Expr) (color : String) :
    Run Unit := do
  Run.check settings .graphics
  match ← engine.coordinates [x, y, size] with
  | [a, b, s] =>
    Run.writeLine ("[canvas] circle x=" ++ a ++ " y=" ++ b ++ " size=" ++ s ++ " color=" ++ color)
  | _ => return ()

def drawBetween (settings : Settings) (engine : Engine) (shape : String)
    (x₁ y₁ x₂ y₂ : Expr) (color : String) : Run Unit := do
  Run.check settings .graphics
  match ← engine.coordinates [x₁, y₁, x₂, y₂] with
  | [a, b, c, d] =>
    Run.writeLine ("[canvas] " ++ shape ++ " from " ++ a ++ "," ++ b ++ " to " ++ c ++ "," ++ d
      ++ " color=" ++ color)
  | _ => return ()

def drawText (settings : Settings) (engine : Engine) (content x y size : Expr) (color : String) :
    Run Unit := do
  Run.check settings .graphics
  let text ← Run.text (← engine.evaluate content)
  match ← engine.coordinates [x, y, size] with
  | [a, b, s] =>
    Run.writeLine ("[canvas] text '" ++ text ++ "' at " ++ a ++ "," ++ b ++ " size=" ++ s
      ++ " color=" ++ color)
  | _ => return ()

def whenMouseClicks (settings : Settings) (engine : Engine) (canvas : Expr) (body : List Stmt) :
    Run Unit := do
  Run.check settings .graphics
  let value ← engine.evaluate canvas
  Run.keepForClicks value (← Run.keep body)

end Engine

end Parlance
