import Parlance.Evaluate.Engine
import Parlance.Foreign.Attribute

/-!
Properties and indices: how they are read, and how a statement reads and writes the target that it
changes. Reading what is not there gives nothing.
-/

namespace Parlance

/-! ### Reading -/

namespace Heap

/-- The entry of a dictionary, or an attribute of any other value; nothing if there is none. -/
def property (heap : Heap) (value : Value) (name : String) : Value :=
  match value with
  | .dictionary address => (Entries.get? (heap.entries address) (.string name)).getD .nothing
  | _ => (heap.attribute? value name).getD .nothing

/-- The place that an index means, if it is one in the list. -/
def listPlace? (length : Nat) (index : Value) : Option Nat :=
  match index.int? with
  | some n => if 0 ≤ n && n < length then some n.toNat else none
  | none => none

/-- What stands at an index, nothing where no item is; no answer for values without items. -/
def item? (heap : Heap) (value index : Value) : Except Refusal (Option Value) :=
  match value with
  | .list address =>
    let items := heap.items address
    .ok (some (((listPlace? items.length index).bind fun place => items[place]?).getD .nothing))
  | .dictionary address => do
    let key ← index.asKey
    return some ((Entries.get? (heap.entries address) key).getD .nothing)
  | _ => .ok none

end Heap

namespace Engine

/-- Reads a property, as far as it is described which ones the value has. -/
def readProperty (value : Value) (name : String) : Run Value := do
  Run.within (value.describes name)
  Run.look fun world => world.heap.property value name

def property (engine : Engine) (object : Expr) (name : String) : Run Value := do
  match ← engine.evaluate object with
  | .nothing => Run.report (.propertyOfNothing name)
  | value => readProperty value name

def index (engine : Engine) (object place : Expr) : Run Value := do
  let value ← engine.evaluate object
  let position ← engine.evaluate place
  match ← Run.fromHeap fun heap => heap.item? value position with
  | some item => return item
  | none => Run.report (.notIndexable value.typeName)

/-! ### Targets -/

def variableValue (name : String) : Run Value := do
  match ← Run.look fun world => Scope.get? world.scopes name with
  | some value => return value
  | none => Run.fail (.unbound (.variableName name))

/-- The value that a statement which increases or decreases starts from. -/
def readTarget (engine : Engine) (target : Expr) : Run Value := do
  match target with
  | .identifier name => variableValue name
  | .property object name =>
    let value ← engine.evaluate object
    readProperty value name
  | .index object place =>
    let value ← engine.evaluate object
    let position ← engine.evaluate place
    return (← Run.fromHeap fun heap => heap.item? value position).getD .nothing
  | _ => Run.report (.unreadableTarget target.kindName)

/-- Sets a property of a value. Of the libraries that for mathematics is the only one whose members
nothing but calls by their names looks at. -/
def setProperty (owner : Value) (name : String) (value : Value) : Run Unit := do
  Run.within (owner.describes name)
  match owner with
  | .dictionary address =>
    let entries ← Run.look fun world => world.heap.entries address
    Run.put address (.dictionary (Entries.insert entries (.string name) value))
  | _ =>
    if (← Run.look fun world => world.heap.attribute? owner name).isNone then
      Run.report (.unsettableProperty name)
    else
      match owner with
      | .library .math =>
        modify fun world => { world with heap := world.heap.setMember .math name value }
      | .library _ => throw .outside
      | .foreign _ _ => throw .outside
      | _ => Run.refuse (owner.attributeIsFixed name)

/-- Sets an item of a list or an entry of a dictionary; every other value refuses. -/
def setItem (owner position value : Value) : Run Unit := do
  match owner with
  | .list address =>
    let items ← Run.look fun world => world.heap.items address
    match Heap.listPlace? items.length position with
    | some place => Run.put address (.list (items.set place value))
    | none => Run.report (.indexOutOfRange (← Run.text position))
  | .dictionary address =>
    let key ← Run.ofExcept position.asKey
    let entries ← Run.look fun world => world.heap.entries address
    Run.put address (.dictionary (Entries.insert entries key value))
  | _ => Run.report (.notIndexable owner.typeName)

/-- Evaluates what the target is a part of, and sets that part. -/
def writeTarget (engine : Engine) (target : Expr) (value : Value) : Run Unit := do
  match target with
  | .identifier name => Run.setVariable name value
  | .property object name =>
    let owner ← engine.evaluate object
    setProperty owner name value
  | .index object place =>
    let owner ← engine.evaluate object
    let position ← engine.evaluate place
    setItem owner position value
  | _ => Run.report (.unwritableTarget target.kindName)

/-- Evaluates the amount before the target is looked at. -/
def changeTarget (engine : Engine) (target : Expr) (kind : Change) (amount : Expr) :
    Run Unit := do
  match kind with
  | .becomes =>
    let value ← engine.evaluate amount
    engine.writeTarget target value
  | .increase =>
    let value ← engine.evaluate amount
    let current ← engine.readTarget target
    let changed ← Run.withHeap fun heap => heap.plus current value
    engine.writeTarget target changed
  | .decrease =>
    let value ← engine.evaluate amount
    let current ← engine.readTarget target
    let changed ← Run.withHeap fun heap => heap.minus current value
    engine.writeTarget target changed
  | .unknown _ => return ()

end Engine

end Parlance
