import Parlance.Evaluate.Engine

/-!
Searching in values, choosing and changing the items of a list, and parts of texts.

While a condition or a change is evaluated for an item, the name `item` stands for it. Afterwards
the name stands for what it stood for before, or for nothing at all.
-/

namespace Parlance

/-! ### Searching -/

/-- Whether a value is in a container. A dictionary is searched by values first and then by keys. -/
def Heap.found (heap : Heap) (value container : Value) : Except Refusal Bool :=
  match container with
  | .list address => .ok ((heap.items address).any (heap.matchesItem value))
  | .string text => do
    return Text.occursIn (← heap.text value).toList text.toList
  | .dictionary address =>
    let entries := heap.entries address
    if entries.any fun entry => heap.matchesItem value entry.2 then .ok true
    else do
      let key ← value.asKey
      return (Entries.get? entries key).isSome
  | _ => .ok false

/-! ### Items of a list -/

namespace Run

def itemName : String := "item"

/-- Runs with `item` standing for a value. What the name stood for before comes back when the run
comes to its end. -/
def withItem {α : Type} (value : Value) (action : Run α) : Run α := do
  let before ← look fun world => (world.scope.bindings.get? itemName).getD .nothing
  setVariable itemName value
  let result ← action
  match before with
  | .nothing => changeScope fun scope => scope.unset itemName
  | old => setVariable itemName old
  return result

/-- Looks at the items of a list, one after another, from a place on. The list is looked at anew for
every item, since it may change meanwhile. What is kept is collected, latest first. -/
def overItems (address : Nat) (keep : Value → Run (Option Value)) :
    (rounds place : Nat) → (kept : List Value) → Run (List Value)
  | 0, _, _ => throw .exhausted
  | rounds + 1, place, kept => do
    match ← look fun world => (world.heap.items address)[place]? with
    | none => return kept.reverse
    | some item =>
      match ← keep item with
      | some value => overItems address keep rounds (place + 1) (value :: kept)
      | none => overItems address keep rounds (place + 1) kept

end Run

namespace Engine

/-- The items for which a condition holds, as a new list. -/
def filter (engine : Engine) (list condition : Expr) : Run Value := do
  let address ← engine.listAddress "filter" list
  let keep (item : Value) : Run (Option Value) := do
    let verdict ← Run.withItem item (engine.evaluate condition)
    return if ← Run.isTrue verdict then some item else none
  Run.newList (← Run.overItems address keep engine.rounds 0 [])

/-- What an expression gives for each item, as a new list. -/
def map (engine : Engine) (list transform : Expr) : Run Value := do
  let address ← engine.listAddress "map" list
  let keep (item : Value) : Run (Option Value) := do
    return some (← Run.withItem item (engine.evaluate transform))
  Run.newList (← Run.overItems address keep engine.rounds 0 [])

/-! ### Texts -/

def text (engine : Engine) (expression : Expr) : Run String := do
  Run.text (← engine.evaluate expression)

/-- The pieces of a text between the places of a separator, as a new list. -/
def split (engine : Engine) (subject : Expr) (separator : String) : Run Value := do
  let whole ← engine.text subject
  if separator.isEmpty then Run.fail (.badValue .emptySeparator)
  else
    let pieces := Text.pieces separator.toList whole.toList
    Run.newList (pieces.map fun piece => .string (String.ofList piece))

def join (engine : Engine) (list : Expr) (separator : String) : Run Value := do
  let address ← engine.listAddress "join" list
  let texts ← Run.fromHeap fun heap => (heap.items address).mapM heap.text
  return .string (separator.intercalate texts)

def replace (engine : Engine) (subject : Expr) (old new : String) : Run Value := do
  let whole ← engine.text subject
  return .string (String.ofList (Text.replaced old.toList new.toList whole.toList))

def contains (engine : Engine) (subject : Expr) (pattern : String) : Run Value := do
  let whole ← engine.text subject
  return .boolean (Text.occursIn pattern.toList whole.toList)

/-- A part of a text, by whole numbers that may count from its end. -/
def slice (engine : Engine) (subject start stop : Expr) : Run Value := do
  let whole ← engine.text subject
  let first ← engine.whole start
  let last ← engine.whole stop
  return .string (String.ofList (Text.slice whole.toList first last))

end Engine

end Parlance
