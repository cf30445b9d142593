import Parlance.Value.Equality

/-!
What the operators of the language do with values. Numbers are calculated with, texts and lists are
joined by `plus` and repeated by `times`; everything else is refused. Results that are new lists get
new cells.
-/

namespace Parlance

namespace Heap

def newList (heap : Heap) (items : List Value) : Value × Heap :=
  (.list heap.next, heap.add (.list items))

def newDictionary (heap : Heap) (entries : List (Value × Value)) : Value × Heap :=
  (.dictionary heap.next, heap.add (.dictionary entries))

/-- The result of a calculation, marked if it is not a number. -/
def numeric (heap : Heap) (result : Except Refusal Number) : Except Refusal (Value × Heap) :=
  result.map fun value => heap.settle (.number value)

/-- The sum of numbers, and one after another for texts and lists. -/
def plus (heap : Heap) (left right : Value) : Except Refusal (Value × Heap) :=
  match left, right with
  | .string s, .string t => .ok (.string (s ++ t), heap)
  | .string _, _ => .error (.wrongType (.concatenation "str" right.typeName))
  | .list a, .list b => .ok (heap.newList (heap.items a ++ heap.items b))
  | .list _, _ => .error (.wrongType (.concatenation "list" right.typeName))
  | _, _ =>
    match left.number?, right.number? with
    | some x, some y => heap.numeric (x.add y)
    | _, _ => .error (.wrongType (.operands "+" left.typeName right.typeName))

def minus (heap : Heap) (left right : Value) : Except Refusal (Value × Heap) :=
  match left.number?, right.number? with
  | some x, some y => heap.numeric (x.subtract y)
  | _, _ => .error (.wrongType (.operands "-" left.typeName right.typeName))

def repeated {α : Type} (items : List α) (count : Nat) : List α :=
  if items.isEmpty then [] else (List.replicate count items).flatten

/-- A text several times over, put together from halves. -/
def repeatedText (text : String) (count : Nat) : String :=
  if count = 0 then ""
  else
    let half := repeatedText text (count / 2)
    if count % 2 = 0 then half ++ half else half ++ half ++ text
termination_by count
decreasing_by omega

/-- Counts beyond this cannot number the characters of a text or the items of a list. -/
def countLimit : Int := Nat.pow 2 63

/-- Texts of so many characters and lists of so many items are not kept in memory. -/
def memoryLimit : Nat := Nat.pow 2 30

def repetitions (count : Value) : Except Refusal Int :=
  match count.int? with
  | some n =>
    if n < countLimit && -countLimit ≤ n then .ok n else .error (.outOfRange .indexSize)
  | none => .error (.wrongType (.repetition count.typeName))

/-- A text or a list, repeated; a count below zero is zero. -/
def repeatValue (heap : Heap) (sequence count : Value) : Except Refusal (Value × Heap) := do
  let n ← repetitions count
  match sequence with
  | .string s =>
    if countLimit ≤ s.length * n then .error (.outOfRange .textLength)
    else if memoryLimit ≤ s.length * n.toNat then .error .memory
    else return (.string (repeatedText s n.toNat), heap)
  | .list a =>
    let items := heap.items a
    if memoryLimit ≤ items.length * n.toNat then .error .memory
    else return heap.newList (repeated items n.toNat)
  | _ => .error (.wrongType (.operands "*" sequence.typeName count.typeName))

def isSequence : Value → Bool
  | .string _ | .list _ => true
  | _ => false

/-- The product of numbers, and repetition of texts and lists. -/
def times (heap : Heap) (left right : Value) : Except Refusal (Value × Heap) :=
  if isSequence left then heap.repeatValue left right
  else if isSequence right then heap.repeatValue right left
  else
    match left.number?, right.number? with
    | some x, some y => heap.numeric (x.multiply y)
    | _, _ => .error (.wrongType (.operands "*" left.typeName right.typeName))

def dividedBy (heap : Heap) (left right : Value) : Except Refusal (Value × Heap) :=
  match left.number?, right.number? with
  | some x, some y =>
    if y.isZero then .error .divisionByZero else heap.numeric (x.divide y)
  | _, some y =>
    if y.isZero then .error .divisionByZero
    else .error (.wrongType (.operands "/" left.typeName right.typeName))
  | _, _ => .error (.wrongType (.operands "/" left.typeName right.typeName))

/-! ### Conversions -/

/-- A number without its fraction, or the whole number that a text reads as. -/
def toInt : Value → Except Refusal Int
  | .string s =>
    match Decimal.readInteger s with
    | .ok n => .ok n
    | .error .malformed => .error (.badValue (.integerText s))
    | .error (.tooLong digits) => .error (.badValue (.integerTextLong digits))
  | value =>
    match value.number? with
    | some x => x.truncate
    | none => .error (.wrongType (.integerArgument value.typeName))

def toFloat : Value → Except Refusal Float
  | .string s =>
    match Decimal.readFloat? s with
    | some x => .ok x
    | none => .error (.badValue (.floatText s))
  | value =>
    match value.number? with
    | some x => x.toFloat
    | none => .error (.wrongType (.floatArgument value.typeName))

/-- The things that a value gives when it is gone through: the items of a list, the characters of a
text, the keys of a dictionary. -/
def iterate (heap : Heap) : Value → Except Refusal (List Value)
  | .list a => .ok (heap.items a)
  | .string s => .ok (s.toList.map fun c => .string c.toString)
  | .dictionary a => .ok ((heap.entries a).map Prod.fst)
  | value => .error (.wrongType (.notIterable value.typeName))

end Heap

end Parlance
