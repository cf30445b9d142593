import Parlance.Fault

/-!
Putting items in order, equal ones in the order they had. The test of order may contradict itself, and
which items are compared, and in which turn, then decides where things end up. The items are cut into
runs that rise or fall already. Short runs are filled up to a least length. Runs that lie side by
side are merged, the shorter of the two against the longer from the end where it lies; while one of
them keeps going first, the merge looks ahead in growing steps. Two items need not be comparable: the
items are then left in the order that has been reached.
-/

namespace Parlance.Sort

variable {α β σ τ : Type}

/-! ### Comparisons that fail -/

/-- Why a comparison fails, and what has been reached until then. -/
structure Stopped (σ : Type) where
  cause : Refusal
  reached : σ

/-- A result that leaves things as they are reached where it fails. -/
def reaching (reached : σ) (result : Except Refusal β) : Except (Stopped σ) β :=
  result.mapError fun cause => ⟨cause, reached⟩

/-- A result for a part, as one for the whole. -/
def within (whole : σ → τ) (result : Except (Stopped σ) β) : Except (Stopped τ) β :=
  result.mapError fun stopped => ⟨stopped.cause, whole stopped.reached⟩

/-! ### Runs -/

/-- Takes items into a run as long as the test `joins` holds of the next item and the one before it.
The rest follows the run. -/
def runAfter (joins : α → α → Except Refusal Bool) (run : Array α) (last : α) :
    List α → Except Refusal (Array α × List α)
  | [] => .ok (run, [])
  | item :: rest => do
    if ← joins item last then runAfter joins (run.push item) item rest
    else return (run, item :: rest)

/-- The run at the beginning, and what follows it. A run that falls at every step is turned
round. -/
def firstRun (less : α → α → Except Refusal Bool) : List α → Except Refusal (Array α × List α)
  | [] => .ok (#[], [])
  | [item] => .ok (#[item], [])
  | first :: second :: rest => do
    if ← less second first then
      let (run, others) ← runAfter less #[first, second] second rest
      return (run.reverse, others)
    else
      runAfter (fun item last => (less item last).map (!·)) #[first, second] second rest

/-- The place for an item among items in order, after those that are equal to it, found by halving.
The count bounds the halvings. -/
def placeFor (less : α → α → Except Refusal Bool) (items : Array α) (item : α) :
    (count low high : Nat) → Except Refusal Nat
  | 0, low, _ => .ok low
  | count + 1, low, high =>
    if low < high then
      let middle := low + (high - low) / 2
      match items[middle]? with
      | some other => do
        if ← less item other then placeFor less items item count low middle
        else placeFor less items item count (middle + 1) high
      | none => .ok low
    else .ok low

/-- Puts more items into items in order, one after another. -/
def insertAll (less : α → α → Except Refusal Bool) (items : Array α) :
    List α → Except (Stopped (Array α)) (Array α)
  | [] => .ok items
  | item :: rest => do
    let place ← reaching (items ++ item :: rest)
      (placeFor less items item (items.size + 1) 0 items.size)
    insertAll less (items.insertIdxIfInBounds place item) rest

/-- The least length of a run among so many items: their number divided by a power of two until it
is below 64, rounded up. -/
def leastRun (size : Nat) (broken : Bool) : Nat :=
  if 64 ≤ size then leastRun (size / 2) (broken || size % 2 = 1)
  else if broken then size + 1
  else size
termination_by size
decreasing_by omega

/-! ### Looking ahead -/

/-- The end of a run from which it is gone through. -/
inductive Side where
  | front | back
deriving Repr, DecidableEq

/-- The middle between two places, rounded toward the beginning of the run. -/
def Side.middle (side : Side) (low high : Nat) : Nat :=
  match side with
  | .front => low + (high - low) / 2
  | .back => high - 1 - (high - low) / 2

/-- What is left of a run, from the side where the merge begins. -/
structure Rest (α : Type) where
  items : Array α
  taken : Nat

namespace Rest

def size (rest : Rest α) : Nat := rest.items.size - rest.taken

def head? (rest : Rest α) : Option α := rest.items[rest.taken]?

def toArray (rest : Rest α) : Array α := rest.items.extract rest.taken rest.items.size

def first (rest : Rest α) (count : Nat) : Array α :=
  rest.items.extract rest.taken (rest.taken + count)

def skip (rest : Rest α) (count : Nat) : Rest α := { rest with taken := rest.taken + count }

/-- Whether the item at a distance passes a test; there is none behind the end. -/
def passes (rest : Rest α) (test : α → Except Refusal Bool) (distance : Nat) : Except Refusal Bool :=
  match rest.items[rest.taken + distance]? with
  | some item => test item
  | none => .ok false

end Rest

/-- Looks at the distances 1, 3, 7 and so on: the last that passed, and the first that did not or
the size. The count bounds the looks. -/
def lookAhead (passes : Nat → Except Refusal Bool) (size : Nat) :
    (count passed ahead : Nat) → Except Refusal (Nat × Nat)
  | 0, passed, _ => .ok (passed, size)
  | count + 1, passed, ahead =>
    if ahead < size then do
      if ← passes ahead then lookAhead passes size count ahead (2 * ahead + 1)
      else return (passed, ahead)
    else .ok (passed, size)

/-- Where passing ends between two distances, found by halving. The count bounds the halvings. -/
def narrow (passes : Nat → Except Refusal Bool) (side : Side) :
    (count low high : Nat) → Except Refusal Nat
  | 0, low, _ => .ok low
  | count + 1, low, high =>
    if low < high then do
      let middle := side.middle low high
      if ← passes middle then narrow passes side count (middle + 1) high
      else narrow passes side count low middle
    else .ok low

/-- How many of the next items pass a test, if those that do come first. -/
def leading (side : Side) (test : α → Except Refusal Bool) (rest : Rest α) : Except Refusal Nat := do
  let passes := rest.passes test
  if ← passes 0 then
    let (passed, ahead) ← lookAhead passes rest.size rest.size 0 1
    narrow passes side (rest.size + 1) (passed + 1) ahead
  else return 0

/-! ### Merging -/

/-- Two runs on their way into one. The guest is the shorter; its last item waits until the host is
used up. -/
structure Merge (α : Type) where
  guest : Rest α
  host : Rest α
  merged : Array α

namespace Merge

def isFinished (merge : Merge α) : Bool := merge.host.size = 0 || merge.guest.size ≤ 1

/-- The items of a merge that is finished. -/
def result (merge : Merge α) : Array α :=
  merge.merged ++ merge.host.toArray ++ merge.guest.toArray

/-- The items in the order that they have if the merge goes no further. -/
def unfinished (merge : Merge α) : Array α :=
  merge.merged ++ merge.guest.toArray ++ merge.host.toArray

def takeGuest (merge : Merge α) (count : Nat) : Merge α :=
  { merge with
    guest := merge.guest.skip count
    merged := merge.merged ++ merge.guest.first count }

def takeHost (merge : Merge α) (count : Nat) : Merge α :=
  { merge with
    host := merge.host.skip count
    merged := merge.merged ++ merge.host.first count }

/-- Goes on item by item until the merge is finished or one of the runs has gone first so many times
in a row. The test says of an item of the guest and one of the host whether the host goes first. -/
def compareEach (hostFirst : α → α → Except Refusal Bool) (patience : Nat) :
    (count guests hosts : Nat) → Merge α → Except (Stopped (Merge α)) (Merge α)
  | 0, _, _, merge => .ok merge
  | count + 1, guests, hosts, merge =>
    match merge.guest.head?, merge.host.head? with
    | some guest, some host => do
      if ← reaching merge (hostFirst guest host) then
        let next := merge.takeHost 1
        if next.isFinished || patience ≤ hosts + 1 then return next
        else compareEach hostFirst patience count 0 (hosts + 1) next
      else
        let next := merge.takeGuest 1
        if next.isFinished || patience ≤ guests + 1 then return next
        else compareEach hostFirst patience count (guests + 1) 0 next
    | _, _ => .ok merge

/-- Takes all items of the guest that go before the next one of the host, and then that one. -/
def guestTurn (side : Side) (hostFirst : α → α → Except Refusal Bool) (merge : Merge α) :
    Except (Stopped (Merge α)) (Nat × Merge α) :=
  match merge.host.head? with
  | some host => do
    let count ← reaching merge
      (leading side (fun guest => (hostFirst guest host).map (!·)) merge.guest)
    let next := merge.takeGuest count
    return (count, if next.isFinished then next else next.takeHost 1)
  | none => .ok (0, merge)

/-- Takes all items of the host that go before the next one of the guest, and then that one. -/
def hostTurn (side : Side) (hostFirst : α → α → Except Refusal Bool) (merge : Merge α) :
    Except (Stopped (Merge α)) (Nat × Merge α) :=
  match merge.guest.head? with
  | some guest => do
    let count ← reaching merge (leading side (fun host => hostFirst guest host) merge.host)
    let next := merge.takeHost count
    return (count, if next.isFinished then next else next.takeGuest 1)
  | none => .ok (0, merge)

/-- A turn of each run, that of the left one first, and the longer stretch that was taken. -/
def round (side : Side) (hostFirst : α → α → Except Refusal Bool) (merge : Merge α) :
    Except (Stopped (Merge α)) (Nat × Merge α) := do
  let (before, after) := match side with
    | .front => (guestTurn side hostFirst, hostTurn side hostFirst)
    | .back => (hostTurn side hostFirst, guestTurn side hostFirst)
  let (first, between) ← before merge
  if between.isFinished then return (first, between)
  else
    let (second, next) ← after between
    return (Nat.max first second, next)

/-- Rounds as long as they take stretches of seven or more. Each round makes the merge less patient,
and their end makes it more patient. -/
def gallop (side : Side) (hostFirst : α → α → Except Refusal Bool) :
    (count patience : Nat) → Merge α → Except (Stopped (Merge α)) (Nat × Merge α)
  | 0, patience, merge => .ok (patience, merge)
  | count + 1, patience, merge => do
    let less := Nat.max 1 (patience - 1)
    let (longest, next) ← round side hostFirst merge
    if next.isFinished then return (less, next)
    else if 7 ≤ longest then gallop side hostFirst count less next
    else return (less + 1, next)

/-- Goes on item by item and by rounds in turn, until the merge is finished. -/
def run (side : Side) (hostFirst : α → α → Except Refusal Bool) :
    (count patience : Nat) → Merge α → Except (Stopped (Merge α)) (Nat × Merge α)
  | 0, patience, merge => .ok (patience, merge)
  | count + 1, patience, merge =>
    if merge.isFinished then .ok (patience, merge)
    else do
      let compared ← compareEach hostFirst patience (count + 1) 0 0 merge
      if compared.isFinished then return (patience, compared)
      else
        let (after, next) ← gallop side hostFirst (count + 1) (patience + 1) compared
        run side hostFirst count after next

end Merge

/-- Merges a run with one behind it, beginning at the side of the guest. The first item of the host
is known to go first. -/
def mergeAt (side : Side) (less : α → α → Except Refusal Bool) (patience : Nat)
    (left right : Array α) : Except (Stopped (Array α)) (Nat × Array α) := do
  let size := left.size + right.size
  match side with
  | .front =>
    let start : Merge α := ⟨⟨left, 0⟩, ⟨right, 0⟩, #[]⟩
    let (after, merge) ← within Merge.unfinished
      (Merge.run side (fun guest host => less host guest) size patience (start.takeHost 1))
    return (after, merge.result)
  | .back =>
    let start : Merge α := ⟨⟨right.reverse, 0⟩, ⟨left.reverse, 0⟩, #[]⟩
    let (after, merge) ← within (fun merge => merge.unfinished.reverse)
      (Merge.run side (fun guest host => less guest host) size patience (start.takeHost 1))
    return (after, merge.result.reverse)

/-- Merges two runs that lie side by side. What stands before everything of the right run, or after
everything of the left one, stays where it is. -/
def mergeRuns (less : α → α → Except Refusal Bool) (patience : Nat) (left right : Array α) :
    Except (Stopped (Array α)) (Nat × Array α) :=
  match right[0]?, left.back? with
  | some first, some last => do
    let before ← reaching (left ++ right)
      (leading .front (fun item => (less first item).map (!·)) ⟨left, 0⟩)
    let low := left.extract before left.size
    if low.isEmpty then return (patience, left ++ right)
    else
      let after ← reaching (left ++ right)
        (leading .back (fun item => (less item last).map (!·)) ⟨right.reverse, 0⟩)
      let high := right.extract 0 (right.size - after)
      if high.isEmpty then return (patience, left ++ right)
      else
        let side : Side := if low.size ≤ high.size then .front else .back
        let whole := fun items => left.extract 0 before ++ items
          ++ right.extract (right.size - after) right.size
        let (next, merged) ← within whole (mergeAt side less patience low high)
        return (next, whole merged)
  | _, _ => .ok (patience, left ++ right)

/-! ### The order of merges -/

/-- A run with the place where it starts, and how deep its end lies. -/
structure Stretch (α : Type) where
  start : Nat
  items : Array α
  depth : Nat

/-- The items of runs, the last of which stands first. -/
def joined (runs : List (Array α)) : Array α := runs.foldr (fun run before => before ++ run) #[]

/-- How deep the border between two runs lies among all items: the number of binary digits after
which the middles of the two differ, as parts of the whole. Both are given doubled. -/
def borderDepth (size : Nat) : (count first second : Nat) → Nat
  | 0, _, _ => 1
  | count + 1, first, second =>
    if size ≤ first then borderDepth size count (2 * (first - size)) (2 * (second - size)) + 1
    else if size ≤ second then 1
    else borderDepth size count (2 * first) (2 * second) + 1

def mergeDeeper (less : α → α → Except Refusal Bool) (depth patience : Nat) (last : Stretch α) :
    List (Stretch α) → Except (Stopped (Array α)) (Nat × Stretch α × List (Stretch α))
  | [] => .ok (patience, last, [])
  | previous :: rest =>
    if depth < previous.depth then do
      let (after, items) ← within (joined (rest.map Stretch.items) ++ ·)
        (mergeRuns less patience previous.items last.items)
      mergeDeeper less depth after ⟨previous.start, items, depth⟩ rest
    else .ok (patience, last, previous :: rest)

/-- Adds a run behind those that wait, the last of which stands first. -/
def addRun (less : α → α → Except Refusal Bool) (size patience start : Nat) (items : Array α) :
    List (Stretch α) → Except (Stopped (Array α)) (Nat × List (Stretch α))
  | [] => .ok (patience, [⟨start, items, 0⟩])
  | last :: rest => do
    let first := 2 * last.start + last.items.size
    let depth := borderDepth size (size.log2 + 2) first (first + last.items.size + items.size)
    let (after, previous, others) ← within (· ++ items) (mergeDeeper less depth patience last rest)
    return (after, ⟨start, items, 0⟩ :: { previous with depth } :: others)

/-- Cuts items into runs and merges them as far as their depths ask for. The count bounds the
runs. -/
def collectRuns (less : α → α → Except Refusal Bool) (size least : Nat) :
    (count patience start : Nat) → List (Stretch α) → List α →
      Except (Stopped (Array α)) (Nat × List (Stretch α))
  | 0, patience, _, waiting, _ => .ok (patience, waiting)
  | _ + 1, patience, _, waiting, [] => .ok (patience, waiting)
  | count + 1, patience, start, waiting, item :: rest => do
    let before := joined (waiting.map Stretch.items)
    let (run, others) ← reaching (before ++ item :: rest) (firstRun less (item :: rest))
    let short := least - run.size
    let filled ← within (before ++ · ++ others.drop short)
      (insertAll less run (others.take short))
    let (after, pending) ← within (· ++ others.drop short)
      (addRun less size patience start filled waiting)
    collectRuns less size least count after (start + filled.size) pending (others.drop short)

/-- Merges what is left, the last run first, unless the one two places before is shorter than it.
The count bounds the merges. -/
def mergeAll (less : α → α → Except Refusal Bool) :
    (count patience : Nat) → List (Array α) → Except (Stopped (Array α)) (Array α)
  | _, _, [] => .ok #[]
  | _, _, [items] => .ok items
  | 0, _, items :: _ => .ok items
  | _ + 1, patience, [last, previous] => do
    let (_, items) ← mergeRuns less patience previous last
    return items
  | count + 1, patience, last :: previous :: first :: rest => do
    if first.size < last.size then
      let (after, items) ← within (joined rest ++ · ++ last)
        (mergeRuns less patience first previous)
      mergeAll less count after (last :: items :: rest)
    else
      let (after, items) ← within (joined (first :: rest) ++ ·)
        (mergeRuns less patience previous last)
      mergeAll less count after (items :: first :: rest)

/-- How often one run goes first before a merge looks ahead, to begin with. -/
def firstPatience : Nat := 7

/-- The items in order, or the order reached when two items could not be compared. -/
def sorted (less : α → α → Except Refusal Bool) (items : List α) :
    Except (Stopped (List α)) (List α) := do
  let size := items.length
  let (patience, runs) ← within Array.toList
    (collectRuns less size (leastRun size false) (size + 1) firstPatience 0 [] items)
  let result ← within Array.toList (mergeAll less runs.length patience (runs.map Stretch.items))
  return result.toList

end Parlance.Sort
