import Parlance.Calendar

/-!
Schedules that repeat by the calendar. A schedule is a phrase, such as `every day at 9:30`, or five
fields for minute, hour, day, month and day of the week. A field is a star, which every moment
matches, or a whole number.
-/

namespace Parlance

structure CronFields where
  minute : String
  hour : String
  day : String
  month : String
  weekday : String
deriving Repr, DecidableEq, Inhabited

namespace CronFields

def daily (minute hour : String) : CronFields := ⟨minute, hour, "*", "*", "*"⟩

/-! ### Reading -/

def after? (beginning : String) (cs : List Char) : Option (List Char) :=
  if beginning.toList.isPrefixOf cs then some (cs.drop beginning.length) else none

/-- The hour and the minute of a time of day: one or two digits, a colon and two digits. -/
def timeOfDay? (cs : List Char) : Option (String × String) :=
  let hour := (cs.takeWhile Text.isDecimal).take 2
  match hour, cs.drop hour.length with
  | _ :: _, ':' :: first :: second :: _ =>
    if Text.isDecimal first && Text.isDecimal second then
      some (String.ofList hour, String.ofList [first, second])
    else none
  | _, _ => none

def weekdays : List String :=
  ["monday", "tuesday", "wednesday", "thursday", "friday", "saturday", "sunday"]

/-- The fields of a phrase in small letters. Only the beginning of the phrase counts. -/
def ofPhrase? (cs : List Char) : Option CronFields :=
  if (after? "every minute" cs).isSome then some (daily "*" "*")
  else if (after? "every hour" cs).isSome then some (daily "0" "*")
  else
    match (after? "every day at " cs).bind timeOfDay? with
    | some (hour, minute) => some (daily minute hour)
    | none =>
      weekdays.zipIdx.findSome? fun (name, number) =>
        ((after? ("every " ++ name ++ " at ") cs).bind timeOfDay?).map fun (hour, minute) =>
          ⟨minute, hour, "*", "*", Decimal.naturalText number⟩

def words (cs : List Char) : List (List Char) :=
  (cs.splitBy fun c d => Text.isBlank c == Text.isBlank d).filter fun word =>
    !(word.any Text.isBlank)

/-- The fields of a schedule: of a phrase, or of five words. -/
def parse (schedule : String) : Except Refusal CronFields :=
  match ofPhrase? (Text.lowercaseChars schedule.toList) with
  | some fields => .ok fields
  | none =>
    match (words schedule.toList).map String.ofList with
    | [minute, hour, day, month, weekday] => .ok ⟨minute, hour, day, month, weekday⟩
    | _ => .error (.badValue (.schedule schedule))

/-! ### Matching -/

def fieldMatches (field : String) (value : Nat) : Bool :=
  field = "*" ||
    match Decimal.readInteger field with
    | .ok n => n = value
    | .error _ => false

/-- Whether a moment matches all fields. -/
def holds (fields : CronFields) (moment : Moment) : Bool :=
  fieldMatches fields.minute moment.minute && fieldMatches fields.hour moment.hour &&
    fieldMatches fields.day moment.day && fieldMatches fields.month moment.month &&
    fieldMatches fields.weekday moment.weekday

end CronFields

end Parlance
