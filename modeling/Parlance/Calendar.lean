import Parlance.Fault

/-!
Dates and times of day. Time is counted in seconds from the beginning of 1970 in universal time;
the calendar is the one of today, carried on in both directions, for the years 1 to 9999.
-/

namespace Parlance

/-- A minute of the calendar. Days of the week count from Monday, which is zero. -/
structure Moment where
  year : Int
  month : Nat
  day : Nat
  hour : Nat
  minute : Nat
  weekday : Nat
deriving Repr, DecidableEq, Inhabited

namespace Calendar

/-- The number of days from the beginning of 1970 to a date. Years begin in March here, so that
the day that leap years add comes last; 400 years have 146097 days. -/
def daysTo (year : Int) (month day : Nat) : Int :=
  let shifted : Int := if month ≤ 2 then year - 1 else year
  let era := Int.fdiv shifted 400
  let yearOfEra := shifted - era * 400
  let monthFromMarch : Int := if month ≤ 2 then (month : Int) + 9 else (month : Int) - 3
  let dayOfYear := (153 * monthFromMarch + 2) / 5 + day - 1
  let dayOfEra := yearOfEra * 365 + yearOfEra / 4 - yearOfEra / 100 + dayOfYear
  era * 146097 + dayOfEra - 719468

/-- The date, as year, month and day, that lies so many days after the beginning of 1970. -/
def dateAt (days : Int) : Int × Nat × Nat :=
  let shifted := days + 719468
  let era := Int.fdiv shifted 146097
  let dayOfEra := shifted - era * 146097
  let yearOfEra := (dayOfEra - dayOfEra / 1460 + dayOfEra / 36524 - dayOfEra / 146096) / 365
  let dayOfYear := dayOfEra - (365 * yearOfEra + yearOfEra / 4 - yearOfEra / 100)
  let monthFromMarch := (5 * dayOfYear + 2) / 153
  let day := dayOfYear - (153 * monthFromMarch + 2) / 5 + 1
  let month := if monthFromMarch < 10 then monthFromMarch + 3 else monthFromMarch - 9
  let year := yearOfEra + era * 400 + (if month ≤ 2 then 1 else 0)
  (year, month.toNat, day.toNat)

/-- The day of the week that lies so many days after the beginning of 1970, a Thursday. -/
def weekdayAt (days : Int) : Nat := (Int.fmod (days + 3) 7).toNat

end Calendar

namespace Moment

def ofDate (year : Int) (month day hour minute : Nat) : Moment :=
  ⟨year, month, day, hour, minute, Calendar.weekdayAt (Calendar.daysTo year month day)⟩

def ofSeconds (seconds : Int) : Moment :=
  let days := Int.fdiv seconds 86400
  let rest := (seconds - days * 86400).toNat
  let (year, month, day) := Calendar.dateAt days
  ⟨year, month, day, rest / 3600, rest % 3600 / 60, Calendar.weekdayAt days⟩

/-- The whole second of a time, which is rounded to microseconds first, a half going to the even
neighbour. -/
def wholeSecond (time : Float) : Except Refusal Int :=
  match Decimal.truncate? time with
  | none =>
    .error (if time.isNaN then .badValue (.library "Invalid value NaN (not a number)")
      else .outOfRange .timestamp)
  | some whole =>
    let part := time - (Decimal.ofInt? whole).getD 0
    let micros := (Decimal.round? (part * 1e6)).getD 0
    let second := if 1000000 ≤ micros then whole + 1 else if micros < 0 then whole - 1 else whole
    if -(Nat.pow 2 63 : Nat) ≤ second && second < (Nat.pow 2 63 : Nat) then .ok second
    else .error (.outOfRange .timestamp)

/-- The years that a date can have begin with the second day of year 1. -/
def firstSecond : Int := -62135596800 + 86400

def ofTime (time : Float) : Except Refusal Moment := do
  let second ← wholeSecond time
  if 67768036191676799 < second || second < -67768040609740800 then
    .error (.system "[Errno 75] Value too large for defined data type")
  else
    let moment := ofSeconds second
    if second < firstSecond || 9999 < moment.year then .error (.badValue (.year moment.year))
    else return moment

end Moment

end Parlance
