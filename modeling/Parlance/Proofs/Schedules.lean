import Parlance.Cron
import Parlance.Foreign.Date

/-!
Schedules that can come due. A schedule is taken if it begins like a phrase or has five words, and
whether a moment can ever match it is not looked at.
-/

namespace Parlance.CronFields

open List Foreign

/-- Whether there is a date and a time of day that the fields match. -/
def ComesDue (fields : CronFields) : Prop :=
  ∃ (year : Int) (month day hour minute : Nat), checkDate year month day = .ok () ∧
    hour < 24 ∧ minute < 60 ∧ fields.holds (.ofDate year month day hour minute) = true

/-- Whether a field is a star or the numeral of a number between two others. -/
def Admits (field : String) (least most : Nat) : Prop :=
  field = "*" ∨ ∃ n : Nat, least ≤ n ∧ n ≤ most ∧ Decimal.readInteger field = .ok n

/-- How many days a month has, in leap years. -/
def longest (month : Nat) : Nat := daysInMonth 2000 month

theorem fieldMatches_iff {field : String} {value : Nat} :
    fieldMatches field value = true ↔ Admits field value value := by
  rw [fieldMatches, Bool.or_eq_true_iff, decide_eq_true_eq, Admits]
  refine or_congr_right ?_
  constructor
  · intro same
    cases read : Decimal.readInteger field with
    | error failure =>
      rw [read] at same
      cases same
    | ok n =>
      rw [read] at same
      exact ⟨value, Nat.le_refl _, Nat.le_refl _, congrArg Except.ok (of_decide_eq_true same)⟩
  · rintro ⟨n, least, most, read⟩
    rw [read, Nat.le_antisymm most least]
    exact decide_eq_true rfl

theorem admits_iff {field : String} {least most : Nat} (inOrder : least ≤ most) :
    Admits field least most ↔ ∃ n, least ≤ n ∧ n ≤ most ∧ Admits field n n := by
  constructor
  · rintro (star | ⟨n, above, below, read⟩)
    · exact ⟨least, Nat.le_refl _, inOrder, .inl star⟩
    · exact ⟨n, above, below, .inr ⟨n, Nat.le_refl _, Nat.le_refl _, read⟩⟩
  · rintro ⟨n, above, below, star | ⟨value, least, most, read⟩⟩
    · exact .inl star
    · exact .inr ⟨value, Nat.le_trans above least, Nat.le_trans most below, read⟩

/-! ### Dates -/

theorem daysInMonth_le (year : Int) (month : Nat) : daysInMonth year month ≤ longest month := by
  unfold longest daysInMonth
  split
  · split <;> decide
  · exact Nat.le_refl _

theorem checkDate_iff {year : Int} {month day : Nat} :
    checkDate year month day = .ok () ↔ (1 ≤ year ∧ year ≤ 9999) ∧
      (1 ≤ month ∧ month ≤ 12) ∧ 1 ≤ day ∧ day ≤ daysInMonth year month := by
  simp only [checkDate, Int.toNat_natCast, Bool.or_eq_true, decide_eq_true_eq]
  split
  · simp; omega
  · split
    · simp; omega
    · split
      · simp; omega
      · simp; omega

theorem weekdayAt_lt (days : Int) : Calendar.weekdayAt days < 7 := by
  have := Int.fmod_lt_of_pos (days + 3) (by decide : (0 : Int) < 7)
  rw [Calendar.weekdayAt]
  omega

/-- Every day of every month falls on each day of the week in one of 28 years. -/
theorem exists_year {month day weekday : Nat} (isMonth : 1 ≤ month ∧ month ≤ 12)
    (isDay : 1 ≤ day ∧ day ≤ longest month) (isWeekday : weekday < 7) :
    ∃ year : Int, checkDate year month day = .ok () ∧
      Calendar.weekdayAt (Calendar.daysTo year month day) = weekday := by
  have all : ((range' 1 12).all fun month => (range' 1 (longest month)).all fun day =>
      (range 7).all fun weekday => (range' 2000 28).any fun year =>
        decide (day ≤ daysInMonth year month) &&
          decide (Calendar.weekdayAt (Calendar.daysTo year month day) = weekday)) = true := by
    decide +kernel
  have some := all_eq_true.mp (all_eq_true.mp (all_eq_true.mp all month ?_) day ?_) weekday ?_
  · obtain ⟨year, listed, both⟩ := any_eq_true.mp some
    simp only [Bool.and_eq_true, decide_eq_true_eq] at both
    rw [mem_range'_1] at listed
    exact ⟨year, checkDate_iff.mpr ⟨by omega, isMonth, isDay.1, both.1⟩, both.2⟩
  all_goals simp only [mem_range'_1, mem_range]; omega

/-! ### Fields -/

/-- Fields come due if each of them does, and some month has the day. -/
theorem comesDue_iff {fields : CronFields} :
    fields.ComesDue ↔ Admits fields.minute 0 59 ∧ Admits fields.hour 0 23 ∧
      Admits fields.weekday 0 6 ∧ ∃ month day, (1 ≤ month ∧ month ≤ 12) ∧
        (1 ≤ day ∧ day ≤ longest month) ∧ Admits fields.month month month ∧
        Admits fields.day day day := by
  rw [admits_iff (by decide), admits_iff (by decide), admits_iff (by decide)]
  constructor
  · rintro ⟨year, month, day, hour, minute, date, isHour, isMinute, holds⟩
    obtain ⟨_, isMonth, least, most⟩ := checkDate_iff.mp date
    simp only [CronFields.holds, Bool.and_eq_true, fieldMatches_iff] at holds
    obtain ⟨⟨⟨⟨onMinute, onHour⟩, onDay⟩, onMonth⟩, onWeekday⟩ := holds
    exact ⟨⟨minute, Nat.zero_le _, Nat.le_of_lt_succ isMinute, onMinute⟩,
      ⟨hour, Nat.zero_le _, Nat.le_of_lt_succ isHour, onHour⟩,
      ⟨_, Nat.zero_le _, Nat.le_of_lt_succ (weekdayAt_lt _), onWeekday⟩,
      month, day, isMonth, ⟨least, Nat.le_trans most (daysInMonth_le year month)⟩, onMonth, onDay⟩
  · rintro ⟨⟨minute, _, isMinute, onMinute⟩, ⟨hour, _, isHour, onHour⟩,
      ⟨weekday, _, isWeekday, onWeekday⟩, month, day, isMonth, isDay, onMonth, onDay⟩
    obtain ⟨year, date, same⟩ := exists_year isMonth isDay (Nat.lt_succ_of_le isWeekday)
    refine ⟨year, month, day, hour, minute, date, Nat.lt_succ_of_le isHour,
      Nat.lt_succ_of_le isMinute, ?_⟩
    rw [← same] at onWeekday
    simp only [CronFields.holds, Bool.and_eq_true, fieldMatches_iff]
    exact ⟨⟨⟨⟨onMinute, onHour⟩, onDay⟩, onMonth⟩, onWeekday⟩

/-- A phrase leaves the day and the month open, and names a day of the week if it names one. -/
theorem ofPhrase?_open {cs : List Char} {fields : CronFields} (phrase : ofPhrase? cs = some fields) :
    Admits fields.weekday 0 6 ∧ fields.month = "*" ∧ fields.day = "*" := by
  have daily (minute hour : String) : Admits (CronFields.daily minute hour).weekday 0 6 ∧
      (CronFields.daily minute hour).month = "*" ∧ (CronFields.daily minute hour).day = "*" :=
    ⟨.inl rfl, rfl, rfl⟩
  rw [ofPhrase?] at phrase
  split at phrase
  · cases phrase
    exact daily _ _
  split at phrase
  · cases phrase
    exact daily _ _
  split at phrase
  · cases phrase
    exact daily _ _
  obtain ⟨⟨name, number⟩, listed, means⟩ := exists_of_findSome?_eq_some phrase
  obtain ⟨⟨hour, minute⟩, _, rfl⟩ := Option.map_eq_some_iff.mp means
  have reads : (weekdays.zipIdx.all fun entry =>
      fieldMatches (Decimal.naturalText entry.2) entry.2 && decide (entry.2 ≤ 6)) = true := by
    decide +kernel
  obtain ⟨read, most⟩ := Bool.and_eq_true_iff.mp (all_eq_true.mp reads _ listed)
  exact ⟨(admits_iff (by decide)).mpr
    ⟨number, Nat.zero_le _, of_decide_eq_true most, fieldMatches_iff.mp read⟩, rfl, rfl⟩

/-- A schedule that is taken comes due at some time exactly if the minute and the hour are stars or
numbers that a time has and, unless it is a phrase, so is the day of the week, and the month and the
day are stars or numbers of a day that some year has. -/
theorem accepted_schedule_comes_due_iff {schedule : String} {fields : CronFields}
    (accepted : parse schedule = .ok fields) :
    fields.ComesDue ↔ Admits fields.minute 0 59 ∧ Admits fields.hour 0 23 ∧
      ((ofPhrase? (Text.lowercaseChars schedule.toList)).isSome = true ∨
        Admits fields.weekday 0 6 ∧ ∃ month day, (1 ≤ month ∧ month ≤ 12) ∧
          (1 ≤ day ∧ day ≤ longest month) ∧ Admits fields.month month month ∧
          Admits fields.day day day) := by
  rw [comesDue_iff]
  refine and_congr_right fun _ => and_congr_right fun _ => ?_
  refine ⟨.inr, fun known => known.elim (fun isPhrase => ?_) id⟩
  obtain ⟨found, phrase⟩ := Option.isSome_iff_exists.mp isPhrase
  rw [parse, phrase] at accepted
  cases accepted
  obtain ⟨weekday, month, day⟩ := ofPhrase?_open phrase
  exact ⟨weekday, 1, 1, by decide, by decide, .inl month, .inl day⟩

/-- A leap day can fall on each day of the week. -/
theorem accepted_schedule_comes_due_iff_on_leap_day :
    parse "0 12 29 2 6" = .ok ⟨"0", "12", "29", "2", "6"⟩ ∧
      ComesDue ⟨"0", "12", "29", "2", "6"⟩ := by
  have accepted : parse "0 12 29 2 6" = .ok ⟨"0", "12", "29", "2", "6"⟩ := by rfl
  refine ⟨accepted, (accepted_schedule_comes_due_iff accepted).mpr ?_⟩
  exact ⟨.inr ⟨0, by decide, by decide, rfl⟩, .inr ⟨12, by decide, by decide, rfl⟩,
    .inr ⟨.inr ⟨6, by decide, by decide, rfl⟩, 2, 29, by decide, by decide,
      .inr ⟨2, by decide, by decide, rfl⟩, .inr ⟨29, by decide, by decide, rfl⟩⟩⟩

/-- No hour has a minute 99. -/
theorem accepted_schedule_never_comes_due :
    parse "99 * * * *" = .ok ⟨"99", "*", "*", "*", "*"⟩ ∧ ¬ ComesDue ⟨"99", "*", "*", "*", "*"⟩ := by
  refine ⟨by rfl, fun due => ?_⟩
  have read : Decimal.readInteger "99" = .ok 99 := rfl
  rcases (comesDue_iff.mp due).1 with star | ⟨n, _, most, readToo⟩
  · exact absurd star (by decide)
  · have same : (99 : Int) = n := Except.ok.inj (read.symm.trans readToo)
    omega

end Parlance.CronFields
