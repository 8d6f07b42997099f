/-!
# Dates

Dates of the calendar of today, carried back and forth without end, as a year and a day of that year. Weekdays
count from Monday as zero.

Main definitions: `Date`, `Date.ofMonthDay?`, `Date.weekday`, `Date.isoWeek`, `Date.isNotBefore`.
-/

set_option autoImplicit false

namespace FormWiring.Calendar

/-! ## Years and months -/

/-- **Leap years.** -/
def isLeap (year : Int) : Bool :=
  year % 4 == 0 && (year % 100 != 0 || year % 400 == 0)

/-- **Days in a year.** -/
def daysInYear (year : Int) : Nat :=
  if isLeap year then 366 else 365

/-- **Days in each month** of a year. -/
def monthLengths (year : Int) : List Nat :=
  [31, if isLeap year then 29 else 28, 31, 30, 31, 30, 31, 31, 30, 31, 30, 31]

/-- **Years in range.** -/
def isYearInRange (year : Int) : Bool :=
  -262143 ≤ year && year ≤ 262142

/-! ## Dates -/

/-- **Date**: a year and the number of the day in it, the first day being one. -/
structure Date where
  year : Int
  ordinal : Nat
  deriving DecidableEq, Repr

namespace Date

/-- **Date of a day in a year**, if there is one. -/
def ofOrdinal? (year : Int) (ordinal : Int) : Option Date :=
  if isYearInRange year ∧ 1 ≤ ordinal ∧ ordinal ≤ daysInYear year then some ⟨year, ordinal.toNat⟩ else none

/-- **Date of a month and a day in it**, if there is one. -/
def ofMonthDay? (year month day : Int) : Option Date :=
  let lengths := monthLengths year
  if 1 ≤ month ∧ month ≤ 12 ∧ 1 ≤ day ∧ day ≤ (lengths.getD (month.toNat - 1) 0 : Nat) then
    let before : Nat := (lengths.take (month.toNat - 1)).foldl (· + ·) 0
    ofOrdinal? year (before + day)
  else none

/-- **Month and day** of the day `rest` of a year, counting months from `month`. -/
def splitMonths (month : Nat) (rest : Nat) : List Nat → Nat × Nat
  | [] => (month, rest)
  | length :: lengths => if rest ≤ length then (month, rest) else splitMonths (month + 1) (rest - length) lengths

/-- **Month and day** of a date. -/
def monthDay (d : Date) : Nat × Nat :=
  splitMonths 1 d.ordinal (monthLengths d.year)

/-- **Number of the day** since the start of year one, which was a Monday. -/
def number (d : Date) : Int :=
  let before := d.year - 1
  365 * before + before / 4 - before / 100 + before / 400 + d.ordinal

/-- **Weekday**, Monday being zero. -/
def weekday (d : Date) : Int :=
  (d.number - 1) % 7

/-- **Date whose day is counted past the ends of its year.** -/
def carry (year : Int) (ordinal : Int) : Date :=
  if ordinal < 1 then ⟨year - 1, (ordinal + daysInYear (year - 1)).toNat⟩
  else if (daysInYear year : Int) < ordinal then ⟨year + 1, (ordinal - daysInYear year).toNat⟩
  else ⟨year, ordinal.toNat⟩

/-- **Year and week** by which weeks belong to the year of their Thursday. -/
def isoWeek (d : Date) : Int × Int :=
  let thursday := carry d.year ((d.ordinal : Int) - d.weekday + 3)
  (thursday.year, ((thursday.ordinal : Int) - 1) / 7 + 1)

/-- **Date of a weekday in a week**, if the year has that week. -/
def ofIsoWeek? (year week weekday : Int) : Option Date :=
  let fourth : Date := ⟨year, 4⟩
  let d := carry year (4 - fourth.weekday + (week - 1) * 7 + weekday)
  if isYearInRange year ∧ isYearInRange d.year ∧ d.isoWeek = (year, week) then some d else none

/-- **Days from a weekday to another.** -/
def daysFrom (start weekday : Int) : Int :=
  (weekday - start) % 7

/-- **Week of the year** when weeks start at a weekday and days before the first such day are week zero. -/
def weekFrom (d : Date) (start : Int) : Int :=
  ((d.ordinal : Int) - daysFrom start d.weekday + 6) / 7

/-- **Date of a weekday in such a week**, if it is in the year. -/
def ofWeekFrom? (year week weekday start : Int) : Option Date := do
  let first ← ofOrdinal? year 1
  ofOrdinal? year (1 + daysFrom first.weekday start + (week - 1) * 7 + daysFrom start weekday)

/-- **Quarter** of a date. -/
def quarter (d : Date) : Int :=
  ((d.monthDay.1 : Int) - 1) / 3 + 1

/-- **Not before** another date. -/
def isNotBefore (d other : Date) : Bool :=
  other.year < d.year || (other.year == d.year && other.ordinal ≤ d.ordinal)

end Date

end FormWiring.Calendar
