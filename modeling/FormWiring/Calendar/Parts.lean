import FormWiring.Calendar.Date

/-!
# Parts of dates and times

What a dated text says, part by part: each part has a range, and a part that is said twice must be said the
same. A date follows from a year with a month and a day, a day of the year or a week and a weekday; whatever
else was said must agree with it.

Main definitions: `Part`, `Parts.put?`, `Parts.toDate?`.
-/

set_option autoImplicit false

namespace FormWiring.Calendar

/-! ## Parts -/

/-- **Parts** that a text can say. -/
inductive Part where
  | year
  | century
  | yearOfCentury
  | isoYear
  | isoYearOfCentury
  | quarter
  | month
  | day
  | ordinal
  | weekFromSunday
  | weekFromMonday
  | isoWeek
  | weekday
  | halfDay
  | hourOfHalf
  | minute
  | second
  | nanosecond
  | timestamp
  | offset
  deriving DecidableEq, Repr

/-- **Range of a part.** -/
def Part.range : Part → Int × Int
  | .year | .isoYear => (Int32.minValue.toInt, Int32.maxValue.toInt)
  | .century => (0, Int32.maxValue.toInt)
  | .yearOfCentury | .isoYearOfCentury => (0, 99)
  | .quarter => (1, 4)
  | .month => (1, 12)
  | .day => (1, 31)
  | .ordinal => (1, 366)
  | .weekFromSunday | .weekFromMonday => (0, 53)
  | .isoWeek => (1, 53)
  | .weekday => (0, 6)
  | .halfDay => (0, 1)
  | .hourOfHalf => (0, 11)
  | .minute => (0, 59)
  | .second => (0, 60)
  | .nanosecond => (0, 999999999)
  | .timestamp => (Int64.minValue.toInt, Int64.maxValue.toInt)
  | .offset => (Int32.minValue.toInt, Int32.maxValue.toInt)

/-- **Parts said so far.** -/
abbrev Parts : Type := List (Part × Int)

namespace Parts

/-- **Value of a part**, if it was said. -/
def get? (parts : Parts) (part : Part) : Option Int :=
  parts.lookup part

/-- **Parts with one more**: in range, and not against what was said. -/
def put? (parts : Parts) (part : Part) (value : Int) : Option Parts :=
  if part.range.1 ≤ value ∧ value ≤ part.range.2 then
    match parts.get? part with
    | none => some ((part, value) :: parts)
    | some old => if old = value then some parts else none
  else none

/-- **Agreement** of a part with a value: it was not said, or said the same. -/
def agrees (parts : Parts) (part : Part) (value : Int) : Bool :=
  match parts.get? part with
  | none => true
  | some said => said == value

/-! ## Years -/

/-- **Year** from a full year, a century and a year in it. The outer option is failure, the inner one that
nothing was said. A year in its century alone lies between 1970 and 2069. -/
def resolveYear (full century inCentury : Option Int) : Option (Option Int) :=
  match full, century, inCentury with
  | full, none, none => some full
  | some y, q, r =>
    if y < 0 then none
    else if q.getD (y / 100) = y / 100 ∧ r.getD (y % 100) = y % 100 then some (some y)
    else none
  | none, some q, some r =>
    if q * 100 + r ≤ Int32.maxValue.toInt then some (some (q * 100 + r)) else none
  | none, none, some r => some (some (r + if r < 70 then 2000 else 1900))
  | none, some _, none => none

/-- **Agreement of a year** with what was said of it; a year before zero has no century. -/
def agreesYear (parts : Parts) (whole hundreds rest : Part) (year : Int) : Bool :=
  parts.agrees whole year &&
    if 0 ≤ year then parts.agrees hundreds (year / 100) && parts.agrees rest (year % 100)
    else (parts.get? hundreds).isNone && (parts.get? rest).isNone

/-! ## Agreement of a date -/

/-- **Year, month and day** agree. -/
def agreesMonthDay (parts : Parts) (d : Date) : Bool :=
  parts.agreesYear .year .century .yearOfCentury d.year && parts.agrees .month d.monthDay.1 &&
    parts.agrees .day d.monthDay.2

/-- **Week by its Thursday and weekday** agree. -/
def agreesIsoWeek (parts : Parts) (d : Date) : Bool :=
  parts.agrees .isoYear d.isoWeek.1 &&
    (if 0 ≤ d.isoWeek.1 then parts.agrees .isoYearOfCentury (d.isoWeek.1 % 100)
      else (parts.get? .isoYearOfCentury).isNone) &&
    parts.agrees .isoWeek d.isoWeek.2 && parts.agrees .weekday d.weekday

/-- **Day and weeks of the year** agree. -/
def agreesOrdinal (parts : Parts) (d : Date) : Bool :=
  parts.agrees .ordinal d.ordinal && parts.agrees .weekFromSunday (d.weekFrom 6) &&
    parts.agrees .weekFromMonday (d.weekFrom 0)

/-- **All that was said** agrees with a date. -/
def agreesDate (parts : Parts) (d : Date) : Bool :=
  parts.agreesMonthDay d && parts.agreesIsoWeek d && parts.agreesOrdinal d && parts.agrees .quarter d.quarter

/-! ## The date -/

/-- **Date** that the parts determine, if they do and it is in range; of several ways the first counts. -/
def candidate? (parts : Parts) (year isoYear : Option Int) : Option Date :=
  match year, parts.get? .month, parts.get? .day with
  | some y, some m, some d => Date.ofMonthDay? y m d
  | _, _, _ =>
    match year, parts.get? .ordinal with
    | some y, some n => Date.ofOrdinal? y n
    | _, _ =>
      match year, parts.get? .weekFromSunday, parts.get? .weekday with
      | some y, some w, some d => Date.ofWeekFrom? y w d 6
      | _, _, _ =>
        match year, parts.get? .weekFromMonday, parts.get? .weekday with
        | some y, some w, some d => Date.ofWeekFrom? y w d 0
        | _, _, _ =>
          match isoYear, parts.get? .isoWeek, parts.get? .weekday with
          | some y, some w, some d => Date.ofIsoWeek? y w d
          | _, _, _ => none

/-- **Date of the parts**, if they determine one and agree with it. -/
def toDate? (parts : Parts) : Option Date := do
  let year ← resolveYear (parts.get? .year) (parts.get? .century) (parts.get? .yearOfCentury)
  let isoYear ← resolveYear (parts.get? .isoYear) none (parts.get? .isoYearOfCentury)
  let d ← parts.candidate? year isoYear
  if parts.agreesDate d then some d else none

end Parts

end FormWiring.Calendar
