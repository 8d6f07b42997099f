import FormWiring.Calendar.Parts
import FormWiring.Text.Blank

/-!
# Date formats

A format is a text with specifiers after percent signs. Some specifiers stand for several items; a padding mark
is allowed before a single number only.

Main definition: `Item.ofFormat`.
-/

set_option autoImplicit false

namespace FormWiring.Calendar

/-! ## Items -/

/-- **Number fields**: what the digits mean. -/
inductive NumberField where
  | part (p : Part)
  /-- Hour of the day, from 0. -/
  | hour
  /-- Hour of the half day, where 12 is the first. -/
  | hour12
  /-- Weekday from Sunday, which is zero. -/
  | weekdayFromSunday
  /-- Weekday from Monday, which is one. -/
  | weekdayFromMonday
  deriving DecidableEq, Repr

/-- **Items** of a format. -/
inductive Item where
  | literal (text : List Char)
  | blanks
  /-- A number of at most `width` digits; a signed one may have a sign and then any number of digits. -/
  | number (field : NumberField) (width : Option Nat) (signed : Bool)
  | monthName (long : Bool)
  | weekdayName (long : Bool)
  | halfDayName
  /-- Digits of a second: a count of them or any number, and after a point that may be missing or not. -/
  | fraction (digits : Option Nat) (pointed : Bool)
  | zoneName
  /-- Offset of the clock; a permissive one may be a single letter or leave out the minutes. -/
  | zoneOffset (permissive : Bool)
  /-- A date and a time with an offset. -/
  | instant
  /-- A specifier that does not exist. -/
  | invalid
  deriving DecidableEq, Repr

namespace Item

/-- **Number of a part** with at most `width` digits. -/
def digits (p : Part) (width : Nat) : Item :=
  number (.part p) (some width) false

/-- **Year**, signed. -/
def yearItem : Item := number (.part .year) (some 4) true

/-- **Hour** of the day. -/
def hourItem : Item := number .hour (some 2) false

/-- **Time of day** with colons. -/
def timeItems : List Item :=
  [hourItem, literal [':'], digits .minute 2, literal [':'], digits .second 2]

/-- **Items of a specifier**, if it exists. -/
def ofSpecifier? : Char → Option (List Item)
  | 'A' => some [weekdayName true]
  | 'B' => some [monthName true]
  | 'C' => some [digits .century 2]
  | 'D' | 'x' =>
    some [digits .month 2, literal ['/'], digits .day 2, literal ['/'], digits .yearOfCentury 2]
  | 'F' => some [yearItem, literal ['-'], digits .month 2, literal ['-'], digits .day 2]
  | 'G' => some [number (.part .isoYear) (some 4) true]
  | 'H' | 'k' => some [hourItem]
  | 'I' | 'l' => some [number .hour12 (some 2) false]
  | 'M' => some [digits .minute 2]
  | 'P' | 'p' => some [halfDayName]
  | 'R' => some [hourItem, literal [':'], digits .minute 2]
  | 'S' => some [digits .second 2]
  | 'T' | 'X' => some timeItems
  | 'U' => some [digits .weekFromSunday 2]
  | 'V' => some [digits .isoWeek 2]
  | 'W' => some [digits .weekFromMonday 2]
  | 'Y' => some [yearItem]
  | 'Z' => some [zoneName]
  | 'a' => some [weekdayName false]
  | 'b' | 'h' => some [monthName false]
  | 'c' =>
    some ([weekdayName false, blanks, monthName false, blanks, digits .day 2, blanks] ++ timeItems ++
      [blanks, yearItem])
  | 'd' | 'e' => some [digits .day 2]
  | 'f' => some [digits .nanosecond 9]
  | 'g' => some [digits .isoYearOfCentury 2]
  | 'j' => some [digits .ordinal 3]
  | 'm' => some [digits .month 2]
  | 'n' | 't' => some [blanks]
  | 'q' => some [digits .quarter 1]
  | 'r' =>
    some [number .hour12 (some 2) false, literal [':'], digits .minute 2, literal [':'], digits .second 2,
      blanks, halfDayName]
  | 's' => some [number (.part .timestamp) none false]
  | 'u' => some [number .weekdayFromMonday (some 1) false]
  | 'v' => some [digits .day 2, literal ['-'], monthName false, literal ['-'], yearItem]
  | 'w' => some [number .weekdayFromSunday (some 1) false]
  | 'y' => some [digits .yearOfCentury 2]
  | 'z' => some [zoneOffset false]
  | '+' => some [instant]
  | '%' => some [literal ['%']]
  | _ => none

/-- **Specifier of several characters**, and the rest of the format. -/
def ofLongSpecifier? : List Char → Option (List Item × List Char)
  | ':' :: ':' :: ':' :: 'z' :: rest => some ([zoneOffset false], rest)
  | ':' :: ':' :: 'z' :: rest => some ([zoneOffset false], rest)
  | ':' :: 'z' :: rest => some ([zoneOffset false], rest)
  | '.' :: '3' :: 'f' :: rest => some ([fraction (some 3) true], rest)
  | '.' :: '6' :: 'f' :: rest => some ([fraction (some 6) true], rest)
  | '.' :: '9' :: 'f' :: rest => some ([fraction (some 9) true], rest)
  | '.' :: 'f' :: rest => some ([fraction none true], rest)
  | '3' :: 'f' :: rest => some ([fraction (some 3) false], rest)
  | '6' :: 'f' :: rest => some ([fraction (some 6) false], rest)
  | '9' :: 'f' :: rest => some ([fraction (some 9) false], rest)
  | c :: rest => (ofSpecifier? c).map (·, rest)
  | [] => none

/-- **A single number.** -/
def isNumber : List Item → Bool
  | [number ..] => true
  | _ => false

/-- **Items after a percent sign**, and the rest of the format. -/
def afterPercent? : List Char → Option (List Item × List Char)
  | '#' :: 'z' :: rest => some ([zoneOffset true], rest)
  | '#' :: _ => none
  | c :: rest =>
    if c == '-' || c == '0' || c == '_' then
      (ofLongSpecifier? rest).filter fun (items, _) => isNumber items
    else ofLongSpecifier? (c :: rest)
  | [] => none

/-- **Literal characters.** -/
def isLiteral (c : Char) : Bool :=
  c != '%' && !Text.isBlank c

/-- **Items of a format.** What follows a specifier that does not exist does not matter. -/
def scan : Nat → List Char → List Item
  | 0, _ => []
  | _, [] => []
  | fuel + 1, c :: rest =>
    if c == '%' then
      match afterPercent? rest with
      | some (items, rest) => items ++ scan fuel rest
      | none => [invalid]
    else if Text.isBlank c then
      blanks :: scan fuel (rest.dropWhile Text.isBlank)
    else
      literal (c :: rest.takeWhile isLiteral) :: scan fuel (rest.dropWhile isLiteral)

/-- **Items of a format text.** -/
def ofFormat (format : String) : List Item :=
  let cs := format.toList
  scan (cs.length + 1) cs

end Item

end FormWiring.Calendar
