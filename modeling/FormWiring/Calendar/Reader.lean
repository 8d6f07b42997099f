import FormWiring.Calendar.Format
import FormWiring.Text.Digit

/-!
# Reading dates

A text is read item by item against a format; each item consumes what it stands for and says a part. The text
must be used up, and the parts must determine a date.

Main definition: `Date.ofText?`.
-/

set_option autoImplicit false

namespace FormWiring.Calendar

open Text (isDigit digitsValue)

/-! ## Scanners -/

/-- **Number** of at least `least` and at most `most` digits, and the rest. It must fit in 64 bits. -/
def scanNumber? (least : Nat) (most : Option Nat) (cs : List Char) : Option (Int × List Char) :=
  let digits := (most.elim cs fun n => cs.take n).takeWhile isDigit
  let value := digitsValue 10 digits
  if digits.length < least || Int64.maxValue.toInt < value then none else some (value, cs.drop digits.length)

/-- **Word but for ASCII case** at the start, and the rest. -/
def afterWord? (word cs : List Char) : Option (List Char) :=
  if (cs.take word.length).map Char.toLower = word then some (cs.drop word.length) else none

/-- **Short and rest of the month names.** -/
def monthNames : List (String × String) :=
  [("jan", "uary"), ("feb", "ruary"), ("mar", "ch"), ("apr", "il"), ("may", ""), ("jun", "e"), ("jul", "y"),
    ("aug", "ust"), ("sep", "tember"), ("oct", "ober"), ("nov", "ember"), ("dec", "ember")]

/-- **Short and rest of the weekday names.** -/
def weekdayNames : List (String × String) :=
  [("mon", "day"), ("tue", "sday"), ("wed", "nesday"), ("thu", "rsday"), ("fri", "day"), ("sat", "urday"),
    ("sun", "day")]

/-- **Number of a name** in a list, and the rest. A long name may be cut to its short form. -/
def scanName? (long : Bool) (cs : List Char) : Nat → List (String × String) → Option (Int × List Char)
  | _, [] => none
  | index, (short, ending) :: names =>
    match afterWord? short.toList cs with
    | some rest =>
      if long then some (index, (afterWord? ending.toList rest).getD rest) else some (index, rest)
    | none => scanName? long cs (index + 1) names

/-- **Fraction of a second** in nanoseconds; of any number of digits those after the ninth are dropped. -/
def scanFraction? (digits : Option Nat) (cs : List Char) : Option (Int × List Char) :=
  match digits with
  | some n => (scanNumber? n (some n) cs).map fun (value, rest) => (value * Int.pow 10 (9 - n), rest)
  | none => (scanNumber? 1 (some 9) cs).map fun (value, rest) =>
    (value * Int.pow 10 (9 - (cs.length - rest.length)), rest.dropWhile isDigit)

/-- **Minutes of an offset**: two digits, or nothing where that is allowed. -/
def scanOffsetMinutes? (mayMiss : Bool) : List Char → Option (Nat × List Char)
  | [] => if mayMiss then some (0, []) else none
  | a :: b :: rest =>
    if '0' ≤ a ∧ a ≤ '5' ∧ isDigit b then some (digitsValue 10 [a, b], rest) else none
  | [_] => none

/-- **Offset of the clock** in seconds. -/
def scanOffset? (mayBeLetter mayMissMinutes : Bool) (cs : List Char) : Option (Int × List Char) :=
  match cs with
  | [] => none
  | sign :: rest =>
    if mayBeLetter && (sign == 'Z' || sign == 'z') then some (0, rest)
    else if sign == '+' || sign == '-' || sign == '\u2212' then
      match rest with
      | a :: b :: rest =>
        if isDigit a && isDigit b then
          let rest := rest.dropWhile fun c => c == ':' || Text.isBlank c
          (scanOffsetMinutes? mayMissMinutes rest).map fun (minutes, rest) =>
            let seconds : Int := digitsValue 10 [a, b] * 3600 + minutes * 60
            (if sign == '+' then seconds else -seconds, rest)
        else none
      | _ => none
    else none

/-! ## Reading -/

/-- **State of reading**: the parts said and the text left. -/
structure Reading where
  parts : Parts
  rest : List Char

namespace Reading

/-- **One part more**, with the text left after it. -/
def say? (r : Reading) (part : Part) (found : Int × List Char) : Option Reading :=
  (r.parts.put? part found.1).map (⟨·, found.2⟩)

/-- **Parts said by a number.** -/
def sayNumber? (r : Reading) (field : NumberField) (found : Int × List Char) : Option Reading :=
  let (value, rest) := found
  match field with
  | .part p => r.say? p found
  | .hour => do
    if value < 0 || 23 < value then none
    let r ← r.say? .halfDay (value / 12, rest)
    r.say? .hourOfHalf (value % 12, rest)
  | .hour12 => if 1 ≤ value ∧ value ≤ 12 then r.say? .hourOfHalf (value % 12, rest) else none
  | .weekdayFromSunday => if value ≤ 6 then r.say? .weekday ((value + 6) % 7, rest) else none
  | .weekdayFromMonday => r.say? .weekday (value - 1, rest)

/-- **After a number.** -/
def number? (r : Reading) (field : NumberField) (width : Option Nat) (signed : Bool) : Option Reading :=
  let cs := Text.trimLeft r.rest
  match signed, cs with
  | true, '-' :: more =>
    (scanNumber? 1 none more).bind fun (value, rest) => r.sayNumber? field (-value, rest)
  | true, '+' :: more => (scanNumber? 1 none more).bind (r.sayNumber? field)
  | _, _ => (scanNumber? 1 width cs).bind (r.sayNumber? field)

/-- **After a literal.** -/
def literal? (r : Reading) (text : List Char) : Option Reading :=
  if text.isPrefixOf r.rest then some { r with rest := r.rest.drop text.length } else none

/-- **After optional blanks.** -/
def skipBlanks (r : Reading) : Reading :=
  { r with rest := Text.trimLeft r.rest }

/-- **After a fraction of a second.** -/
def fraction? (r : Reading) (digits : Option Nat) (pointed : Bool) : Option Reading :=
  match pointed, r.rest with
  | true, '.' :: more => (scanFraction? digits more).bind (r.say? .nanosecond)
  | true, _ => some r
  | false, cs => (scanFraction? digits cs).bind (r.say? .nanosecond)

/-- **After a date and a time with an offset.** -/
def instant? (r : Reading) : Option Reading := do
  let r ← r.number? (.part .year) (some 4) true
  let r ← r.skipBlanks.literal? ['-']
  let r ← r.number? (.part .month) (some 2) false
  let r ← r.skipBlanks.literal? ['-']
  let r ← r.number? (.part .day) (some 2) false
  let r ←
    match r.rest with
    | c :: rest => if c == 't' || c == 'T' || c == ' ' then some { r with rest } else none
    | [] => none
  let r ← r.number? .hour (some 2) false
  let r ← r.skipBlanks.literal? [':']
  let r ← r.number? (.part .minute) (some 2) false
  let r ← r.skipBlanks.literal? [':']
  let r ← r.number? (.part .second) (some 2) false
  let r ← r.fraction? none true
  let cs := Text.trimLeft r.rest
  match afterWord? "utc".toList cs with
  | some rest => r.say? .offset (0, rest)
  | none => (scanOffset? true false cs).bind (r.say? .offset)

/-- **After one item.** -/
def item? (r : Reading) : Item → Option Reading
  | .literal text => r.literal? text
  | .blanks => some r.skipBlanks
  | .number field width signed => r.number? field width signed
  | .monthName long =>
    (scanName? long r.rest 1 monthNames).bind (r.say? .month)
  | .weekdayName long => (scanName? long r.rest 0 weekdayNames).bind (r.say? .weekday)
  | .halfDayName =>
    match afterWord? ['a', 'm'] r.rest with
    | some rest => r.say? .halfDay (0, rest)
    | none => (afterWord? ['p', 'm'] r.rest).bind fun rest => r.say? .halfDay (1, rest)
  | .fraction digits pointed => r.fraction? digits pointed
  | .zoneName => some { r with rest := r.rest.dropWhile (!Text.isBlank ·) }
  | .zoneOffset permissive =>
    (scanOffset? permissive permissive (Text.trimLeft r.rest)).bind (r.say? .offset)
  | .instant => r.instant?
  | .invalid => none

end Reading

/-- **Date of a text** in a format, if it is one. -/
def Date.ofText? (items : List Item) (text : String) : Option Date := do
  let r ← items.foldlM Reading.item? ⟨[], text.toList⟩
  if r.rest.isEmpty then r.parts.toDate? else none

end FormWiring.Calendar
