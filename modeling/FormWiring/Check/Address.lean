import FormWiring.Text.Digit

/-!
# Network addresses

The strict written forms: four decimal bytes without leading zeros between dots, and groups of up to four digits
of base sixteen between colons, where one double colon stands for the groups left out and the last two groups
may be written as four bytes.
-/

set_option autoImplicit false

namespace FormWiring.Check

open Text (isDigit isHexDigit digitsValue)

/-! ## Four bytes -/

/-- **After one byte**: at most three digits, no leading zero, at most 255. -/
def afterByte? (cs : List Char) : Option (List Char) :=
  let digits := cs.takeWhile isDigit
  if digits.isEmpty || 3 < digits.length || (digits.head? == some '0' && 1 < digits.length) ||
      255 < digitsValue 10 digits then none
  else some (cs.dropWhile isDigit)

/-- **After bytes**, each but the first after a dot. -/
def afterBytes? : Nat → Bool → List Char → Option (List Char)
  | 0, _, cs => some cs
  | count + 1, isFirst, cs =>
    if isFirst then
      (afterByte? cs).bind (afterBytes? count false)
    else
      match cs with
      | '.' :: rest => (afterByte? rest).bind (afterBytes? count false)
      | _ => none

/-- **Address of four bytes.** -/
def isIpv4 (cs : List Char) : Bool :=
  afterBytes? 4 true cs == some []

/-! ## Eight groups -/

/-- **After one group**: one to four digits. -/
def afterGroup? (cs : List Char) : Option (List Char) :=
  let digits := cs.takeWhile isHexDigit
  if digits.isEmpty || 4 < digits.length then none else some (cs.dropWhile isHexDigit)

/-- **Groups read**: how many, whether the last two were four bytes, and the rest. -/
structure GroupsRead where
  count : Nat
  endsInBytes : Bool
  rest : List Char

/-- **Groups in a row**, `room` of them at most, each but the first after a colon. -/
def readGroups : Nat → Nat → List Char → GroupsRead
  | 0, count, cs => ⟨count, false, cs⟩
  | room + 1, count, cs =>
    let start? := if count == 0 then some cs else
      match cs with
      | ':' :: rest => some rest
      | _ => none
    match start? with
    | none => ⟨count, false, cs⟩
    | some start =>
      match if room == 0 then none else afterBytes? 4 true start with
      | some rest => ⟨count + 2, true, rest⟩
      | none =>
        match afterGroup? start with
        | some rest => readGroups room (count + 1) rest
        | none => ⟨count, false, cs⟩

/-- **Address of eight groups.** -/
def isIpv6 (cs : List Char) : Bool :=
  let head := readGroups 8 0 cs
  if head.count == 8 then head.rest.isEmpty
  else if head.endsInBytes then false
  else
    match head.rest with
    | ':' :: ':' :: more => (readGroups (7 - head.count) 0 more).rest.isEmpty
    | _ => false

end FormWiring.Check
