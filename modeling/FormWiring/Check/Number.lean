import FormWiring.Text.Digit

/-!
# Numbers as texts

The value of a decimal text as a binary number of 64 bits. A finite value is an integer multiple of the
smallest one, 2 to the power -1074, so values are kept as integers in that unit and compared as such. A text
is rounded to the nearest value, and of two nearest to the even one.

Main definitions: `BinaryValue.ofText?`, `finiteOfText?`.
-/

set_option autoImplicit false

namespace FormWiring.Check

open Text (isDigit digitsValue)

/-! ## Values -/

/-- **Binary value** of 64 bits. -/
inductive BinaryValue where
  /-- A multiple of the unit. -/
  | finite (units : Int)
  | infinite (negative : Bool)
  | undefined
  deriving DecidableEq, Repr

/-- **Exponent of the unit**, negated. -/
def unitExponent : Nat := 1074

/-- **Precision** in bits. -/
def precision : Nat := 53

/-- **Bits of the first value that is out of range**, in units. -/
def rangeBits : Nat := 2098

/-! ## Rounding -/

/-- **Nearest integer** to a quotient; of two nearest the even one. -/
def roundEven (numerator denominator : Nat) : Nat :=
  let q := numerator / denominator
  let r := numerator % denominator
  if 2 * r < denominator then q
  else if denominator < 2 * r then q + 1
  else if q % 2 == 0 then q else q + 1

/-- **Nearest value** to a quotient of units: with the precision's number of bits, or to whole units where that
is coarser. -/
def roundUnits (numerator denominator : Nat) : Nat :=
  let bits := (numerator / denominator).log2 + 1
  let shift := bits - precision
  roundEven numerator (denominator * Nat.pow 2 shift) * Nat.pow 2 shift

/-- **Value of a decimal**: `digits` times a power of ten. Exponents far out of range are settled by the number
of digits alone. -/
def ofDecimal (negative : Bool) (digits : Nat) (exponent : Int) : BinaryValue :=
  let size : Int := (Nat.toDigits 10 digits).length
  if digits == 0 || exponent + size < -400 then .finite 0
  else if 400 < exponent + size then .infinite negative
  else
    let units :=
      if 0 ≤ exponent then roundUnits (digits * Nat.pow 10 exponent.toNat * Nat.pow 2 unitExponent) 1
      else roundUnits (digits * Nat.pow 2 unitExponent) (Nat.pow 10 (-exponent).toNat)
    if Nat.pow 2 rangeBits ≤ units then .infinite negative
    else .finite (if negative then -(units : Int) else units)

/-! ## Reading -/

/-- **Sign** at the start: whether it is a minus, and the rest. -/
def splitSign : List Char → Bool × List Char
  | '-' :: rest => (true, rest)
  | '+' :: rest => (false, rest)
  | cs => (false, cs)

/-- **Exponent** after the digits; nothing is zero. -/
def exponent? : List Char → Option Int
  | [] => some 0
  | c :: rest =>
    if c == 'e' || c == 'E' then
      let (negative, digits) := splitSign rest
      if digits.isEmpty || !digits.all isDigit then none
      else
        let value : Int := digitsValue 10 digits
        some (if negative then -value else value)
    else none

/-- **Words for values that are no numbers**, in lower case. -/
def specialValue? (negative : Bool) (cs : List Char) : Option BinaryValue :=
  let word := String.ofList (cs.map Char.toLower)
  if word == "inf" || word == "infinity" then some (.infinite negative)
  else if word == "nan" then some .undefined
  else none

/-- **Value of an unsigned text**: digits with an optional point among them, then an optional exponent. -/
def unsigned? (negative : Bool) (cs : List Char) : Option BinaryValue :=
  let whole := cs.takeWhile isDigit
  let rest := cs.dropWhile isDigit
  let (fraction, rest) :=
    match rest with
    | '.' :: more => (more.takeWhile isDigit, more.dropWhile isDigit)
    | _ => ([], rest)
  if whole.isEmpty && fraction.isEmpty then specialValue? negative cs
  else (exponent? rest).map fun exponent =>
    ofDecimal negative (digitsValue 10 (whole ++ fraction)) (exponent - fraction.length)

namespace BinaryValue

/-- **Value of a text**, if it is a number. -/
def ofText? (cs : List Char) : Option BinaryValue :=
  let (negative, rest) := splitSign cs
  unsigned? negative rest

/-- **Units of a finite value.** -/
def units? : BinaryValue → Option Int
  | finite units => some units
  | _ => none

end BinaryValue

/-- **Units of a text** that is a finite number. -/
def finiteOfText? (cs : List Char) : Option Int :=
  (BinaryValue.ofText? cs).bind BinaryValue.units?

end FormWiring.Check
