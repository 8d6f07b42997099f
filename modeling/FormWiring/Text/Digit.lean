/-!
# Digits

ASCII digits in base ten and sixteen, and the value of digits in a row.
-/

set_option autoImplicit false

namespace FormWiring.Text

/-- **Decimal digits.** -/
def isDigit (c : Char) : Bool :=
  '0' ≤ c && c ≤ '9'

/-- **Digits of base sixteen**, in either case. -/
def isHexDigit (c : Char) : Bool :=
  isDigit c || ('a' ≤ c && c ≤ 'f') || ('A' ≤ c && c ≤ 'F')

/-- **Value of a digit** of base sixteen or less. -/
def digitValue (c : Char) : Nat :=
  if isDigit c then c.toNat - 48
  else if 'a' ≤ c && c ≤ 'f' then c.toNat - 87
  else c.toNat - 55

/-- **Value of digits** in a base, after digits worth `value`. -/
def digitsValueFrom (base value : Nat) (digits : List Char) : Nat :=
  digits.foldl (fun value c => value * base + digitValue c) value

/-- **Value of digits** in a base. -/
def digitsValue (base : Nat) (digits : List Char) : Nat :=
  digitsValueFrom base 0 digits

/-- **Integer of a decimal text** with an optional sign, if it is one. -/
def decimalInteger? (s : String) : Option Int :=
  let digits? := fun cs : List Char =>
    if cs.isEmpty || !cs.all isDigit then none else some (digitsValue 10 cs)
  match s.toList with
  | '-' :: rest => (digits? rest).map fun n => -(n : Int)
  | '+' :: rest => (digits? rest).map fun n => (n : Int)
  | cs => (digits? cs).map fun n => (n : Int)

end FormWiring.Text
