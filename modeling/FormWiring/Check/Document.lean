import FormWiring.Text.Digit

/-!
# Document numbers

Numbers with check digits: the taxpayer numbers of persons and of companies, book numbers and card numbers.
Separators are dropped first; any other character that is no digit spoils the number.
-/

set_option autoImplicit false

namespace FormWiring.Check

/-! ## Digits -/

/-- **Value of a digit**, if it is one. -/
def digit? (c : Char) : Option Nat :=
  if Text.isDigit c then some (Text.digitValue c) else none

/-- **Digits between separators**, if there is nothing else. -/
def digits? (separators : List Char) (cs : List Char) : Option (List Nat) :=
  (cs.filter fun c => !separators.contains c).mapM digit?

/-- **All digits the same.** -/
def allSame : List Nat → Bool
  | [] => true
  | d :: rest => rest.all (· == d)

/-! ## Taxpayer numbers -/

/-- **Weighted sum.** -/
def weightedSum (digits weights : List Nat) : Nat :=
  (List.zipWith (· * ·) digits weights).foldl (· + ·) 0

/-- **Check digit modulo eleven** of a weighted sum: what is missing to a multiple, and zero where that has
two digits. -/
def checkDigit (sum : Nat) : Nat :=
  if sum % 11 ≤ 1 then 0 else 11 - sum % 11

/-- **Two check digits** at the end of `count` digits, with the weights of the first and the second. -/
def endsInCheckDigits (count : Nat) (first second : List Nat) (digits : List Nat) : Bool :=
  digits.length == count && !allSame digits &&
    digits[count - 2]? == some (checkDigit (weightedSum (digits.take (count - 2)) first)) &&
    digits[count - 1]? == some (checkDigit (weightedSum (digits.take (count - 1)) second))

/-- **Taxpayer number of a person.** -/
def isCpf (cs : List Char) : Bool :=
  (digits? ['.', '-', ' '] cs).any
    (endsInCheckDigits 11 [10, 9, 8, 7, 6, 5, 4, 3, 2] [11, 10, 9, 8, 7, 6, 5, 4, 3, 2])

/-- **Taxpayer number of a company.** -/
def isCnpj (cs : List Char) : Bool :=
  (digits? ['.', '-', '/', ' '] cs).any
    (endsInCheckDigits 14 [5, 4, 3, 2, 9, 8, 7, 6, 5, 4, 3, 2] [6, 5, 4, 3, 2, 9, 8, 7, 6, 5, 4, 3, 2])

/-! ## Book numbers -/

/-- **Values of a ten character book number** of which `left` characters are left: the last may be an X. -/
def bookValues? : List Char → Option (List Nat)
  | [] => some []
  | [c] => if c == 'X' || c == 'x' then some [10] else (digit? c).map ([·])
  | c :: rest => do
    let d ← digit? c
    let ds ← bookValues? rest
    pure (d :: ds)

/-- **Book number of ten.** -/
def isBookTen (cs : List Char) : Bool :=
  (bookValues? cs).any fun ds => weightedSum ds [10, 9, 8, 7, 6, 5, 4, 3, 2, 1] % 11 == 0

/-- **Book number of thirteen.** -/
def isBookThirteen (cs : List Char) : Bool :=
  (cs.mapM digit?).any fun ds => weightedSum ds [1, 3, 1, 3, 1, 3, 1, 3, 1, 3, 1, 3, 1] % 10 == 0

/-- **Book number**, of ten or thirteen characters between dashes and blanks. -/
def isIsbn (cs : List Char) : Bool :=
  let compact := cs.filter fun c => c != '-' && c != ' '
  if compact.length == 10 then isBookTen compact
  else if compact.length == 13 then isBookThirteen compact
  else false

/-! ## Card numbers -/

/-- **Doubled digit**, its own digits added up. -/
def doubled (d : Nat) : Nat :=
  if 9 < d * 2 then d * 2 - 9 else d * 2

/-- **Sum over digits from the last**, every second one doubled. -/
def luhnSum (isSecond : Bool) : List Nat → Nat
  | [] => 0
  | d :: rest => (if isSecond then doubled d else d) + luhnSum (!isSecond) rest

/-- **Card number**: 13 to 19 digits between blanks and dashes. -/
def isCard (cs : List Char) : Bool :=
  (digits? [' ', '-'] cs).any fun ds =>
    13 ≤ ds.length && ds.length ≤ 19 && luhnSum false ds.reverse % 10 == 0

end FormWiring.Check
