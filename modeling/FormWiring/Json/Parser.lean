import FormWiring.Datum
import FormWiring.Text.Digit

/-!
# Reading JSON

A reader of the strict grammar: one value with blanks around it and nothing else. The recursion is bounded by
the number of characters, since every value and every entry takes at least one.
-/

set_option autoImplicit false

namespace FormWiring.Json

/-! ## Blanks -/

/-- **Blanks** between tokens. -/
def isSpace (c : Char) : Bool :=
  c == ' ' || c == '\n' || c == '\t' || c == '\r'

/-- **Text after leading blanks.** -/
def skipSpace (cs : List Char) : List Char :=
  cs.dropWhile isSpace

/-! ## Numbers -/

/-- **Integer, or a number kept as written** when it is out of the 64 bit ranges. Minus zero is no integer. -/
def integerDatum (negative : Bool) (digits : List Char) : Datum :=
  let value := Text.digitsValue 10 digits
  if negative then
    if value == 0 || -(value : Int) < Int64.minValue.toInt then .real (String.ofList ('-' :: digits))
    else .int (-(value : Int))
  else if value < UInt64.size then .int value
  else .real (String.ofList digits)

/-- **Fraction and exponent** after the integer part: what was read and the rest. -/
def scanFraction (cs : List Char) : Option (List Char × List Char) :=
  match cs with
  | '.' :: rest =>
    let digits := rest.takeWhile Text.isDigit
    if digits.isEmpty then none else some ('.' :: digits, rest.dropWhile Text.isDigit)
  | _ => some ([], cs)

/-- **Exponent** of a number: what was read and the rest. -/
def scanExponent (cs : List Char) : Option (List Char × List Char) :=
  match cs with
  | c :: rest =>
    if c == 'e' || c == 'E' then
      let (sign, rest) :=
        match rest with
        | '+' :: more => (['+'], more)
        | '-' :: more => (['-'], more)
        | _ => ([], rest)
      let digits := rest.takeWhile Text.isDigit
      if digits.isEmpty then none
      else some (c :: (sign ++ digits), rest.dropWhile Text.isDigit)
    else some ([], cs)
  | [] => some ([], cs)

/-- **Number** after its sign: no leading zeros, and digits on both sides of a point. -/
def parseNumber (negative : Bool) (cs : List Char) : Option (Datum × List Char) := do
  let digits := cs.takeWhile Text.isDigit
  let rest := cs.dropWhile Text.isDigit
  if digits.isEmpty || (digits.head? == some '0' && digits.length != 1) then none
  let (fraction, rest) ← scanFraction rest
  let (exponent, rest) ← scanExponent rest
  if fraction.isEmpty && exponent.isEmpty then
    pure (integerDatum negative digits, rest)
  else
    let sign := if negative then ['-'] else []
    pure (.real (String.ofList (sign ++ digits ++ fraction ++ exponent)), rest)

/-! ## Texts -/

/-- **Four digits** of base sixteen. -/
def hex4? : List Char → Option (Nat × List Char)
  | a :: b :: c :: d :: rest =>
    if [a, b, c, d].all Text.isHexDigit then some (Text.digitsValue 16 [a, b, c, d], rest) else none
  | _ => none

/-- **Character escaped by number**, after the `u`: a high half must be followed by its low half. -/
def numberedChar? (cs : List Char) : Option (Char × List Char) := do
  let (n, rest) ← hex4? cs
  if 0xD800 ≤ n && n < 0xDC00 then
    match rest with
    | '\\' :: 'u' :: more =>
      let (m, rest) ← hex4? more
      if 0xDC00 ≤ m && m < 0xE000 then
        pure (Char.ofNat (0x10000 + (n - 0xD800) * 0x400 + (m - 0xDC00)), rest)
      else none
    | _ => none
  else if 0xDC00 ≤ n && n < 0xE000 then none
  else pure (Char.ofNat n, rest)

/-- **Character of a one letter escape**, if it is one. -/
def escapedChar? : Char → Option Char
  | '"' => some '"'
  | '\\' => some '\\'
  | '/' => some '/'
  | 'b' => some '\x08'
  | 'f' => some '\x0c'
  | 'n' => some '\n'
  | 'r' => some '\r'
  | 't' => some '\t'
  | _ => none

/-- **Characters of a text** up to its closing quote, and the rest. -/
def parseTextChars : Nat → List Char → Option (List Char × List Char)
  | 0, _ => none
  | fuel + 1, cs =>
    match cs with
    | [] => none
    | '"' :: rest => some ([], rest)
    | '\\' :: 'u' :: rest => do
      let (c, rest) ← numberedChar? rest
      let (text, rest) ← parseTextChars fuel rest
      pure (c :: text, rest)
    | '\\' :: e :: rest => do
      let c ← escapedChar? e
      let (text, rest) ← parseTextChars fuel rest
      pure (c :: text, rest)
    | c :: rest =>
      if c.toNat < 0x20 || c == '\\' then none
      else do
        let (text, rest) ← parseTextChars fuel rest
        pure (c :: text, rest)

/-- **Text** after its opening quote. -/
def parseText (fuel : Nat) (cs : List Char) : Option (String × List Char) := do
  let (text, rest) ← parseTextChars fuel cs
  pure (String.ofList text, rest)

/-! ## Values -/

/-- **Rest after a word**, if the text starts with it. -/
def afterWord? (word : List Char) (cs : List Char) : Option (List Char) :=
  if word.isPrefixOf cs then some (cs.drop word.length) else none

mutual

/-- **Value** after optional blanks. -/
def parseValue : Nat → List Char → Option (Datum × List Char)
  | 0, _ => none
  | fuel + 1, cs =>
    match skipSpace cs with
    | '\x7b' :: rest =>
      match skipSpace rest with
      | '\x7d' :: rest => some (.record [], rest)
      | rest => do
        let (entries, rest) ← parseEntries fuel [] rest
        pure (.record entries, rest)
    | '[' :: rest =>
      match skipSpace rest with
      | ']' :: rest => some (.list [], rest)
      | rest => do
        let (items, rest) ← parseItems fuel rest
        pure (.list items, rest)
    | '"' :: rest => do
      let (text, rest) ← parseText fuel rest
      pure (.text text, rest)
    | 'n' :: rest => do
      let rest ← afterWord? "ull".toList rest
      pure (.null, rest)
    | 't' :: rest => do
      let rest ← afterWord? "rue".toList rest
      pure (.bool true, rest)
    | 'f' :: rest => do
      let rest ← afterWord? "alse".toList rest
      pure (.bool false, rest)
    | '-' :: rest => parseNumber true rest
    | rest => parseNumber false rest

/-- **Items of a list**, at least one, up to its end. -/
def parseItems : Nat → List Char → Option (List Datum × List Char)
  | 0, _ => none
  | fuel + 1, cs => do
    let (item, rest) ← parseValue fuel cs
    match skipSpace rest with
    | ']' :: rest => pure ([item], rest)
    | ',' :: rest =>
      let (items, rest) ← parseItems fuel rest
      pure (item :: items, rest)
    | _ => none

/-- **Entries of a record**, at least one, up to its end; a repeated key takes the last value. -/
def parseEntries : Nat → List (String × Datum) → List Char →
    Option (List (String × Datum) × List Char)
  | 0, _, _ => none
  | fuel + 1, seen, cs =>
    match skipSpace cs with
    | '"' :: rest => do
      let (key, rest) ← parseText fuel rest
      match skipSpace rest with
      | ':' :: rest =>
        let (value, rest) ← parseValue fuel rest
        let seen := Datum.putEntry key value seen
        match skipSpace rest with
        | '\x7d' :: rest => pure (seen, rest)
        | ',' :: rest => parseEntries fuel seen rest
        | _ => none
      | _ => none
    | _ => none

end

/-- **Data tree of a JSON text**, if it is one. -/
def parse? (s : String) : Option Datum :=
  let cs := s.toList
  match parseValue (cs.length + 1) cs with
  | some (d, rest) => if (skipSpace rest).isEmpty then some d else none
  | none => none

end FormWiring.Json
