import FormWiring.Calendar.Date
import FormWiring.Check.Number
import FormWiring.Datum

/-!
# Scalars of TOML

Blanks, comments and the plain values of a TOML text: texts in their four written forms, numbers, dates and
times. Each reader takes the characters at the front and gives what it read with the rest.

Main definitions: `scanText`, `scanScalar`.
-/

set_option autoImplicit false

namespace FormWiring.Toml

open Text (isDigit isHexDigit digitsValue)

/-! ## Blanks and comments -/

/-- **Blanks** within a line. -/
def isSpace (c : Char) : Bool :=
  c == ' ' || c == '\t'

/-- **Plain characters**: all but the controls; a tab is no control here. -/
def isPlain (c : Char) : Bool :=
  c == '\t' || (0x20 ≤ c.toNat && c.toNat != 0x7F)

/-- **Text after leading blanks** of the line. -/
def skipSpace (cs : List Char) : List Char :=
  cs.dropWhile isSpace

/-- **Text after a line end**, if it starts with one. -/
def afterLineEnd? : List Char → Option (List Char)
  | '\n' :: rest => some rest
  | '\r' :: '\n' :: rest => some rest
  | _ => none

/-- **Text after a comment**, if it starts with one. -/
def skipComment : List Char → List Char
  | '#' :: rest => rest.dropWhile isPlain
  | cs => cs

/-- **Text after blanks, line ends and comments**; within a comment the blanks are its own. -/
def skipLayout (inComment : Bool) : List Char → List Char
  | [] => []
  | '\r' :: '\n' :: rest => skipLayout false rest
  | c :: rest =>
    if c == '\n' then skipLayout false rest
    else if inComment then if isPlain c then skipLayout true rest else c :: rest
    else if isSpace c then skipLayout false rest
    else if c == '#' then skipLayout true rest
    else c :: rest

/-- **Text after blanks and line ends.** -/
def skipBlankLines : List Char → List Char
  | [] => []
  | '\r' :: '\n' :: rest => skipBlankLines rest
  | c :: rest => if c == '\n' || isSpace c then skipBlankLines rest else c :: rest

/-- **Rest of a line** that has nothing more to say: what comes after its end. -/
def finishLine? (cs : List Char) : Option (List Char) :=
  match skipComment (skipSpace cs) with
  | [] => some []
  | rest => afterLineEnd? rest

/-! ## Texts -/

/-- **Character named by its number** in so many digits of base sixteen. -/
def numberedChar? (width : Nat) (cs : List Char) : Option (Char × List Char) :=
  let digits := cs.take width
  let n := digitsValue 16 digits
  if digits.length = width ∧ digits.all isHexDigit ∧ n.isValidChar then some (Char.ofNat n, cs.drop width)
  else none

/-- **Escaped character**, after its backslash. -/
def escapedChar? : List Char → Option (Char × List Char)
  | 'b' :: rest => some ('\x08', rest)
  | 't' :: rest => some ('\t', rest)
  | 'n' :: rest => some ('\n', rest)
  | 'f' :: rest => some ('\x0c', rest)
  | 'r' :: rest => some ('\r', rest)
  | '"' :: rest => some ('"', rest)
  | '\\' :: rest => some ('\\', rest)
  | 'u' :: rest => numberedChar? 4 rest
  | 'U' :: rest => numberedChar? 8 rest
  | _ => none

/-- **Quotes that read escapes.** Between single quotes a backslash is a character like any other. -/
def hasEscapes (quote : Char) : Bool :=
  quote == '"'

/-- **Characters of a text on one line**, up to its closing quote. -/
def scanLineText (quote : Char) : Nat → List Char → Option (List Char × List Char)
  | 0, _ => none
  | fuel + 1, cs =>
    match cs with
    | [] => none
    | c :: rest =>
      if c == quote then some ([], rest)
      else if c == '\\' && hasEscapes quote then do
        let (e, rest) ← escapedChar? rest
        let (text, rest) ← scanLineText quote fuel rest
        pure (e :: text, rest)
      else if isPlain c then do
        let (text, rest) ← scanLineText quote fuel rest
        pure (c :: text, rest)
      else none

/-- **Characters of a text over several lines**, up to its three closing quotes. One or two quotes may stand
before those; every line end reads as a line feed; a backslash at the end of a line skips to the next character
that is no blank. -/
def scanBlockText (quote : Char) : Nat → List Char → Option (List Char × List Char)
  | 0, _ => none
  | fuel + 1, cs =>
    match cs with
    | [] => none
    | c :: rest =>
      if c == quote then
        let quotes := cs.takeWhile (· == quote)
        let rest := cs.dropWhile (· == quote)
        if quotes.length < 3 then do
          let (text, rest) ← scanBlockText quote fuel rest
          pure (quotes ++ text, rest)
        else if quotes.length ≤ 5 then some (quotes.drop 3, rest)
        else none
      else if c == '\\' && hasEscapes quote then
        match afterLineEnd? (skipSpace rest) with
        | some next => scanBlockText quote fuel (skipBlankLines next)
        | none => do
          let (e, rest) ← escapedChar? rest
          let (text, rest) ← scanBlockText quote fuel rest
          pure (e :: text, rest)
      else
        match afterLineEnd? cs with
        | some next => do
          let (text, rest) ← scanBlockText quote fuel next
          pure ('\n' :: text, rest)
        | none =>
          if isPlain c then do
            let (text, rest) ← scanBlockText quote fuel rest
            pure (c :: text, rest)
          else none

/-- **Text** after its first quote. Three quotes open a text over several lines, whose first line end does not
count. -/
def scanText (quote : Char) (cs : List Char) : Option (String × List Char) := do
  let (text, rest) ←
    match cs with
    | b :: c :: rest =>
      if b == quote && c == quote then
        scanBlockText quote (rest.length + 1) ((afterLineEnd? rest).getD rest)
      else scanLineText quote (cs.length + 1) cs
    | _ => scanLineText quote (cs.length + 1) cs
  pure (String.ofList text, rest)

/-! ## Numbers -/

/-- **Further digits** of a number: single underscores may stand between digits. -/
def scanDigits (isOne : Char → Bool) : List Char → Option (List Char × List Char)
  | [] => some ([], [])
  | '_' :: c :: rest =>
    if isOne c then (scanDigits isOne rest).map fun (digits, rest) => (c :: digits, rest) else none
  | c :: rest =>
    if isOne c then (scanDigits isOne rest).map fun (digits, rest) => (c :: digits, rest)
    else if c == '_' then none
    else some ([], c :: rest)

/-- **Digits of a number**, one at least. -/
def scanSomeDigits (isOne : Char → Bool) (cs : List Char) : Option (List Char × List Char) := do
  let (digits, rest) ←
    match cs with
    | c :: _ => if isOne c then scanDigits isOne cs else none
    | [] => none
  pure (digits, rest)

/-- **Whole part of a decimal**: no leading zero but zero itself. -/
def scanWhole : List Char → Option (List Char × List Char)
  | '0' :: rest => some (['0'], rest)
  | cs => scanSomeDigits isDigit cs

/-- **Integer of 64 bits** as a datum. -/
def integerDatum? (negative : Bool) (value : Nat) : Option Datum :=
  let n : Int := if negative then -value else value
  if Int64.minValue.toInt ≤ n ∧ n ≤ Int64.maxValue.toInt then some (.int n) else none

/-- **Integer in another base**, after its mark. -/
def scanBased (base : Nat) (isOne : Char → Bool) (cs : List Char) : Option (Datum × List Char) := do
  let (digits, rest) ← scanSomeDigits isOne cs
  let value ← integerDatum? false (digitsValue base digits)
  pure (value, rest)

/-- **Fraction** after the whole part: its digits; a point must have some. -/
def scanFraction : List Char → Option (List Char × List Char)
  | '.' :: rest => scanSomeDigits isDigit rest
  | cs => some ([], cs)

/-- **Exponent** after the digits, if there is one. -/
def scanExponent (cs : List Char) : Option (Option Int × List Char) :=
  match cs with
  | c :: rest =>
    if c == 'e' || c == 'E' then do
      let (negative, rest) := Check.splitSign rest
      let (digits, rest) ← scanSomeDigits isDigit rest
      let value : Int := digitsValue 10 digits
      pure (some (if negative then -value else value), rest)
    else some (none, cs)
  | [] => some (none, [])

/-- **Decimal number** after its sign. A fraction or an exponent makes it real; a real number above the range is
refused, one below it is not. -/
def scanDecimal (negative : Bool) (cs : List Char) : Option (Datum × List Char) := do
  let (whole, rest) ← scanWhole cs
  let (fraction, rest) ← scanFraction rest
  let (exponent, rest) ← scanExponent rest
  if fraction.isEmpty && exponent.isNone then
    let value ← integerDatum? negative (digitsValue 10 whole)
    pure (value, rest)
  else
    let scale := exponent.getD 0 - fraction.length
    if Check.ofDecimal negative (digitsValue 10 (whole ++ fraction)) scale == .infinite false then none
    else
      let written := (cs.take (cs.length - rest.length)).filter (· != '_')
      pure (.real (String.ofList (if negative then '-' :: written else written)), rest)

/-- **Rest after a word**, if the text starts with it. -/
def afterWord? (word : String) (cs : List Char) : Option (List Char) :=
  if word.toList.isPrefixOf cs then some (cs.drop word.length) else none

/-- **Words for numbers** that have no digits. -/
def scanNumberWord (cs : List Char) : Option (Datum × List Char) :=
  ((afterWord? "inf" cs).map fun rest => (.real "inf", rest)) <|>
    (afterWord? "nan" cs).map fun rest => (.real "nan", rest)

/-- **Number**, signed or in another base. -/
def scanNumber : List Char → Option (Datum × List Char)
  | '0' :: 'x' :: rest => scanBased 16 isHexDigit rest
  | '0' :: 'o' :: rest => scanBased 8 (fun c => '0' ≤ c && c ≤ '7') rest
  | '0' :: 'b' :: rest => scanBased 2 (fun c => c == '0' || c == '1') rest
  | cs =>
    let (negative, rest) := Check.splitSign cs
    scanDecimal negative rest <|> scanNumberWord rest

/-! ## Dates and times -/

/-- **Number of so many digits** within bounds. -/
def scanBounded (width low high : Nat) (cs : List Char) : Option (Nat × List Char) :=
  let digits := cs.take width
  let n := digitsValue 10 digits
  if digits.length = width ∧ digits.all isDigit ∧ low ≤ n ∧ n ≤ high then some (n, cs.drop width) else none

/-- **Rest after a character**, if the text starts with it. -/
def after? (mark : Char) : List Char → Option (List Char)
  | c :: rest => if c == mark then some rest else none
  | [] => none

/-- **Rest after a date**: its day must be one of its month. -/
def afterDate? (cs : List Char) : Option (List Char) := do
  let (year, rest) ← scanBounded 4 0 9999 cs
  let (month, rest) ← scanBounded 2 1 12 (← after? '-' rest)
  let (day, rest) ← scanBounded 2 1 31 (← after? '-' rest)
  let _ ← Calendar.Date.ofMonthDay? year month day
  pure rest

/-- **Rest after a fraction of a second**, if there is one. -/
def skipSecondFraction : List Char → List Char
  | '.' :: c :: rest => if isDigit c then rest.dropWhile isDigit else '.' :: c :: rest
  | cs => cs

/-- **Rest after a time** of the day; a leap second may be the last. -/
def afterTime? (cs : List Char) : Option (List Char) := do
  let (_, rest) ← scanBounded 2 0 23 cs
  let (_, rest) ← scanBounded 2 0 59 (← after? ':' rest)
  let (_, rest) ← scanBounded 2 0 60 (← after? ':' rest)
  pure (skipSecondFraction rest)

/-- **Rest after an offset** from universal time, if there is one. -/
def skipOffset (cs : List Char) : List Char :=
  match cs with
  | c :: rest =>
    if c == 'Z' || c == 'z' then rest
    else if c == '+' || c == '-' then
      let after? : Option (List Char) := do
        let (_, rest) ← scanBounded 2 0 23 rest
        let (_, rest) ← scanBounded 2 0 59 (← after? ':' rest)
        pure rest
      after?.getD cs
    else cs
  | [] => []

/-- **Rest after a time that follows a date**, if there is one. -/
def skipTimeOfDay (cs : List Char) : List Char :=
  match cs with
  | c :: rest =>
    if c == 'T' || c == 't' || c == ' ' then ((afterTime? rest).map skipOffset).getD cs else cs
  | [] => []

/-- **Key under which a date reads**: a record with one key that no structure knows. -/
def dateKey : String := "date"

/-- **Date, time or both.** -/
def scanDate (cs : List Char) : Option (Datum × List Char) := do
  let rest ← ((afterDate? cs).map skipTimeOfDay) <|> afterTime? cs
  pure (.record [(dateKey, .text (String.ofList (cs.take (cs.length - rest.length))))], rest)

/-! ## Scalars -/

/-- **Scalar** at the front. -/
def scanScalar (cs : List Char) : Option (Datum × List Char) :=
  match cs with
  | [] => none
  | c :: rest =>
    if c == '"' || c == '\'' then (scanText c rest).map fun (text, rest) => (.text text, rest)
    else
      ((afterWord? "true" cs).map fun rest => (.bool true, rest)) <|>
      ((afterWord? "false" cs).map fun rest => (.bool false, rest)) <|>
      scanDate cs <|> scanNumber cs

end FormWiring.Toml
