import FormWiring.Text.Category

/-!
# Quoted text

Two ways to write a text between quotes. `quote` is for people: plans and log records show names and messages
this way. `quoteLiteral` is for code: it differs only in a NUL before an octal digit, which would read as a
longer escape.
-/

set_option autoImplicit false

namespace FormWiring.Text

/-! ## Escapes -/

/-- **Base sixteen digits** of a number, in lower case and without leading zeros. -/
def hexDigits (n : Nat) : List Char :=
  Nat.toDigits 16 n

/-- **Numeric escape** of a character: its code point in base sixteen between braces. -/
def unicodeEscape (c : Char) : List Char :=
  '\\' :: 'u' :: '\x7b' :: (hexDigits c.toNat ++ ['\x7d'])

/-- **Escape of a character** between double quotes. Characters that cannot be seen, or that would join the
one before, are written by number. -/
def escapeChar (c : Char) : List Char :=
  if c == '\x00' then ['\\', '0']
  else if c == '\t' then ['\\', 't']
  else if c == '\r' then ['\\', 'r']
  else if c == '\n' then ['\\', 'n']
  else if c == '"' || c == '\\' then ['\\', c]
  else if isGraphemeExtend c || !isPrintable c then unicodeEscape c
  else [c]

/-! ## Quoting -/

/-- **Quoted text**, for people. -/
def quote (s : String) : String :=
  String.ofList ('"' :: (s.toList.flatMap escapeChar ++ ['"']))

/-- **Octal digits.** -/
def isOctalDigit (c : Char) : Bool :=
  '0' ≤ c && c ≤ '7'

/-- **Escaped characters of a code literal.** -/
def escapeLiteral : List Char → List Char
  | [] => []
  | c :: rest =>
    (if c == '\x00' && rest.head?.any isOctalDigit then ['\\', 'x', '0', '0'] else escapeChar c) ++
      escapeLiteral rest

/-- **Quoted code literal.** -/
def quoteLiteral (s : String) : String :=
  String.ofList ('"' :: (escapeLiteral s.toList ++ ['"']))

end FormWiring.Text
