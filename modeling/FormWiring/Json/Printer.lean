import FormWiring.Datum

/-!
# Writing JSON

Two layouts of a data tree: everything on one line, or one entry a line with two blanks a level. Only quotes,
backslashes and control characters are escaped in texts.
-/

set_option autoImplicit false

namespace FormWiring.Json

/-! ## Texts -/

/-- **Lower case digit** of base sixteen. -/
def hexDigit (n : Nat) : Char :=
  if n < 10 then Char.ofNat (48 + n) else Char.ofNat (87 + n)

/-- **Escape of a character** in a JSON text. -/
def escapeChar (c : Char) : List Char :=
  if c == '"' then ['\\', '"']
  else if c == '\\' then ['\\', '\\']
  else if c == '\n' then ['\\', 'n']
  else if c == '\r' then ['\\', 'r']
  else if c == '\t' then ['\\', 't']
  else if c == '\x08' then ['\\', 'b']
  else if c == '\x0c' then ['\\', 'f']
  else if c.toNat < 0x20 then
    ['\\', 'u', '0', '0', hexDigit (c.toNat / 16), hexDigit (c.toNat % 16)]
  else [c]

/-- **Quoted text.** -/
def quoteChars (s : String) : List Char :=
  '"' :: (s.toList.flatMap escapeChar ++ ['"'])

/-- **Digits of an integer**, with its sign. -/
def intChars (n : Int) : List Char :=
  match n with
  | .ofNat m => Nat.toDigits 10 m
  | .negSucc m => '-' :: Nat.toDigits 10 (m + 1)

/-! ## One line -/

mutual

/-- **Characters of a tree** on one line. -/
def compactChars : Datum → List Char
  | .null => "null".toList
  | .bool value => if value then "true".toList else "false".toList
  | .int value => intChars value
  | .real digits => digits.toList
  | .text value => quoteChars value
  | .list [] => ['[', ']']
  | .list (item :: items) => '[' :: (compactChars item ++ compactItems items)
  | .record [] => ['\x7b', '\x7d']
  | .record ((key, value) :: entries) =>
    '\x7b' :: (quoteChars key ++ ':' :: (compactChars value ++ compactEntries entries))

/-- **Further items** of a list and its end. -/
def compactItems : List Datum → List Char
  | [] => [']']
  | item :: items => ',' :: (compactChars item ++ compactItems items)

/-- **Further entries** of a record and its end. -/
def compactEntries : List (String × Datum) → List Char
  | [] => ['\x7d']
  | (key, value) :: entries =>
    ',' :: (quoteChars key ++ ':' :: (compactChars value ++ compactEntries entries))

end

/-- **Tree on one line.** -/
def compact (d : Datum) : String :=
  String.ofList (compactChars d)

/-! ## One entry a line -/

/-- **Start of a line** at a level: a line end and two blanks a level. -/
def lineStart (level : Nat) : List Char :=
  '\n' :: List.replicate (2 * level) ' '

mutual

/-- **Characters of a tree**, one entry a line, at a level. -/
def prettyChars (level : Nat) : Datum → List Char
  | .null => "null".toList
  | .bool value => if value then "true".toList else "false".toList
  | .int value => intChars value
  | .real digits => digits.toList
  | .text value => quoteChars value
  | .list [] => ['[', ']']
  | .list (item :: items) =>
    '[' :: (lineStart (level + 1) ++ (prettyChars (level + 1) item ++ prettyItems level items))
  | .record [] => ['\x7b', '\x7d']
  | .record ((key, value) :: entries) =>
    '\x7b' :: (lineStart (level + 1) ++ (quoteChars key ++ ':' :: ' ' ::
      (prettyChars (level + 1) value ++ prettyEntries level entries)))

/-- **Further items** of a list and its end. -/
def prettyItems (level : Nat) : List Datum → List Char
  | [] => lineStart level ++ [']']
  | item :: items =>
    ',' :: (lineStart (level + 1) ++ (prettyChars (level + 1) item ++ prettyItems level items))

/-- **Further entries** of a record and its end. -/
def prettyEntries (level : Nat) : List (String × Datum) → List Char
  | [] => lineStart level ++ ['\x7d']
  | (key, value) :: entries =>
    ',' :: (lineStart (level + 1) ++ (quoteChars key ++ ':' :: ' ' ::
      (prettyChars (level + 1) value ++ prettyEntries level entries)))

end

/-- **Tree with one entry a line.** -/
def pretty (d : Datum) : String :=
  String.ofList (prettyChars 0 d)

end FormWiring.Json
