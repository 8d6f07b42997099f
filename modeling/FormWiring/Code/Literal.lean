import FormWiring.Code.Grammar

/-!
# Values of literals

What a literal lexeme stands for: a text with its escapes replaced, the digits of a number in base ten, a truth
value, or something that has no value here.
-/

set_option autoImplicit false

namespace FormWiring.Code

open Text (isDigit isHexDigit digitValue)

/-! ## Texts -/

/-- **Value of a quoted text**, after its opening quote and up to its closing one. A backslash before a line
end drops the blanks that follow, and a line end is one character. -/
def unescape : Nat → List Char → List Char
  | 0, _ => []
  | fuel + 1, cs =>
    match cs with
    | [] | '"' :: _ => []
    | '\r' :: '\n' :: rest => '\n' :: unescape fuel rest
    | '\\' :: 'x' :: rest =>
      match escapeTwo? .text rest with
      | some (value, rest) => Char.ofNat value :: unescape fuel rest
      | none => []
    | '\\' :: 'u' :: rest =>
      match escapeNumbered? rest with
      | some (value, rest) => Char.ofNat value :: unescape fuel rest
      | none => []
    | '\\' :: '\n' :: rest => unescape fuel (rest.dropWhile Text.isBlank)
    | '\\' :: '\r' :: rest => unescape fuel (rest.dropWhile Text.isBlank)
    | '\\' :: c :: rest => (simpleEscape? c).toList ++ unescape fuel rest
    | ['\\'] => []
    | c :: rest => c :: unescape fuel rest

/-- **Value of a raw text** with `hashes`, after its opening quote. -/
def rawBody (hashes : List Char) : List Char → List Char
  | [] => []
  | c :: rest => if c == '"' && hashes.isPrefixOf rest then [] else c :: rawBody hashes rest

/-- **Value of a text literal**, if it is one. -/
def textValue? (literal : String) : Option String :=
  match literal.toList with
  | '"' :: rest => some (String.ofList (unescape (rest.length + 1) rest))
  | 'r' :: rest =>
    let hashes := rest.takeWhile (· == '#')
    match rest.dropWhile (· == '#') with
    | '"' :: body => some (String.ofList (rawBody hashes body))
    | _ => none
  | _ => none

/-! ## Numbers -/

/-- **Name characters only**, the first one fit to start a name; or nothing. -/
def isSuffix (cs : List Char) : Bool :=
  match cs with
  | [] => true
  | c :: rest => startsName c && rest.all Text.isNameChar

/-- **An exponent follows** the letter for it: a sign or a digit, underscores apart. -/
def exponentFollows (cs : List Char) : Bool :=
  (cs.dropWhile (· == '_')).head?.any fun c => c == '-' || c == '+' || isDigit c

/-- **Integer digits** in a base: the value, whether there was a digit and the rest; none when the number
turns out to have a fraction or an exponent, or a digit outside the base. -/
def integerDigits? (base value : Nat) (seen : Bool) : List Char → Option (Nat × Bool × List Char)
  | [] => some (value, seen, [])
  | c :: rest =>
    if isDigit c || (10 < base && isHexDigit c) then
      if digitValue c < base then integerDigits? base (value * base + digitValue c) true rest else none
    else if c == '_' then integerDigits? base value seen rest
    else if c == '.' && base == 10 then none
    else if (c == 'e' || c == 'E') && base == 10 && exponentFollows rest then none
    else some (value, seen, c :: rest)

/-- **Value of an integer literal**, if it is one. -/
def integerValue? (cs : List Char) : Option Nat := do
  let (base, digits) :=
    match cs with
    | '0' :: 'x' :: rest => (16, rest)
    | '0' :: 'o' :: rest => (8, rest)
    | '0' :: 'b' :: rest => (2, rest)
    | _ => (10, cs)
  if !(cs.head?.any isDigit) then none
  let (value, seen, rest) ← integerDigits? base 0 false digits
  if seen && isSuffix rest then some value else none

/-- **State while reading a number with a fraction or an exponent.** -/
structure FloatScan where
  digits : List Char := []
  hasPoint : Bool := false
  hasExponentMark : Bool := false
  hasSign : Bool := false
  hasExponent : Bool := false

/-- **Digits of a number with a fraction or an exponent**, without underscores and the plus of the exponent,
and the rest. The digits are collected backwards. -/
def floatDigits? (s : FloatScan) : List Char → Option (FloatScan × List Char)
  | [] => some (s, [])
  | c :: rest =>
    if c == '_' then floatDigits? s rest
    else if isDigit c then
      floatDigits? { s with digits := c :: s.digits, hasExponent := s.hasExponent || s.hasExponentMark } rest
    else if c == '.' then
      if s.hasExponentMark || s.hasPoint then none
      else floatDigits? { s with digits := c :: s.digits, hasPoint := true } rest
    else if c == 'e' || c == 'E' then
      if !exponentFollows rest then some (s, c :: rest)
      else if s.hasExponentMark then
        if s.hasExponent then some (s, c :: rest) else none
      else floatDigits? { s with digits := 'e' :: s.digits, hasExponentMark := true } rest
    else if c == '-' || c == '+' then
      if s.hasSign || s.hasExponent || !s.hasExponentMark then none
      else
        let digits := if c == '-' then c :: s.digits else s.digits
        floatDigits? { s with digits := digits, hasSign := true } rest
    else some (s, c :: rest)

/-- **Digits of a literal with a fraction or an exponent**, if it is one. -/
def floatValue? (cs : List Char) : Option (List Char) := do
  if !(cs.head?.any isDigit) then none
  let (s, rest) ← floatDigits? {} cs
  if (s.hasExponentMark && !s.hasExponent) || !isSuffix rest then none
  else some s.digits.reverse

/-! ## Literals -/

/-- **Value of a literal.** Numbers keep their digits in base ten, with the minus that belongs to them. -/
inductive LiteralValue where
  | text (value : String)
  | bool (value : Bool)
  | integer (digits : String)
  | float (digits : String)
  | other
  deriving DecidableEq, Repr, Inhabited

/-- **Number literal** with a minus or without. -/
def numberValue? (negative : Bool) (cs : List Char) : Option LiteralValue :=
  let sign := if negative then "-" else ""
  match integerValue? cs with
  | some value => some (.integer (sign ++ toString value))
  | none => (floatValue? cs).map fun digits => .float (sign ++ String.ofList digits)

/-- **Value of a literal lexeme.** -/
def literalValue (literal : String) : LiteralValue :=
  match textValue? literal with
  | some value => .text value
  | none => (numberValue? false literal.toList).getD .other

/-- **Literal at the front**, with its value and the tokens after it: a truth value counts, and so does a
minus before a number. -/
def leadingLiteral? : List Token → Option (LiteralValue × List Token)
  | .literal text :: rest => some (literalValue text, rest)
  | .word w :: rest =>
    if w == "true" then some (.bool true, rest)
    else if w == "false" then some (.bool false, rest)
    else none
  | .mark '-' _ :: .literal text :: rest => (numberValue? true text.toList).map (·, rest)
  | _ => none

end FormWiring.Code
