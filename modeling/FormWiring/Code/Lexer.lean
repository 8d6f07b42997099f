import FormWiring.Code.Lexeme
import FormWiring.Text.Blank
import FormWiring.Text.Category
import FormWiring.Text.Digit
import FormWiring.Text.Quoted

/-!
# Lexer

From characters to lexemes. Blanks and comments are dropped; a documentation comment becomes the attribute it
stands for. Literals are tried before marks and marks before names. Each scanner takes the characters left
and gives those after what it accepts.

Main definition: `Lexeme.scan`.
-/

set_option autoImplicit false

namespace FormWiring.Code

open Text (isDigit isHexDigit digitValue)

/-! ## Names -/

/-- **First character of a name.** -/
def startsName (c : Char) : Bool :=
  c == '_' || Text.isNameStart c

/-- **After a plain name**, if there is one. -/
def afterPlainName? : List Char → Option (List Char)
  | [] => none
  | c :: rest => if startsName c then some (rest.dropWhile Text.isNameChar) else none

/-- **What was read** between a list and its tail `rest`. -/
def consumed (cs rest : List Char) : List Char :=
  cs.take (cs.length - rest.length)

/-- **Names that cannot be raw.** -/
def neverRaw : List (List Char) :=
  ["_".toList, "super".toList, "self".toList, "Self".toList, "crate".toList]

/-- **After a name**, plain or raw. -/
def afterName? (cs : List Char) : Option (List Char) :=
  match cs with
  | 'r' :: '#' :: more => do
    let rest ← afterPlainName? more
    if consumed more rest ∈ neverRaw then none else some rest
  | _ => afterPlainName? cs

/-- **Starts of literals** that are never names. -/
def literalStarts : List (List Char) :=
  ["r\"".toList, "r#\"".toList, "r##".toList, "b\"".toList, "b'".toList, "br\"".toList, "br#".toList,
    "c\"".toList, "cr\"".toList, "cr#".toList]

/-- **After a name token.** -/
def afterNameToken? (cs : List Char) : Option (List Char) :=
  if literalStarts.any (·.isPrefixOf cs) then none else afterName? cs

/-! ## Blanks and comments -/

/-- **After a line**, its end not included; a carriage return before the end belongs to the end. -/
def afterLine : List Char → List Char
  | [] => []
  | '\n' :: rest => '\n' :: rest
  | '\r' :: '\n' :: rest => '\n' :: rest
  | _ :: rest => afterLine rest

/-- **Line** up to its end. -/
def lineOf : List Char → List Char
  | [] => []
  | '\n' :: _ => []
  | '\r' :: '\n' :: _ => []
  | c :: rest => c :: lineOf rest

/-- **After a block comment** whose nesting is `depth` so far. -/
def afterBlock? (depth : Nat) : List Char → Option (List Char)
  | '/' :: '*' :: rest => afterBlock? (depth + 1) rest
  | '*' :: '/' :: rest => if depth ≤ 1 then some rest else afterBlock? (depth - 1) rest
  | _ :: rest => afterBlock? depth rest
  | [] => none

/-- **Blanks of code.** The two direction marks count as blanks. -/
def isCodeBlank (c : Char) : Bool :=
  Text.isBlank c || c == '\u200e' || c == '\u200f'

/-- **After blanks and plain comments.** -/
def skipBlanks : Nat → List Char → List Char
  | 0, cs => cs
  | fuel + 1, cs =>
    match cs with
    | '/' :: '/' :: '/' :: '/' :: _ => skipBlanks fuel (afterLine cs)
    | '/' :: '/' :: '/' :: _ | '/' :: '/' :: '!' :: _ => cs
    | '/' :: '/' :: _ => skipBlanks fuel (afterLine cs)
    | '/' :: '*' :: '*' :: '/' :: rest => skipBlanks fuel rest
    | '/' :: '*' :: '*' :: '*' :: _ =>
      match afterBlock? 0 cs with
      | some rest => skipBlanks fuel rest
      | none => cs
    | '/' :: '*' :: '*' :: _ | '/' :: '*' :: '!' :: _ => cs
    | '/' :: '*' :: _ =>
      match afterBlock? 0 cs with
      | some rest => skipBlanks fuel rest
      | none => cs
    | c :: rest => if isCodeBlank c then skipBlanks fuel rest else cs
    | [] => []

/-- **Carriage returns** stand before line ends only. -/
def returnsPaired : List Char → Bool
  | [] => true
  | '\r' :: '\n' :: rest => returnsPaired rest
  | '\r' :: _ => false
  | _ :: rest => returnsPaired rest

/-- **Documentation comment**: whether it documents what holds it, its text and the rest. -/
def docComment? (cs : List Char) : Option (Bool × List Char × List Char) :=
  let block := fun inner : Bool => do
    let rest ← afterBlock? 0 cs
    let body := consumed cs rest
    some (inner, (body.drop 3).take (body.length - 5), rest)
  let found :=
    match cs with
    | '/' :: '/' :: '!' :: more => some (true, lineOf more, afterLine more)
    | '/' :: '*' :: '!' :: _ => block true
    | '/' :: '/' :: '/' :: '/' :: _ => none
    | '/' :: '/' :: '/' :: more => some (false, lineOf more, afterLine more)
    | '/' :: '*' :: '*' :: '*' :: _ => none
    | '/' :: '*' :: '*' :: _ => block false
    | _ => none
  found.filter fun (_, text, _) => returnsPaired text

/-- **Attribute** that a documentation comment stands for. -/
def docAttribute (inner : Bool) (text : List Char) : List Lexeme :=
  .mark '#' false :: ((if inner then [.mark '!' false] else []) ++
    Lexeme.group .square
      [.word "doc", .mark '=' false, .literal (Text.quoteLiteral (String.ofList text))])

/-! ## Escapes -/

/-- **Kinds of quoted literals**, which differ in the escapes and characters they allow. -/
inductive QuotedKind where
  | text
  | bytes
  | terminated
  deriving DecidableEq, Repr

/-- **Escape by two digits**: bytes allow all, texts stop at 127, terminated texts have no NUL. -/
def escapeTwo? (kind : QuotedKind) : List Char → Option (Nat × List Char)
  | a :: b :: rest =>
    if isHexDigit a && isHexDigit b then
      let value := digitValue a * 16 + digitValue b
      match kind with
      | .text => if value < 128 then some (value, rest) else none
      | .bytes => some (value, rest)
      | .terminated => if value == 0 then none else some (value, rest)
    else none
  | _ => none

/-- **Digits of an escape by number** up to its closing brace, after `count` digits worth `value`. -/
def escapeBraced? (value count : Nat) : List Char → Option (Nat × List Char)
  | [] => none
  | c :: rest =>
    if isHexDigit c then
      if count == 6 then none else escapeBraced? (value * 16 + digitValue c) (count + 1) rest
    else if c == '_' && 0 < count then escapeBraced? value count rest
    else if c == '\x7d' && 0 < count then
      if value < 0xD800 || (0xE000 ≤ value && value < 0x110000) then some (value, rest) else none
    else none

/-- **Escape by number**, after the `u`. -/
def escapeNumbered? : List Char → Option (Nat × List Char)
  | '\x7b' :: rest => escapeBraced? 0 0 rest
  | _ => none

/-- **Value of a one letter escape**, if it is one. -/
def simpleEscape? : Char → Option Char
  | 'n' => some '\n'
  | 'r' => some '\r'
  | 't' => some '\t'
  | '\\' => some '\\'
  | '0' => some '\x00'
  | '\'' => some '\''
  | '"' => some '"'
  | _ => none

/-- **After the blanks of a continued line**: something must follow, and carriage returns stand before line
ends. -/
def afterContinuation? : List Char → Option (List Char)
  | [] => none
  | '\r' :: '\n' :: rest => afterContinuation? rest
  | '\r' :: _ => none
  | c :: rest => if c == ' ' || c == '\t' || c == '\n' then afterContinuation? rest else some (c :: rest)

/-! ## Quoted literals -/

/-- **After a suffix**, which may be missing. -/
def afterSuffix (cs : List Char) : List Char :=
  (afterPlainName? cs).getD cs

/-- **After a quoted body** and its closing quote. -/
def afterQuoted? (kind : QuotedKind) : Nat → List Char → Option (List Char)
  | 0, _ => none
  | fuel + 1, cs =>
    match cs with
    | [] => none
    | '"' :: rest => some (afterSuffix rest)
    | '\r' :: '\n' :: rest => afterQuoted? kind fuel rest
    | '\r' :: _ => none
    | '\\' :: 'x' :: rest => do afterQuoted? kind fuel (← escapeTwo? kind rest).2
    | '\\' :: 'u' :: rest => do
      if kind == .bytes then none
      let (value, rest) ← escapeNumbered? rest
      if kind == .terminated && value == 0 then none
      afterQuoted? kind fuel rest
    | '\\' :: '\n' :: rest => do afterQuoted? kind fuel (← afterContinuation? rest)
    | '\\' :: '\r' :: rest => do afterQuoted? kind fuel (← afterContinuation? ('\r' :: rest))
    | '\\' :: c :: rest =>
      if (simpleEscape? c).isSome && !(kind == .terminated && c == '0') then afterQuoted? kind fuel rest
      else none
    | '\\' :: [] => none
    | c :: rest =>
      if (kind == .bytes && 128 ≤ c.toNat) || (kind == .terminated && c == '\x00') then none
      else afterQuoted? kind fuel rest

/-- **After a raw body** that ends in a quote and `hashes`. -/
def afterRawBody? (kind : QuotedKind) (hashes : List Char) : List Char → Option (List Char)
  | [] => none
  | '\r' :: '\n' :: rest => afterRawBody? kind hashes rest
  | '\r' :: _ => none
  | c :: rest =>
    if c == '"' && hashes.isPrefixOf rest then some (afterSuffix (rest.drop hashes.length))
    else if (kind == .bytes && 128 ≤ c.toNat) || (kind == .terminated && c == '\x00') then none
    else afterRawBody? kind hashes rest

/-- **After a raw literal**, from its hashes on. -/
def afterRaw? (kind : QuotedKind) (cs : List Char) : Option (List Char) :=
  let hashes := cs.takeWhile (· == '#')
  match cs.dropWhile (· == '#') with
  | '"' :: rest => if 255 < hashes.length then none else afterRawBody? kind hashes rest
  | _ => none

/-- **After a character** between single quotes. -/
def afterCharacter? (kind : QuotedKind) (cs : List Char) : Option (List Char) := do
  let rest ←
    match cs with
    | '\\' :: 'x' :: rest => (escapeTwo? kind rest).map (·.2)
    | '\\' :: 'u' :: rest => if kind == .bytes then none else (escapeNumbered? rest).map (·.2)
    | '\\' :: c :: rest => if (simpleEscape? c).isSome then some rest else none
    | [] | ['\\'] => none
    | c :: rest => if kind == .bytes && 128 ≤ c.toNat then none else some rest
  match rest with
  | '\'' :: rest => some (afterSuffix rest)
  | _ => none

/-! ## Numbers -/

/-- **No name character follows.** -/
def atWordBreak (cs : List Char) : Option (List Char) :=
  match cs with
  | c :: _ => if Text.isNameChar c then none else some cs
  | [] => some cs

/-- **After a number's suffix**, which must end at a word break. -/
def afterNumberSuffix? (cs : List Char) : Option (List Char) :=
  match cs with
  | c :: _ => if startsName c then (afterPlainName? cs).bind atWordBreak else atWordBreak cs
  | [] => some cs

/-- **After an exponent** and whether it had a digit; a second sign stops it for good. -/
def afterExponent? (hasSign hasDigit : Bool) : List Char → Option (List Char × Bool)
  | [] => some ([], hasDigit)
  | c :: rest =>
    if c == '+' || c == '-' then
      if hasDigit then some (c :: rest, hasDigit)
      else if hasSign then none
      else afterExponent? true hasDigit rest
    else if isDigit c then afterExponent? hasSign true rest
    else if c == '_' then afterExponent? hasSign hasDigit rest
    else some (c :: rest, hasDigit)

/-- **After the digits of a fractional number**, past its first digit. Without a point and an exponent it is
none; an exponent without a digit does not count when there is a point. -/
def afterFractional? (hasPoint : Bool) : List Char → Option (List Char)
  | [] => if hasPoint then some [] else none
  | c :: rest =>
    if isDigit c || c == '_' then afterFractional? hasPoint rest
    else if c == '.' then
      if hasPoint then some (c :: rest)
      else if rest.head?.any fun d => d == '.' || startsName d then none
      else afterFractional? true rest
    else if c == 'e' || c == 'E' then
      let whole := if hasPoint then some (c :: rest) else none
      match afterExponent? false false rest with
      | some (rest, true) => some rest
      | _ => whole
    else if hasPoint then some (c :: rest)
    else none

/-- **After a number with a fraction or an exponent.** -/
def afterFloat? (cs : List Char) : Option (List Char) :=
  match cs with
  | c :: rest => if isDigit c then (afterFractional? false rest).bind afterNumberSuffix? else none
  | [] => none

/-- **After the digits of an integer** in a base, and whether there was one; a decimal digit outside the base
is an error. -/
def afterDigits? (base : Nat) (seen : Bool) : List Char → Option (List Char × Bool)
  | [] => some ([], seen)
  | c :: rest =>
    if isDigit c then
      if digitValue c < base then afterDigits? base true rest else none
    else if isHexDigit c then
      if digitValue c < base then afterDigits? base true rest else some (c :: rest, seen)
    else if c == '_' then
      if !seen && base == 10 then none else afterDigits? base seen rest
    else some (c :: rest, seen)

/-- **After an integer.** -/
def afterInteger? (cs : List Char) : Option (List Char) := do
  let (base, digits) :=
    match cs with
    | '0' :: 'x' :: rest => (16, rest)
    | '0' :: 'o' :: rest => (8, rest)
    | '0' :: 'b' :: rest => (2, rest)
    | _ => (10, cs)
  let (rest, seen) ← afterDigits? base false digits
  if seen then afterNumberSuffix? rest else none

/-! ## Tokens -/

/-- **After a literal**, if there is one. -/
def afterLiteral? (cs : List Char) : Option (List Char) :=
  let quoted :=
    match cs with
    | '"' :: rest => afterQuoted? .text cs.length rest
    | 'b' :: '"' :: rest => afterQuoted? .bytes cs.length rest
    | 'c' :: '"' :: rest => afterQuoted? .terminated cs.length rest
    | 'b' :: 'r' :: rest => afterRaw? .bytes rest
    | 'c' :: 'r' :: rest => afterRaw? .terminated rest
    | 'r' :: rest => afterRaw? .text rest
    | 'b' :: '\'' :: rest => afterCharacter? .bytes rest
    | '\'' :: rest => afterCharacter? .text rest
    | _ => none
  quoted <|> afterFloat? cs <|> afterInteger? cs

/-- **Mark characters.** -/
def isMarkChar (c : Char) : Bool :=
  "~!@#$%^&*-=+|;:,<.>/?'".toList.contains c

/-- **Mark at the start**, unless a comment starts there. -/
def leadingMark? : List Char → Option (Char × List Char)
  | '/' :: '/' :: _ | '/' :: '*' :: _ => none
  | c :: rest => if isMarkChar c then some (c, rest) else none
  | [] => none

/-- **Mark token**: a single quote must start a lifetime, any other mark is joined to a mark after it. -/
def scanMark? (cs : List Char) : Option (Lexeme × List Char) := do
  let (c, rest) ← leadingMark? cs
  if c == '\'' then
    let after ← afterName? rest
    if after.head? == some '\'' then none
    if after.head? == some '#' && !("r#".toList.isPrefixOf rest) then none
    pure (.mark '\'' true, rest)
  else
    pure (.mark c (leadingMark? rest).isSome, rest)

/-- **Delimiter** opened or closed by a character, with whether it opens. -/
def delimiter? : Char → Option (Delimiter × Bool)
  | '(' => some (.round, true)
  | '[' => some (.square, true)
  | '\x7b' => some (.curly, true)
  | ')' => some (.round, false)
  | ']' => some (.square, false)
  | '\x7d' => some (.curly, false)
  | _ => none

/-- **One token** at the start of the text. -/
def scanToken? (cs : List Char) : Option (Lexeme × List Char) :=
  match afterLiteral? cs with
  | some rest => some (.literal (String.ofList (consumed cs rest)), rest)
  | none =>
    match scanMark? cs with
    | some found => some found
    | none => (afterNameToken? cs).map fun rest => (.word (String.ofList (consumed cs rest)), rest)

/-- **Lexemes of a text**, given the groups that are open. -/
def scanAll : Nat → List Delimiter → List Char → Option (List Lexeme)
  | 0, _, _ => none
  | fuel + 1, stack, cs =>
    let cs := skipBlanks (cs.length + 1) cs
    match docComment? cs with
    | some (inner, text, rest) => (scanAll fuel stack rest).map (docAttribute inner text ++ ·)
    | none =>
      match cs with
      | [] => if stack.isEmpty then some [] else none
      | c :: rest =>
        match delimiter? c with
        | some (d, true) => (scanAll fuel (d :: stack) rest).map (Lexeme.opening d :: ·)
        | some (d, false) =>
          match stack with
          | top :: stack => if top = d then (scanAll fuel stack rest).map (Lexeme.closing d :: ·) else none
          | [] => none
        | none => do
          let (lexeme, rest) ← scanToken? cs
          (scanAll fuel stack rest).map (lexeme :: ·)

/-- **Lexemes of a text**, if it is code. A byte order mark at the start is dropped. -/
def scan? (s : String) : Option (List Lexeme) :=
  let cs :=
    match s.toList with
    | '\ufeff' :: rest => rest
    | cs => cs
  scanAll (cs.length + 1) [] cs

end FormWiring.Code
