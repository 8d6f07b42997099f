import FormWiring.Regex.Pattern
import FormWiring.Regex.Property

/-!
# Reading patterns

From the text of a pattern to the pattern, or to nothing when the text is none. Flags change the meaning of what
follows them up to the end of their group. In verbose mode blanks and comments between items are dropped.

Main definition: `Pattern.ofText?`.
-/

set_option autoImplicit false

namespace FormWiring.Regex

open Text (isHexDigit digitsValue)

/-! ## Flags -/

/-- **Flags** that are in force. -/
structure Flags where
  ignoreCase : Bool := false
  multiLine : Bool := false
  dotAll : Bool := false
  returns : Bool := false
  unicode : Bool := true
  verbose : Bool := false

namespace Flags

/-- **Flags with one set** to a value, if the letter is a flag. -/
def put? (flags : Flags) (letter : Char) (value : Bool) : Option Flags :=
  match letter with
  | 'i' => some { flags with ignoreCase := value }
  | 'm' => some { flags with multiLine := value }
  | 's' => some { flags with dotAll := value }
  | 'R' => some { flags with returns := value }
  | 'u' => some { flags with unicode := value }
  | 'x' => some { flags with verbose := value }
  | 'U' => some flags
  | _ => none

/-- **Flags of a group head** up to a colon or a bracket, each letter at most once and one minus at most; what
is left starts at the mark. -/
def read? (flags : Flags) (value : Bool) (seen : List Char) :
    List Char → Option (Flags × List Char × List Char)
  | [] => none
  | c :: rest =>
    if c == ':' || c == ')' then
      if seen.head? == some '-' then none else some (flags, seen, c :: rest)
    else if seen.contains c then none
    else if c == '-' then read? flags false (c :: seen) rest
    else (flags.put? c value).bind fun flags => read? flags value (c :: seen) rest

end Flags

/-! ## Blanks -/

/-- **After a comment**, its line end included. -/
def afterComment : List Char → List Char
  | [] => []
  | c :: rest => if c == '\n' then rest else afterComment rest

/-- **After blanks and comments**, in verbose mode only. -/
def skip (flags : Flags) : Nat → List Char → List Char
  | 0, cs => cs
  | _, [] => []
  | fuel + 1, c :: rest =>
    if !flags.verbose then c :: rest
    else if Text.isBlank c then skip flags fuel rest
    else if c == '#' then skip flags fuel (afterComment rest)
    else c :: rest

/-- **After blanks and comments**, in verbose mode only. -/
def skipBlanks (flags : Flags) (cs : List Char) : List Char :=
  skip flags (cs.length + 1) cs

/-! ## Escapes -/

/-- **What one escape or character stands for.** -/
inductive Primitive where
  | literal (c : Char)
  | set (s : CharSet)
  | anchor (a : Anchor)

/-- **Characters with a meaning**, which an escape takes away. -/
def isMetaChar (c : Char) : Bool :=
  "\\.+*?()|[]\x7b\x7d^$#&-~".toList.contains c

/-- **Characters that may be escaped** for nothing. -/
def isEscapable (c : Char) : Bool :=
  isMetaChar c || (c.toNat < 128 && !c.isAlphanum && c != '<' && c != '>')

/-- **Character of a number**, if it is one. -/
def charOf? (n : Nat) : Option Char :=
  if n < 0xD800 || (0xE000 ≤ n && n < 0x110000) then some (Char.ofNat n) else none

/-- **Digits in a row**, `count` of them. -/
def readDigits? (flags : Flags) (digits : List Char) : Nat → List Char → Option (List Char × List Char)
  | 0, cs => some (digits.reverse, cs)
  | count + 1, cs =>
    match cs with
    | c :: rest => if isHexDigit c then readDigits? flags (c :: digits) count (skipBlanks flags rest) else none
    | [] => none

/-- **Digits up to a closing brace.** -/
def readBraced? (flags : Flags) (digits : List Char) : Nat → List Char → Option (List Char × List Char)
  | 0, _ => none
  | fuel + 1, cs =>
    match skipBlanks flags cs with
    | [] => none
    | c :: rest =>
      if c == '\x7d' then some (digits.reverse, skipBlanks flags rest)
      else if isHexDigit c then readBraced? flags (c :: digits) fuel rest
      else none

/-- **Character by number**, after the letter, with `count` digits or digits in braces. -/
def readNumber? (flags : Flags) (count : Nat) (cs : List Char) : Option (Char × List Char) := do
  let (digits, rest) ←
    match skipBlanks flags cs with
    | '\x7b' :: rest => readBraced? flags [] (rest.length + 1) rest
    | cs => readDigits? flags [] count cs
  if digits.isEmpty then none
  let c ← charOf? (digitsValue 16 digits)
  pure (c, rest)

/-- **Name up to a closing brace.** -/
def readName? (flags : Flags) (name : List Char) : Nat → List Char → Option (List Char × List Char)
  | 0, _ => none
  | fuel + 1, cs =>
    match skipBlanks flags cs with
    | [] => none
    | c :: rest => if c == '\x7d' then some (name.reverse, rest) else readName? flags (c :: name) fuel rest

/-- **Property**, after the letter. -/
def readProperty? (flags : Flags) (cs : List Char) : Option (CharSet × List Char) := do
  if !flags.unicode then none
  let (name, rest) ←
    match skipBlanks flags cs with
    | '\x7b' :: rest => readName? flags [] (rest.length + 1) rest
    | c :: rest => if c == '\\' then none else some ([c], skipBlanks flags rest)
    | [] => none
  let s ← CharSet.ofProperty? name
  pure (if flags.ignoreCase then .foldCase s else s, rest)

/-- **Class of a letter**: digits, blanks or word characters. -/
def classOf (flags : Flags) (letter : Char) : CharSet :=
  if flags.unicode then
    if letter == 'd' then .ofClass .digit else if letter == 's' then .ofClass .blank else .ofClass .word
  else if letter == 'd' then .range 0x30 0x39
  else if letter == 's' then .ofRanges [(0x09, 0x0D), (0x20, 0x20)]
  else .ofRanges [(0x30, 0x39), (0x41, 0x5A), (0x5F, 0x5F), (0x61, 0x7A)]

/-- **Set that may stand in the pattern**: in plain mode it holds nothing beyond ASCII. -/
def allowed? (flags : Flags) (s : CharSet) : Option CharSet :=
  if flags.unicode then some s
  else if s.isPlain then some s
  else none

/-- **Letters and dashes up to a closing brace**, the name of a kind of word boundary. -/
def readBoundaryName? (flags : Flags) (name : List Char) : Nat → List Char → Option (String × List Char)
  | 0, _ => none
  | fuel + 1, cs =>
    match cs with
    | [] => none
    | c :: rest =>
      if c == '\x7d' then some (String.ofList name.reverse, rest)
      else if c.isAlpha || c == '-' then readBoundaryName? flags (c :: name) fuel (skipBlanks flags rest)
      else none

/-- **Word boundary**, after its letter: a name in braces may say which kind. Braces that hold no name are left
for a repetition. -/
def readBoundary? (flags : Flags) (cs : List Char) : Option (Anchor × List Char) :=
  let plain := !flags.unicode
  match cs with
  | '\x7b' :: rest =>
    match skipBlanks flags rest with
    | [] => none
    | c :: more =>
      if c.isAlpha || c == '-' then do
        let (name, rest) ← readBoundaryName? flags [] (more.length + 2) (c :: more)
        match name with
        | "start" => pure (.wordStart plain, rest)
        | "end" => pure (.wordEnd plain, rest)
        | "start-half" => pure (.wordStartHalf plain, rest)
        | "end-half" => pure (.wordEndHalf plain, rest)
        | _ => none
      else some (.wordBoundary plain, cs)
  | _ => some (.wordBoundary plain, cs)

/-- **Escape**, after the backslash. -/
def readEscape? (flags : Flags) : List Char → Option (Primitive × List Char)
  | [] => none
  | c :: rest =>
    if c.isDigit then none
    else if c == 'x' then (readNumber? flags 2 rest).map fun (c, rest) => (.literal c, rest)
    else if c == 'u' then (readNumber? flags 4 rest).map fun (c, rest) => (.literal c, rest)
    else if c == 'U' then (readNumber? flags 8 rest).map fun (c, rest) => (.literal c, rest)
    else if c == 'p' then (readProperty? flags rest).map fun (s, rest) => (.set s, rest)
    else if c == 'P' then (readProperty? flags rest).map fun (s, rest) => (.set (.complement s), rest)
    else if c == 'd' || c == 's' || c == 'w' then some (.set (classOf flags c), rest)
    else if c == 'D' || c == 'S' || c == 'W' then
      (allowed? flags (.complement (classOf flags c.toLower))).map fun s => (.set s, rest)
    else if isEscapable c then some (.literal c, rest)
    else
      match c with
      | 'a' => some (.literal '\x07', rest)
      | 'f' => some (.literal '\x0c', rest)
      | 't' => some (.literal '\t', rest)
      | 'n' => some (.literal '\n', rest)
      | 'r' => some (.literal '\r', rest)
      | 'v' => some (.literal '\x0b', rest)
      | 'A' => some (.anchor .textStart, rest)
      | 'z' => some (.anchor .textEnd, rest)
      | 'b' => (readBoundary? flags rest).map fun (a, rest) => (.anchor a, rest)
      | 'B' => if flags.unicode then some (.anchor (.noWordBoundary false), rest) else none
      | '<' => some (.anchor (.wordStart (!flags.unicode)), rest)
      | '>' => some (.anchor (.wordEnd (!flags.unicode)), rest)
      | _ => none

/-- **Set of a literal**: in plain mode it must be ASCII. -/
def literalSet? (flags : Flags) (c : Char) : Option CharSet :=
  if flags.unicode then
    some (if flags.ignoreCase then .foldCase (.one c) else .one c)
  else if c.toNat < 128 then some (if flags.ignoreCase then .foldPlain (.one c) else .one c)
  else none

/-- **Set of a dot.** -/
def dotSet? (flags : Flags) : Option CharSet :=
  if !flags.unicode then none
  else if flags.dotAll then some .all
  else if flags.returns then some (.complement (.union (.one '\n') (.one '\r')))
  else some (.complement (.one '\n'))

/-! ## Sets in brackets -/

/-- **ASCII sets with a name**, if there is one of that name. -/
def plainClass? : String → Option CharSet
  | "alnum" => some (.ofRanges [(0x30, 0x39), (0x41, 0x5A), (0x61, 0x7A)])
  | "alpha" => some (.ofRanges [(0x41, 0x5A), (0x61, 0x7A)])
  | "ascii" => some (.range 0 0x7F)
  | "blank" => some (.ofRanges [(0x09, 0x09), (0x20, 0x20)])
  | "cntrl" => some (.ofRanges [(0, 0x1F), (0x7F, 0x7F)])
  | "digit" => some (.range 0x30 0x39)
  | "graph" => some (.range 0x21 0x7E)
  | "lower" => some (.range 0x61 0x7A)
  | "print" => some (.range 0x20 0x7E)
  | "punct" => some (.ofRanges [(0x21, 0x2F), (0x3A, 0x40), (0x5B, 0x60), (0x7B, 0x7E)])
  | "space" => some (.ofRanges [(0x09, 0x0D), (0x20, 0x20)])
  | "upper" => some (.range 0x41 0x5A)
  | "word" => some (.ofRanges [(0x30, 0x39), (0x41, 0x5A), (0x5F, 0x5F), (0x61, 0x7A)])
  | "xdigit" => some (.ofRanges [(0x30, 0x39), (0x41, 0x46), (0x61, 0x66)])
  | _ => none

/-- **ASCII set with a name** between colons, after the opening bracket. -/
def readPlainClass? : List Char → Option (CharSet × List Char)
  | ':' :: rest =>
    let (negated, rest) :=
      match rest with
      | '^' :: more => (true, more)
      | _ => (false, rest)
    let name := rest.takeWhile (· != ':')
    match rest.dropWhile (· != ':') with
    | ':' :: ']' :: rest =>
      (plainClass? (String.ofList name)).map fun s => (if negated then .complement s else s, rest)
    | _ => none
  | _ => none

/-- **Operations on sets.** -/
inductive SetOperation where
  | inter
  | diff
  | symmetric

/-- **Operation at the start**, if there is one, and the rest. -/
def readOperation? : List Char → Option (SetOperation × List Char)
  | '&' :: '&' :: rest => some (.inter, rest)
  | '-' :: '-' :: rest => some (.diff, rest)
  | '~' :: '~' :: rest => some (.symmetric, rest)
  | _ => none

/-- **Set closed under case**, when case is ignored. -/
def folded (flags : Flags) (s : CharSet) : CharSet :=
  if !flags.ignoreCase then s else if flags.unicode then .foldCase s else .foldPlain s

/-- **Operation applied** to what stands before it, if there is one. -/
def applyOperation (flags : Flags) (left : Option (SetOperation × CharSet)) (right : CharSet) : CharSet :=
  match left with
  | none => right
  | some (operation, left) =>
    let left := folded flags left
    let right := folded flags right
    match operation with
    | .inter => .inter left right
    | .diff => .diff left right
    | .symmetric => .union (.diff left right) (.diff right left)

/-- **One item** of a set: an escape or a character. -/
def readItem? (flags : Flags) : List Char → Option (Primitive × List Char)
  | '\\' :: rest => readEscape? flags rest
  | c :: rest => some (.literal c, rest)
  | [] => none

/-- **Item or range** of a set. -/
def readRange? (flags : Flags) (cs : List Char) : Option (CharSet × List Char) := do
  let inMode := fun c : Char => flags.unicode || c.toNat < 128
  let (first, rest) ← readItem? flags cs
  let rest := skipBlanks flags rest
  let next := match rest with
    | '-' :: more => (skipBlanks flags more).head?
    | _ => none
  if rest.isEmpty then none
  if rest.head? == some '-' && next != some ']' && next != some '-' then
    match skipBlanks flags (rest.drop 1) with
    | [] => none
    | more => do
      let (second, rest) ← readItem? flags more
      match first, second with
      | .literal a, .literal b =>
        if a ≤ b && inMode a && inMode b then some (.range a.toNat b.toNat, rest) else none
      | _, _ => none
  else
    match first with
    | .literal c => if inMode c then some (.one c, rest) else none
    | .set s => some (s, rest)
    | .anchor _ => none

/-- **Dashes at the start** of a set, which stand for themselves. -/
def leadingDashes (flags : Flags) : Nat → CharSet → List Char → CharSet × List Char
  | 0, s, cs => (s, cs)
  | fuel + 1, s, cs =>
    match cs with
    | '-' :: rest => leadingDashes flags fuel (.union s (.one '-')) (skipBlanks flags rest)
    | _ => (s, cs)

mutual

/-- **Set**, after its opening bracket. -/
def readSet? (flags : Flags) : Nat → List Char → Option (CharSet × List Char)
  | 0, _ => none
  | fuel + 1, cs => do
    let cs := skipBlanks flags cs
    let negated := cs.head? == some '^'
    let cs := if negated then skipBlanks flags (cs.drop 1) else cs
    let (start, rest) :=
      match cs with
      | ']' :: more => (CharSet.one ']', skipBlanks flags more)
      | _ => leadingDashes flags cs.length .empty cs
    if rest.isEmpty then none
    let (s, rest) ← readItems? flags fuel none start rest
    let s := folded flags s
    let s ← allowed? flags (if negated then .complement s else s)
    pure (s, rest)

/-- **Items of a set** up to its closing bracket, given what stands before the last operation and the items
since. -/
def readItems? (flags : Flags) : Nat → Option (SetOperation × CharSet) → CharSet → List Char →
    Option (CharSet × List Char)
  | 0, _, _, _ => none
  | fuel + 1, left, items, cs =>
    match skipBlanks flags cs with
    | [] => none
    | ']' :: rest => some (applyOperation flags left items, rest)
    | '[' :: rest =>
      match readPlainClass? rest with
      | some (s, rest) => readItems? flags fuel left (.union items s) rest
      | none => do
        let (s, rest) ← readSet? flags fuel rest
        readItems? flags fuel left (.union items s) rest
    | cs =>
      match readOperation? cs with
      | some (operation, rest) =>
        readItems? flags fuel (some (operation, applyOperation flags left items)) .empty rest
      | none => do
        let (s, rest) ← readRange? flags cs
        readItems? flags fuel left (.union items s) rest

end

/-! ## Repetitions -/

/-- **Digits of a count** with blanks around them; in verbose mode also among them. -/
def readCountDigits (flags : Flags) (digits : List Char) : Nat → List Char → List Char × List Char
  | 0, cs => (digits.reverse, cs)
  | fuel + 1, cs =>
    match cs with
    | c :: rest =>
      if Text.isDigit c then readCountDigits flags (c :: digits) fuel (skipBlanks flags rest)
      else (digits.reverse, cs.dropWhile Text.isBlank)
    | [] => (digits.reverse, [])

/-- **Count**, if there is one: the outer option is a number too large. -/
def readCount (flags : Flags) (cs : List Char) : Option (Option Nat × List Char) :=
  let cs := cs.dropWhile Text.isBlank
  let (digits, rest) := readCountDigits flags [] (cs.length + 1) cs
  let value := digitsValue 10 digits
  if digits.isEmpty then some (none, rest)
  else if value < UInt32.size then some (some value, rest)
  else none

/-- **Bounds of a repetition**, after the opening brace. -/
def readBounds? (flags : Flags) (cs : List Char) : Option (Nat × Option Nat × List Char) := do
  let (first, rest) ← readCount flags (skipBlanks flags cs)
  let least ← first
  match rest with
  | '\x7d' :: rest => pure (least, some least, rest)
  | ',' :: rest =>
    match skipBlanks flags rest with
    | '\x7d' :: rest => pure (least, none, rest)
    | rest =>
      let (second, rest) ← readCount flags rest
      let most ← second
      match rest with
      | '\x7d' :: rest => if least ≤ most then pure (least, some most, rest) else none
      | _ => none
  | _ => none

/-- **After a question mark** that makes a repetition lazy, which changes nothing here. -/
def afterLazy : List Char → List Char
  | '?' :: rest => rest
  | cs => cs

/-! ## Groups and sequences -/

/-- **First characters of a group name.** -/
def startsGroupName (c : Char) : Bool :=
  c == '_' || CharClass.alphabetic.contains c

/-- **Further characters of a group name.** -/
def continuesGroupName (c : Char) : Bool :=
  startsGroupName c || c == '.' || c == '[' || c == ']' ||
    [Text.Category.decimalNumber, .letterNumber, .otherNumber].contains (Text.category c)

/-- **Name of a group** up to its closing mark, not among those `seen`. -/
def readGroupName? (seen : List (List Char)) (cs : List Char) : Option (List Char × List Char) :=
  let name := cs.takeWhile (· != '>')
  match name, cs.dropWhile (· != '>') with
  | first :: more, _ :: rest =>
    if startsGroupName first && more.all continuesGroupName && !seen.contains name then some (name, rest)
    else none
  | _, _ => none

/-- **Body of a group** read so far, each list backwards. An item that is no pattern changed the flags; it takes
no repetition. -/
structure Body where
  flags : Flags
  names : List (List Char)
  choices : List Pattern := []
  items : List (Option Pattern) := []

namespace Body

/-- **Sequence of the current items.** -/
def sequence (b : Body) : Pattern :=
  match b.items with
  | [] => .empty
  | [item] => item.getD .empty
  | items => .sequence (items.reverse.map (·.getD .empty))

/-- **Pattern of the body.** -/
def pattern (b : Body) : Pattern :=
  match b.choices with
  | [] => b.sequence
  | choices => .choice (choices.reverse ++ [b.sequence])

/-- **Body with one more item.** -/
def push (b : Body) (p : Pattern) : Body :=
  { b with items := some p :: b.items }

/-- **Body whose last item is repeated**, if it has one that can be. -/
def repeatLast? (b : Body) (least : Nat) (most : Option Nat) : Option Body :=
  match b.items with
  | some p :: rest => some { b with items := some (.repetition least most p) :: rest }
  | _ => none

end Body

/-- **Starts of groups that look around**, which do not exist. -/
def looksAround (cs : List Char) : Bool :=
  ["?=".toList, "?!".toList, "?<=".toList, "?<!".toList].any (·.isPrefixOf cs)

/-- **Pattern of one character or escape.** -/
def readPrimitive? (flags : Flags) : List Char → Option (Pattern × List Char)
  | [] => none
  | '.' :: rest => (dotSet? flags).map fun s => (.set s, rest)
  | '^' :: rest => some (.anchor (if flags.multiLine then .lineStart flags.returns else .textStart), rest)
  | '$' :: rest => some (.anchor (if flags.multiLine then .lineEnd flags.returns else .textEnd), rest)
  | '\\' :: rest => do
    let (primitive, rest) ← readEscape? flags rest
    match primitive with
    | .literal c => (literalSet? flags c).map fun s => (.set s, rest)
    | .set s => pure (.set s, rest)
    | .anchor a => pure (.anchor a, rest)
  | c :: rest => (literalSet? flags c).map fun s => (.set s, rest)

mutual

/-- **Body of a group** up to its closing bracket or the end of the text. -/
def readBody? : Nat → Body → List Char → Option (Body × List Char)
  | 0, _, _ => none
  | fuel + 1, b, cs =>
    match skipBlanks b.flags cs with
    | [] => some (b, [])
    | ')' :: rest => some (b, ')' :: rest)
    | '(' :: rest => do
      let (b, rest) ← readGroup? fuel b (skipBlanks b.flags rest)
      readBody? fuel b rest
    | '|' :: rest => readBody? fuel { b with choices := b.sequence :: b.choices, items := [] } rest
    | '[' :: rest => do
      let (s, rest) ← readSet? b.flags (2 * rest.length + 2) rest
      readBody? fuel (b.push (.set s)) rest
    | '?' :: rest => do readBody? fuel (← b.repeatLast? 0 (some 1)) (afterLazy rest)
    | '*' :: rest => do readBody? fuel (← b.repeatLast? 0 none) (afterLazy rest)
    | '+' :: rest => do readBody? fuel (← b.repeatLast? 1 none) (afterLazy rest)
    | '\x7b' :: rest => do
      let (least, most, rest) ← readBounds? b.flags rest
      readBody? fuel (← b.repeatLast? least most) (afterLazy (skipBlanks b.flags rest))
    | cs => do
      let (p, rest) ← readPrimitive? b.flags cs
      readBody? fuel (b.push p) rest

/-- **Group or change of flags**, after the opening bracket. -/
def readGroup? : Nat → Body → List Char → Option (Body × List Char)
  | 0, _, _ => none
  | fuel + 1, b, cs =>
    if looksAround cs then none
    else
      match cs with
      | '?' :: 'P' :: '<' :: rest | '?' :: '<' :: rest => do
        let (name, rest) ← readGroupName? b.names rest
        readInner? fuel { b with names := name :: b.names } b.flags rest
      | '?' :: rest => do
        let (flags, seen, rest) ← b.flags.read? true [] rest
        match rest with
        | ')' :: rest =>
          if seen.isEmpty then none else pure ({ b with flags := flags, items := none :: b.items }, rest)
        | _ => readInner? fuel b flags (rest.drop 1)
      | _ => readInner? fuel b b.flags cs

/-- **Inside of a group** with its flags, and its closing bracket. -/
def readInner? : Nat → Body → Flags → List Char → Option (Body × List Char)
  | 0, _, _, _ => none
  | fuel + 1, b, flags, cs => do
    let (inner, rest) ← readBody? fuel ⟨flags, b.names, [], []⟩ cs
    match rest with
    | ')' :: rest => pure ({ b with names := inner.names }.push (.group inner.pattern), rest)
    | _ => none

end

/-! ## Patterns -/

/-- **Deepest nesting** allowed. -/
def depthLimit : Nat := 250

/-- **Highest cost** allowed. -/
def costLimit : Nat := 10 * 1024 * 1024

/-- **Pattern of characters**, if they are one within the limits. -/
def Pattern.ofChars? (cs : List Char) : Option Pattern := do
  let (b, rest) ← readBody? (4 * cs.length + 4) ⟨{}, [], [], []⟩ cs
  let p := b.pattern
  if rest.isEmpty && p.depth ≤ depthLimit && p.cost ≤ costLimit then some p else none

/-- **Pattern of a text**, if it is one. -/
def Pattern.ofText? (s : String) : Option Pattern :=
  Pattern.ofChars? s.toList

end FormWiring.Regex
