import FormWiring.Toml.Scalar
import FormWiring.Toml.Tree

/-!
# Reading TOML

A text is read line by line into headers and entries, which then build the tree. Values nest to a limit, and so
do dotted keys.

Main definitions: `scanValue`, `Line.scan`, `parse?`.
-/

set_option autoImplicit false

namespace FormWiring.Toml

/-- **Limit of nesting.** Values nest less deep than this, and keys have fewer parts. -/
def nestingLimit : Nat := 80

/-! ## Keys -/

/-- **Characters of keys without quotes.** -/
def isBareKey (c : Char) : Bool :=
  c.isAlphanum || c == '-' || c == '_'

/-- **Part of a key** between dots: bare, or a text on one line. -/
def scanKeyPart (cs : List Char) : Option (String × List Char) := do
  let (part, rest) ←
    match skipSpace cs with
    | c :: rest =>
      if c == '"' || c == '\'' then scanLineText c (rest.length + 1) rest
      else if isBareKey c then
        some ((c :: rest).takeWhile isBareKey, (c :: rest).dropWhile isBareKey)
      else none
    | [] => none
  pure (String.ofList part, skipSpace rest)

/-- **Parts of a key.** -/
def scanKeyParts : Nat → List Char → Option (List String × List Char)
  | 0, _ => none
  | fuel + 1, cs => do
    let (part, rest) ← scanKeyPart cs
    match rest with
    | '.' :: rest =>
      let (parts, rest) ← scanKeyParts fuel rest
      pure (part :: parts, rest)
    | _ => pure ([part], rest)

/-- **Key** with the blanks around it. -/
def scanKey (cs : List Char) : Option (Key × List Char) := do
  let (parts, rest) ← scanKeyParts nestingLimit cs
  let name ← parts.getLast?
  if parts.length < nestingLimit then pure (⟨parts.dropLast, name⟩, rest) else none

/-! ## Values -/

/-- **Items of an array** up to its end; a comma may follow the last. -/
def scanItems (item : List Char → Option (Datum × List Char)) : Nat → List Char →
    Option (List Datum × List Char)
  | 0, _ => none
  | fuel + 1, cs =>
    match skipLayout false cs with
    | ']' :: rest => some ([], rest)
    | cs => do
      let (d, rest) ← item cs
      match skipLayout false rest with
      | ']' :: rest => pure ([d], rest)
      | ',' :: rest =>
        let (ds, rest) ← scanItems item fuel rest
        pure (d :: ds, rest)
      | _ => none

/-- **Key and value** with an equals sign between them. -/
def scanEntry (value : List Char → Option (Datum × List Char)) (cs : List Char) :
    Option ((Key × Datum) × List Char) := do
  let (key, rest) ← scanKey cs
  let rest ← after? '=' rest
  let (d, rest) ← value (skipSpace rest)
  pure ((key, d), skipSpace rest)

/-- **Entries of an inline table**, one at least, up to its end. -/
def scanEntries (value : List Char → Option (Datum × List Char)) : Nat → List Char →
    Option (List (Key × Datum) × List Char)
  | 0, _ => none
  | fuel + 1, cs => do
    let (entry, rest) ← scanEntry value cs
    match rest with
    | '\x7d' :: rest => pure ([entry], rest)
    | ',' :: rest =>
      let (entries, rest) ← scanEntries value fuel rest
      pure (entry :: entries, rest)
    | _ => none

/-- **Inline table**, after its opening brace; its entries follow the rules of a table's lines. -/
def scanInlineTable (value : List Char → Option (Datum × List Char)) (cs : List Char) :
    Option (Datum × List Char) :=
  match skipSpace cs with
  | '\x7d' :: rest => some (.record [], rest)
  | cs => do
    let (entries, rest) ← scanEntries value (cs.length + 1) cs
    let table ← entries.foldlM (fun t (key, d) => t.define key d) ({} : Table)
    pure (table.toDatum, rest)

/-- **Value** at the front, with room for so many levels of nesting. -/
def scanValue : Nat → List Char → Option (Datum × List Char)
  | 0, cs => scanScalar cs
  | room + 1, cs =>
    match cs with
    | '[' :: rest => do
      let (ds, rest) ← scanItems (scanValue room) (rest.length + 1) rest
      pure (.list ds, rest)
    | '\x7b' :: rest => scanInlineTable (scanValue room) rest
    | _ => scanScalar cs

/-! ## Lines -/

/-- **Lines** that say something. -/
inductive Line where
  /-- Opens a table. -/
  | table (key : Key)
  /-- Opens an element of an array. -/
  | element (key : Key)
  /-- Sets a key. -/
  | entry (key : Key) (d : Datum)
  deriving Repr

namespace Line

/-- **Line** at the front, up to its end. -/
def scan (cs : List Char) : Option (Line × List Char) := do
  let (line, rest) ←
    match cs with
    | '[' :: '[' :: rest => do
      let (key, rest) ← scanKey rest
      let rest ← (after? ']' rest).bind (after? ']')
      pure (Line.element key, rest)
    | '[' :: rest => do
      let (key, rest) ← scanKey rest
      let rest ← after? ']' rest
      pure (.table key, rest)
    | _ => do
      let ((key, d), rest) ← scanEntry (scanValue (nestingLimit - 1)) cs
      pure (.entry key d, rest)
  let rest ← finishLine? rest
  pure (line, rest)

/-- **Lines of a text**; those that say nothing are skipped. -/
def scanAll : Nat → List Char → Option (List Line)
  | 0, _ => none
  | fuel + 1, cs =>
    match skipLayout false cs with
    | [] => some []
    | cs => do
      let (line, rest) ← scan cs
      let lines ← scanAll fuel rest
      pure (line :: lines)

end Line

/-! ## Texts -/

/-- **Tree of lines**, where `opened` is the path of the table last opened. -/
def ofLines? (opened : List String) (root : Table) : List Line → Option Table
  | [] => some root
  | .table key :: rest => do
    let root ← root.openTable key
    ofLines? (key.path ++ [key.name]) root rest
  | .element key :: rest => do
    let root ← root.openElement key
    ofLines? (key.path ++ [key.name]) root rest
  | .entry key d :: rest => do
    let root ← root.defineAt opened key d
    ofLines? opened root rest

/-- **Text after a byte order mark** at its start. -/
def skipByteOrderMark : List Char → List Char
  | '\uFEFF' :: rest => rest
  | cs => cs

/-- **Data tree of a TOML text**, if it is one. -/
def parse? (s : String) : Option Datum := do
  let cs := skipByteOrderMark s.toList
  let lines ← Line.scanAll (cs.length + 1) cs
  let root ← ofLines? [] {} lines
  pure root.toDatum

end FormWiring.Toml
