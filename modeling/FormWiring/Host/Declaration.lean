import FormWiring.Host

/-!
# Declarations of host types

Readers for one declaration: a structure, an enumeration or a union with its attributes, generics and fields.
Types and bounds are read for their extent only.

Main definition: `HostType.read?`.
-/

set_option autoImplicit false

namespace FormWiring

open Code

namespace Declaration

open Reader

/-- **Words of a plain path** after its first colons. -/
def plainPathWords : Nat → Reader (List String)
  | 0 => fail
  | fuel + 1 => do
    let tokens ← left
    if startsWithName tokens || pathKeywords.any fun w => startsWithWord w tokens then
      let w ← anyWord
      match ← marks? [':', ':'] with
      | some _ => pure (w :: (← plainPathWords fuel))
      | none => pure [w]
    else
      fail

/-- **Plain path**: its only word, when there is one and it is not absolute. -/
def plainPath (depth : Nat) : Reader (Option String) := do
  let leading ← marks? [':', ':']
  let words ← plainPathWords depth
  match leading, words with
  | none, [w] => pure (some w)
  | _, _ => pure none

/-- **Inside of an attribute.** -/
def attributeInside (depth : Nat) : Reader Attribute := do
  let name ←
    match ← keyword? "unsafe" with
    | some _ => pure (some "unsafe")
    | none => plainPath depth
  match ← left with
  | .group _ inside :: _ =>
    let _ ← any
    pure ⟨name, .list inside⟩
  | tokens =>
    match ← marks? ['='] with
    | none => pure ⟨name, .bare⟩
    | some _ =>
      match leadingLiteral? (tokens.drop 1) with
      | some (_, []) =>
        set ([] : List Token)
        pure ⟨name, .value⟩
      | _ =>
        let _ ← expr depth
        pure ⟨name, .value⟩

/-- **Attributes** before an item, possibly none. -/
def attributes (depth : Nat) : Nat → Reader (List Attribute)
  | 0 => fail
  | fuel + 1 => do
    match ← marks? ['#'] with
    | none => pure []
    | some _ =>
      let first ← within .square (attributeInside depth)
      pure (first :: (← attributes depth fuel))

/-- **Visibility.** A round group after the keyword restricts it only if it names a scope. -/
def visibility (depth : Nat) : Reader Visibility := do
  match ← keyword? "pub" with
  | none => pure .inherited
  | some _ =>
    match ← left with
    | .group .round [.word w] :: _ =>
      if ["crate", "self", "super"].contains w then
        let _ ← any
        pure .crate
      else pure .everywhere
    | .group .round (.word "in" :: _) :: _ =>
      let _ ← within .round (do
        let _ ← keyword "in"
        plainPath depth)
      pure .crate
    | _ => pure .everywhere

/-- **Type**, for its extent only. -/
def skipType (depth : Nat) : Reader Unit := do
  let _ ← type depth true

/-- **Bounds** after a colon, up to a mark that ends them. -/
def skipBounds (depth : Nat) : Nat → Reader Unit
  | 0 => fail
  | fuel + 1 => do
    let tokens ← left
    let isEnd := tokens.isEmpty || startsWithGroup .curly tokens ||
      [[','], ['>'], ['='], [';']].any fun m => startsWithMarks m tokens
    if isEnd || (startsWithMarks [':'] tokens && !startsWithMarks [':', ':'] tokens) then
      pure ()
    else
      let _ ← bound depth
      match ← marks? ['+'] with
      | some _ => skipBounds depth fuel
      | none => pure ()

/-- **Generic parameter.** -/
def skipParameter (depth : Nat) : Reader Unit := do
  let _ ← attributes depth depth
  let tokens ← left
  if startsWithLifetime tokens then
    let _ ← lifetime
    match ← marks? [':'] with
    | some _ => skipBounds depth depth
    | none => pure ()
  else if startsWithWord "const" tokens then
    let _ ← keyword "const"
    let _ ← name
    let _ ← marks [':']
    skipType depth
    match ← marks? ['='] with
    | some _ =>
      let tokens ← left
      if startsWithLiteral tokens then
        let _ ← literal
      else if startsWithGroup .curly tokens then
        let _ ← rawGroup .curly
      else
        let _ ← name
    | none => pure ()
  else
    if startsWithWord "_" tokens then
      let _ ← anyWord
    else
      let _ ← name
    match ← marks? [':'] with
    | some _ => skipBounds depth depth
    | none => pure ()
    match ← marks? ['='] with
    | some _ => skipType depth
    | none => pure ()

/-- **Generic parameters** up to the closing bracket, and whether there is one. -/
def skipParameters (depth : Nat) : Nat → Reader Bool
  | 0 => fail
  | fuel + 1 => do
    if startsWithMarks ['>'] (← left) then
      pure false
    else
      skipParameter depth
      if startsWithMarks ['>'] (← left) then
        pure true
      else
        let _ ← marks [',']
        let _ ← skipParameters depth fuel
        pure true

/-- **Generics**, and whether there is a parameter. -/
def generics (depth : Nat) : Reader Bool := do
  match ← marks? ['<'] with
  | none => pure false
  | some _ =>
    let found ← skipParameters depth depth
    let _ ← marks ['>']
    pure found

/-- **Conditions** of a where clause. -/
def skipConditions (depth : Nat) : Nat → Reader Unit
  | 0 => fail
  | fuel + 1 => do
    let tokens ← left
    let isEnd := tokens.isEmpty || startsWithGroup .curly tokens ||
      [[','], ['='], [';']].any fun m => startsWithMarks m tokens
    if isEnd || (startsWithMarks [':'] tokens && !startsWithMarks [':', ':'] tokens) then
      pure ()
    else
      if startsWithLifetime tokens && startsWithMarks [':'] (tokens.drop 2) then
        let _ ← lifetime
      else
        let _ ← binder? depth
        skipType depth
      let _ ← marks [':']
      skipBounds depth depth
      match ← marks? [','] with
      | some _ => skipConditions depth fuel
      | none => pure ()

/-- **Where clause**, if there is one. -/
def whereClause (depth : Nat) : Reader Bool := do
  match ← keyword? "where" with
  | none => pure false
  | some _ =>
    skipConditions depth depth
    pure true

/-- **Items with commas between them**, up to the end. -/
def commaList {α : Type} (item : Reader α) : Nat → Reader (List α)
  | 0 => fail
  | fuel + 1 => do
    if ← atEnd then
      pure []
    else
      let first ← item
      if ← atEnd then
        pure [first]
      else
        let _ ← marks [',']
        pure (first :: (← commaList item fuel))

/-- **Named field**; a nameless one may hold a structure written in place. -/
def namedField (depth : Nat) : Nat → Reader HostField
  | 0 => fail
  | fuel + 1 => do
    let attributes ← attributes depth depth
    let _ ← visibility depth
    let isNameless := startsWithWord "_" (← left)
    let name ← if isNameless then anyWord else name
    let _ ← marks [':']
    let tokens ← left
    let isNested := isNameless && (startsWithWord "struct" tokens ||
      (startsWithWord "union" tokens && startsWithGroup .curly (tokens.drop 1)))
    if isNested then
      let _ ← anyWord
      let _ ← within .curly (commaList (namedField depth fuel) depth)
    else
      skipType depth
    pure ⟨attributes, some name⟩

/-- **Field of a tuple.** -/
def tupleField (depth : Nat) : Reader HostField := do
  let attributes ← attributes depth depth
  let _ ← visibility depth
  skipType depth
  pure ⟨attributes, none⟩

/-- **Named fields** in their group. -/
def namedFields (depth : Nat) : Reader (List HostField) :=
  within .curly (commaList (namedField depth depth) depth)

/-- **Tuple fields** in their group. -/
def tupleFields (depth : Nat) : Reader (List HostField) :=
  within .round (commaList (tupleField depth) depth)

/-- **Body of a structure.** -/
def structureBody (depth : Nat) : Reader HostShape := do
  let hasClause ← whereClause depth
  let tokens ← left
  if !hasClause && startsWithGroup .round tokens then
    let fields ← tupleFields depth
    let _ ← whereClause depth
    let _ ← marks [';']
    pure (.tuple fields)
  else if startsWithGroup .curly tokens then
    pure (.named (← namedFields depth))
  else
    let _ ← marks [';']
    pure .plain

/-- **Case of an enumeration.** -/
def skipCase (depth : Nat) : Reader Unit := do
  let _ ← attributes depth depth
  let _ ← visibility depth
  let _ ← name
  let tokens ← left
  if startsWithGroup .curly tokens then
    let _ ← namedFields depth
  else if startsWithGroup .round tokens then
    let _ ← tupleFields depth
  match ← marks? ['='] with
  | some _ =>
    let _ ← expr depth
  | none => pure ()

/-- **Declaration of a host type.** -/
def hostType (depth : Nat) : Reader HostType := do
  let attributes ← attributes depth depth
  let visibility ← visibility depth
  let tokens ← left
  if startsWithWord "struct" tokens then
    let _ ← anyWord
    let name ← name
    let isGeneric ← generics depth
    let shape ← structureBody depth
    pure ⟨attributes, visibility, name, isGeneric, shape⟩
  else if startsWithWord "enum" tokens then
    let _ ← anyWord
    let name ← name
    let isGeneric ← generics depth
    let _ ← whereClause depth
    let _ ← within .curly (commaList (skipCase depth) depth)
    pure ⟨attributes, visibility, name, isGeneric, .other⟩
  else if startsWithWord "union" tokens then
    let _ ← anyWord
    let name ← name
    let isGeneric ← generics depth
    let _ ← whereClause depth
    let _ ← namedFields depth
    pure ⟨attributes, visibility, name, isGeneric, .other⟩
  else
    fail

end Declaration

/-- **Host type of a source text** that is one declaration. -/
def HostType.read? (source : String) : Option HostType :=
  (Token.read? source).bind fun tokens => (Declaration.hostType (depthOf tokens)).run? tokens

end FormWiring
