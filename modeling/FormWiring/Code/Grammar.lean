import FormWiring.Code.Token

/-!
# Paths, types and expressions

Readers for the parts of code that a declaration mentions: paths with generic arguments, types with their
bounds, and expressions where a type or an attribute holds one. Each reader gives the lexemes of what it read
with marks spaced the standard way, whatever the spacing in the source.

The readers call each other, so they carry a bound on the depth; the bound is the size of the source.
-/

set_option autoImplicit false

namespace FormWiring.Code

open Text (isDigit)

/-! ## What was read -/

/-- **Path** as read. -/
structure PathCode where
  code : List Lexeme
  /-- It starts with two colons. -/
  isAbsolute : Bool
  /-- Name of the first segment. -/
  first : String
  /-- Number of segments. -/
  segments : Nat
  /-- No segment has arguments. -/
  isPlain : Bool
  /-- The last segment has no arguments. -/
  isOpen : Bool
  /-- Some segment has arguments in round brackets. -/
  isCall : Bool := false
  deriving Repr, Inhabited

/-- **Shape of a type**, as far as what may follow it depends on it. -/
inductive TypeShape where
  | path (p : PathCode)
  /-- A sum of bounds without a leading keyword, with a trailing mark or not. -/
  | bounds (count : Nat) (trailing : Bool)
  | other
  deriving Inhabited

/-! ## Small readers -/

/-- **Round group at the front**, directly or after two colons. -/
def startsWithCallArguments : List Token → Bool
  | .group .round _ :: _ => true
  | .mark ':' true :: .mark ':' _ :: .group .round _ :: _ => true
  | _ => false

/-- **Literal at the front**: a literal, a truth value, or a minus before a number. -/
def startsWithLiteral : List Token → Bool
  | .literal _ :: _ => true
  | .word w :: _ => w == "true" || w == "false"
  | .mark '-' _ :: .literal text :: _ => text.toList.head?.any isDigit
  | _ => false

/-- **Literal** that must be next. -/
def Reader.literal : Reader (List Lexeme) := fun
  | .literal text :: rest => some ([.literal text], rest)
  | .word w :: rest => if w == "true" || w == "false" then some ([.word w], rest) else none
  | .mark '-' _ :: .literal text :: rest =>
    if text.toList.head?.any isDigit then some ([.mark '-' false, .literal text], rest) else none
  | _ => none

/-- **Group** of a kind, kept as it is. -/
def Reader.rawGroup (d : Delimiter) : Reader (List Lexeme) := fun
  | .group g inside :: rest =>
    if g = d then some ((Token.group g inside).flatten, rest) else none
  | _ => none

/-- **Group** of any kind, kept as it is. -/
def Reader.anyGroup : Reader (List Lexeme) := fun
  | .group g inside :: rest => some ((Token.group g inside).flatten, rest)
  | _ => none

/-- **Group of a kind at the front.** -/
def startsWithGroup (d : Delimiter) : List Token → Bool
  | .group g _ :: _ => g = d
  | _ => false

/-- **Words that start a path** beside names. -/
def pathKeywords : List String :=
  ["super", "self", "Self", "crate"]

/-- **Path at the front**: a name, a path keyword or two colons. -/
def startsWithPath (tokens : List Token) : Bool :=
  startsWithName tokens || startsWithMarks [':', ':'] tokens ||
    pathKeywords.any fun w => startsWithWord w tokens

/-- **Bound at the front.** -/
def startsWithBound (tokens : List Token) : Bool :=
  (match tokens with
    | .word _ :: _ => true
    | _ => false) ||
    startsWithMarks [':', ':'] tokens || startsWithMarks ['?'] tokens ||
    startsWithLifetime tokens || startsWithGroup .round tokens

/-- **Operators between operands**, the longer ones first. -/
def operators : List (List Char) :=
  ["<<=", ">>=", "..=", "&&", "||", "<<", ">>", "+=", "-=", "*=", "/=", "%=", "^=", "&=", "|=", "==", "!=",
    ">=", "<=", "..", "+", "-", "*", "/", "%", "^", "&", "|", "<", ">", "="].map String.toList

/-- **Operator** that may be next. -/
def Reader.operator? : Reader (Option (List Char)) := fun tokens =>
  match operators.find? fun op => startsWithMarks op tokens with
  | some op => some (some op, tokens.drop op.length)
  | none => some (none, tokens)

/-- **Tokens up to a curly group**, which ends the head of a branch. -/
def Reader.untilCurly : Nat → Reader (List Lexeme)
  | 0 => Reader.fail
  | fuel + 1 => do
    if startsWithGroup .curly (← Reader.left) then
      Reader.rawGroup .curly
    else
      let t ← Reader.any
      let rest ← Reader.untilCurly fuel
      pure (t.flatten ++ rest)

/-- **Parameters of a closure** up to the closing bar. -/
def Reader.untilBar : Nat → Reader (List Lexeme)
  | 0 => Reader.fail
  | fuel + 1 => do
    match ← Reader.marks? ['|'] with
    | some bar => pure bar
    | none =>
      let t ← Reader.any
      let rest ← Reader.untilBar fuel
      pure (t.flatten ++ rest)

/-! ## The mutual readers -/

namespace Reader

mutual

/-- **Path.** In expressions the arguments of a segment come after two colons. -/
def path : Nat → Bool → Reader PathCode
  | 0, _ => fail
  | fuel + 1, inExpr => do
    let leading ← marks? [':', ':']
    let (name, args) ← segment fuel inExpr
    let start : PathCode :=
      ⟨leading.getD [] ++ .word name :: args.getD [], leading.isSome, name, 1, args.isNone, args.isNone,
        false⟩
    pathRest fuel inExpr start

/-- **Further segments** of a path. -/
def pathRest : Nat → Bool → PathCode → Reader PathCode
  | 0, _, _ => fail
  | fuel + 1, inExpr, p => do
    let tokens ← left
    if startsWithMarks [':', ':'] tokens && !startsWithGroup .round (tokens.drop 2) then
      let colons ← marks [':', ':']
      let (name, args) ← segment fuel inExpr
      pathRest fuel inExpr
        { p with
          code := p.code ++ colons ++ .word name :: args.getD []
          segments := p.segments + 1
          isPlain := p.isPlain && args.isNone
          isOpen := args.isNone }
    else
      pure p

/-- **Segment** of a path: its name and its arguments in angle brackets. -/
def segment : Nat → Bool → Reader (String × Option (List Lexeme))
  | 0, _ => fail
  | fuel + 1, inExpr => do
    let tokens ← left
    if ["super", "self", "crate", "try"].any fun w => startsWithWord w tokens then
      pure (← anyWord, none)
    else
      let name ← if startsWithWord "Self" tokens then anyWord else name
      let tokens ← left
      if (!inExpr && startsWithMarks ['<'] tokens && !startsWithMarks ['<', '='] tokens) ||
          (startsWithMarks [':', ':'] tokens && startsWithMarks ['<'] (tokens.drop 2)) then
        pure (name, some (← angleArguments fuel))
      else
        pure (name, none)

/-- **Arguments in angle brackets**; lifetimes are written before the others. -/
def angleArguments : Nat → Reader (List Lexeme)
  | 0 => fail
  | fuel + 1 => do
    let colons ← marks? [':', ':']
    let start ← marks ['<']
    let (args, trailing) ← argumentList fuel
    let stop ← marks ['>']
    let lifetimes := (args.filter (·.1)).map (·.2)
    let others := (args.filter (!·.1)).map (·.2)
    let comma := if trailing then [Lexeme.mark ',' false] else []
    pure (colons.getD [] ++ start ++ Lexeme.commaSeparated (lifetimes ++ others) ++ comma ++ stop)

/-- **Arguments up to the closing bracket**, each marked as a lifetime or not, and whether a comma ends
them. -/
def argumentList : Nat → Reader (List (Bool × List Lexeme) × Bool)
  | 0 => fail
  | fuel + 1 => do
    if startsWithMarks ['>'] (← left) then
      pure ([], false)
    else
      let arg ← argument fuel
      if startsWithMarks ['>'] (← left) then
        pure ([arg], false)
      else
        let _ ← marks [',']
        let (rest, trailing) ← argumentList fuel
        pure (arg :: rest, trailing || rest.isEmpty)

/-- **One argument**: a lifetime, a constant, a type, or a named type, constant or bound. -/
def argument : Nat → Reader (Bool × List Lexeme)
  | 0 => fail
  | fuel + 1 => do
    let tokens ← left
    if startsWithLifetime tokens && !startsWithMarks ['+'] (tokens.drop 2) then
      pure (true, ← lifetime)
    else if startsWithLiteral tokens then
      pure (false, ← literal)
    else if startsWithGroup .curly tokens then
      pure (false, ← rawGroup .curly)
    else
      let (code, shape) ← type fuel true
      let isNamed :=
        match shape with
        | .path p => !p.isAbsolute && p.segments == 1 && !p.isCall
        | _ => false
      if !isNamed then
        pure (false, code)
      else
        match ← marks? ['='] with
        | some equals =>
          let tokens ← left
          let value ←
            if startsWithLiteral tokens then literal
            else if startsWithGroup .curly tokens then rawGroup .curly
            else (·.1) <$> type fuel true
          pure (false, code ++ equals ++ value)
        | none =>
          match ← marks? [':'] with
          | some colon =>
            let limits ← argumentBounds fuel
            pure (false, code ++ colon ++ limits)
          | none => pure (false, code)

/-- **Bounds of a named argument**, possibly none. -/
def argumentBounds : Nat → Reader (List Lexeme)
  | 0 => fail
  | fuel + 1 => do
    let tokens ← left
    if startsWithMarks [','] tokens || startsWithMarks ['>'] tokens then
      pure []
    else
      let (b, _) ← bound fuel
      match ← marks? ['+'] with
      | some plus => pure (b ++ plus ++ (← argumentBounds fuel))
      | none => pure b

/-- **One bound**, and whether it is a trait. -/
def bound : Nat → Reader (List Lexeme × Bool)
  | 0 => fail
  | fuel + 1 => do
    let tokens ← left
    if startsWithLifetime tokens then
      pure (← lifetime, false)
    else if startsWithWord "use" tokens then
      let start ← keyword "use"
      let args ← angleArguments fuel
      pure (start ++ args, false)
    else
      match tokens with
      | .group .round inside :: _ =>
        let code ← within .round (traitBound fuel)
        let _ := inside
        pure (Lexeme.group .round code, true)
      | _ => pure (← traitBound fuel, true)

/-- **Trait bound** without round brackets around it. -/
def traitBound : Nat → Reader (List Lexeme)
  | 0 => fail
  | fuel + 1 => do
    let binder ← binder? fuel
    let conditional ← marks? ['~']
    let constant ← keyword? "const"
    let maybe ← marks? ['?']
    let binder ← if binder.isEmpty && maybe.isSome then binder? fuel else pure binder
    let p ← path fuel false
    let p ← if p.isOpen then callArguments? fuel p else pure p
    pure (conditional.getD [] ++ constant.getD [] ++ maybe.getD [] ++ binder ++ p.code)

/-- **Binder of lifetimes**, if there is one. -/
def binder? : Nat → Reader (List Lexeme)
  | 0 => fail
  | fuel + 1 => do
    match ← keyword? "for" with
    | none => pure []
    | some start =>
      let opening ← marks ['<']
      let (args, trailing) ← argumentList fuel
      let closing ← marks ['>']
      if args.all (·.1) then
        let comma := if trailing then [Lexeme.mark ',' false] else []
        pure (start ++ opening ++ Lexeme.commaSeparated (args.map (·.2)) ++ comma ++ closing)
      else fail

/-- **Arguments in round brackets** of a path's last segment, with the type they give. -/
def callArguments? : Nat → PathCode → Reader PathCode
  | 0, _ => fail
  | fuel + 1, p => do
    if startsWithCallArguments (← left) then
      let _ ← marks? [':', ':']
      let inputs ← within .round (typeList fuel)
      let output ← returnType fuel
      pure { p with
        code := p.code ++ Lexeme.group .round inputs ++ output
        isPlain := false
        isOpen := false
        isCall := true }
    else
      pure p

/-- **Types with commas between them**, up to the end. -/
def typeList : Nat → Reader (List Lexeme)
  | 0 => fail
  | fuel + 1 => do
    if ← atEnd then
      pure []
    else
      let (code, _) ← type fuel true
      if ← atEnd then
        pure code
      else
        let comma ← marks [',']
        pure (code ++ comma ++ (← typeList fuel))

/-- **Result type**, if there is one. -/
def returnType : Nat → Reader (List Lexeme)
  | 0 => fail
  | fuel + 1 => do
    match ← marks? ['-', '>'] with
    | some arrow =>
      let (code, _) ← type fuel false
      pure (arrow ++ code)
    | none => pure []

/-- **Further bounds** after a first one, each after a plus. -/
def moreBounds : Nat → Bool → Reader (List Lexeme × Nat × Bool)
  | 0, _ => fail
  | fuel + 1, mayEnd => do
    match ← marks? ['+'] with
    | none => pure ([], 0, false)
    | some plus =>
      if mayEnd && !startsWithBound (← left) then
        pure (plus, 0, true)
      else
        let (b, _) ← bound fuel
        let (rest, count, trailing) ← moreBounds fuel mayEnd
        pure (plus ++ b ++ rest, count + 1, trailing)

/-- **Bounds of an object or opaque type**: one of them must be a trait. -/
def objectBounds : Nat → Bool → Reader (List Lexeme)
  | 0, _ => fail
  | fuel + 1, allowPlus => do
    let (b, isTrait) ← bound fuel
    if allowPlus && startsWithMarks ['+'] (← left) then
      let plus ← marks ['+']
      let tokens ← left
      if startsWithBound tokens || startsWithMarks ['~'] tokens then
        if isTrait then
          pure (b ++ plus ++ (← boundsAfterTrait fuel))
        else
          pure (b ++ plus ++ (← objectBounds fuel true))
      else if isTrait then pure (b ++ plus)
      else fail
    else if isTrait then pure b
    else fail

/-- **Further bounds** once a trait was seen. -/
def boundsAfterTrait : Nat → Reader (List Lexeme)
  | 0 => fail
  | fuel + 1 => do
    let (b, _) ← bound fuel
    match ← marks? ['+'] with
    | some plus =>
      if startsWithBound (← left) then
        pure (b ++ plus ++ (← boundsAfterTrait fuel))
      else
        pure (b ++ plus)
    | none => pure b

/-- **Type.** Without `allowPlus` a sum of bounds is not read past its first bound. -/
def type : Nat → Bool → Reader (List Lexeme × TypeShape)
  | 0, _ => fail
  | fuel + 1, allowPlus => do
    let binder ← binder? fuel
    let tokens ← left
    if !binder.isEmpty && !(startsWithPath tokens && !startsWithMarks [':', ':'] tokens) &&
        !(["fn", "unsafe", "extern"].any fun w => startsWithWord w tokens) then
      fail
    else
      match tokens with
      | .group .round _ :: _ =>
        if !binder.isEmpty then fail else roundType fuel allowPlus
      | .group .square _ :: _ =>
        let code ← within .square (squareType fuel)
        pure (Lexeme.group .square code, .other)
      | _ =>
        if ["fn", "unsafe", "extern"].any fun w => startsWithWord w tokens then
          pure (binder ++ (← functionType fuel), .other)
        else if startsWithMarks ['<'] tokens then
          pure (← qualifiedPath fuel false, .other)
        else if startsWithPath tokens then
          pathType fuel allowPlus binder
        else if startsWithWord "dyn" tokens then
          let start ← keyword "dyn"
          let star ← marks? ['*']
          let limits ← objectBounds fuel allowPlus
          pure (start ++ star.getD [] ++ limits, .other)
        else if startsWithWord "impl" tokens then
          let start ← keyword "impl"
          let limits ← objectBounds fuel allowPlus
          pure (start ++ limits, .other)
        else if startsWithMarks ['*'] tokens then
          let star ← marks ['*']
          let mode ← if startsWithWord "const" (← left) then keyword "const" else keyword "mut"
          let (code, _) ← type fuel false
          pure (star ++ mode ++ code, .other)
        else if startsWithMarks ['&'] tokens then
          let amp ← marks ['&']
          let life ← if startsWithLifetime (← left) then lifetime else pure []
          let mode ← keyword? "mut"
          let (code, _) ← type fuel false
          pure (amp ++ life ++ mode.getD [] ++ code, .other)
        else if startsWithMarks ['!'] tokens && !startsWithMarks ['!', '='] tokens then
          pure (← marks ['!'], .other)
        else if startsWithWord "_" tokens then
          pure (← keyword "_", .other)
        else if startsWithLifetime tokens then
          let limits ← objectBounds fuel allowPlus
          pure (limits, .bounds 2 false)
        else
          fail

/-- **Type that starts with a path.** -/
def pathType : Nat → Bool → List Lexeme → Reader (List Lexeme × TypeShape)
  | 0, _, _ => fail
  | fuel + 1, allowPlus, binder => do
    let p ← path fuel false
    let p ← if p.isOpen then callArguments? fuel p else pure p
    let tokens ← left
    if p.isPlain && startsWithMarks ['!'] tokens && !startsWithMarks ['!', '='] tokens then
      let bang ← marks ['!']
      let body ← anyGroup
      pure (p.code ++ bang ++ body, .other)
    else if allowPlus && startsWithMarks ['+'] tokens then
      let (rest, count, trailing) ← moreBounds fuel true
      pure (binder ++ p.code ++ rest, .bounds (count + 1) trailing)
    else if !binder.isEmpty then
      pure (binder ++ p.code, .bounds 1 false)
    else
      pure (p.code, .path p)

/-- **Type in round brackets**: a tuple, a type in brackets, or the first bound of a sum. -/
def roundType : Nat → Bool → Reader (List Lexeme × TypeShape)
  | 0, _ => fail
  | fuel + 1, allowPlus => do
    let tokens ← left
    let inside :=
      match tokens with
      | .group .round inside :: _ => inside
      | _ => []
    if startsWithMarks ['?'] inside then
      let code ← within .round (traitBound fuel)
      let (rest, count, trailing) ← moreBounds fuel false
      pure (Lexeme.group .round code ++ rest, .bounds (count + 1) trailing)
    else
      let (code, first) ← within .round (tupleBody fuel)
      let mayLead :=
        match first with
        | some (.path _) => true
        | some (.bounds count trailing) => count == 1 && !trailing
        | _ => false
      if mayLead && allowPlus && startsWithMarks ['+'] (← left) then
        let (rest, count, trailing) ← moreBounds fuel false
        pure (Lexeme.group .round code ++ rest, .bounds (count + 1) trailing)
      else
        pure (Lexeme.group .round code, .other)

/-- **Inside of round brackets**: with the shape of the only type, when there is one without a comma. -/
def tupleBody : Nat → Reader (List Lexeme × Option TypeShape)
  | 0 => fail
  | fuel + 1 => do
    if ← atEnd then
      pure ([], none)
    else
      let (code, shape) ← type fuel true
      if ← atEnd then
        pure (code, some shape)
      else
        let comma ← marks [',']
        let rest ← typeList fuel
        pure (code ++ comma ++ rest, none)

/-- **Inside of square brackets**: an element type, and a length for an array. -/
def squareType : Nat → Reader (List Lexeme)
  | 0 => fail
  | fuel + 1 => do
    let (code, _) ← type fuel true
    if ← atEnd then
      pure code
    else
      let semicolon ← marks [';']
      let length ← expr fuel
      pure (code ++ semicolon ++ length)

/-- **Function type**, from its qualifiers on. -/
def functionType : Nat → Reader (List Lexeme)
  | 0 => fail
  | fuel + 1 => do
    let unsafety ← keyword? "unsafe"
    let linkage ← keyword? "extern"
    let abi : List Lexeme ←
      match linkage, ← left with
      | some _, .literal _ :: _ => literal
      | _, _ => pure []
    let start ← keyword "fn"
    let inputs ← within .round (parameterList fuel)
    let output ← returnType fuel
    pure (unsafety.getD [] ++ linkage.getD [] ++ abi ++ start ++ Lexeme.group .round inputs ++ output)

/-- **Parameters of a function type**, each with an optional name. -/
def parameterList : Nat → Reader (List Lexeme)
  | 0 => fail
  | fuel + 1 => do
    if ← atEnd then
      pure []
    else if startsWithMarks ['.', '.', '.'] (← left) then
      marks ['.', '.', '.']
    else
      let tokens ← left
      let named :=
        match tokens with
        | .word w :: rest =>
          (!keywords.contains w || w == "_" || w == "self") && startsWithMarks [':'] rest &&
            !startsWithMarks [':', ':'] rest
        | _ => false
      let label ←
        if named then do
          let w ← anyWord
          let colon ← marks [':']
          pure (Lexeme.word w :: colon)
        else pure []
      let (code, _) ← type fuel true
      if ← atEnd then
        pure (label ++ code)
      else
        let comma ← marks [',']
        pure (label ++ code ++ comma ++ (← parameterList fuel))

/-- **Path of an associated item**, from its angle bracket on. -/
def qualifiedPath : Nat → Bool → Reader (List Lexeme)
  | 0, _ => fail
  | fuel + 1, inExpr => do
    let start ← marks ['<']
    let (self, _) ← type fuel true
    let trait ←
      match ← keyword? "as" with
      | some as => do
        let p ← path fuel false
        pure (as ++ p.code)
      | none => pure []
    let stop ← marks ['>']
    let colons ← marks [':', ':']
    let (name, args) ← segment fuel inExpr
    let p ← pathRest fuel inExpr ⟨.word name :: args.getD [], false, name, 1, args.isNone, args.isNone, false⟩
    let p ← if !inExpr && p.isOpen then callArguments? fuel p else pure p
    pure (start ++ self ++ trait ++ stop ++ colons ++ p.code)

/-- **Expression.** -/
def expr : Nat → Reader (List Lexeme)
  | 0 => fail
  | fuel + 1 => do
    if startsWithMarks ['.', '.'] (← left) then
      let range ←
        if startsWithMarks ['.', '.', '='] (← left) then marks ['.', '.', '='] else marks ['.', '.']
      if ← endsExpr then pure range else pure (range ++ (← expr fuel))
    else
      let first ← operand fuel
      exprRest fuel first

/-- **No operand follows.** -/
def endsExpr : Reader Bool := do
  let tokens ← left
  pure (tokens.isEmpty || startsWithMarks [','] tokens || startsWithMarks [';'] tokens)

/-- **Further operators and operands** of an expression. -/
def exprRest : Nat → List Lexeme → Reader (List Lexeme)
  | 0, _ => fail
  | fuel + 1, code => do
    match ← keyword? "as" with
    | some as =>
      let (target, _) ← type fuel false
      exprRest fuel (code ++ as ++ target)
    | none =>
      if startsWithMarks ['=', '>'] (← left) then
        pure code
      else
        match ← operator? with
        | none => pure code
        | some op =>
          let code := code ++ Lexeme.marks op
          if (op == ['.', '.']) && (← endsExpr) then
            pure code
          else
            exprRest fuel (code ++ (← operand fuel))

/-- **Operand**: an atom with its signs before and its calls, members and indices after. -/
def operand : Nat → Reader (List Lexeme)
  | 0 => fail
  | fuel + 1 => do
    let tokens ← left
    if startsWithMarks ['-'] tokens then
      pure ((← marks ['-']) ++ (← operand fuel))
    else if startsWithMarks ['!'] tokens then
      pure ((← marks ['!']) ++ (← operand fuel))
    else if startsWithMarks ['*'] tokens then
      pure ((← marks ['*']) ++ (← operand fuel))
    else if startsWithMarks ['&'] tokens then
      let amp ← marks ['&']
      let mode ← keyword? "mut"
      pure (amp ++ mode.getD [] ++ (← operand fuel))
    else
      let code ← atom fuel
      postfixes fuel code

/-- **Calls, members and indices** after an atom. -/
def postfixes : Nat → List Lexeme → Reader (List Lexeme)
  | 0, _ => fail
  | fuel + 1, code => do
    let tokens ← left
    if startsWithGroup .round tokens then
      let args ← within .round (exprList fuel)
      postfixes fuel (code ++ Lexeme.group .round args)
    else if startsWithGroup .square tokens then
      let index ← within .square (expr fuel)
      postfixes fuel (code ++ Lexeme.group .square index)
    else if startsWithMarks ['?'] tokens then
      postfixes fuel (code ++ (← marks ['?']))
    else if startsWithMarks ['.'] tokens && !startsWithMarks ['.', '.'] tokens then
      let dot ← marks ['.']
      match ← left with
      | .literal text :: _ =>
        let _ ← any
        postfixes fuel (code ++ dot ++ [.literal text])
      | _ =>
        let w ← anyWord
        let args ← if startsWithMarks [':', ':'] (← left) then angleArguments fuel else pure []
        postfixes fuel (code ++ dot ++ .word w :: args)
    else
      pure code

/-- **Expressions with commas between them**, up to the end. -/
def exprList : Nat → Reader (List Lexeme)
  | 0 => fail
  | fuel + 1 => do
    if ← atEnd then
      pure []
    else
      let code ← expr fuel
      if ← atEnd then
        pure code
      else
        let comma ← marks [',']
        pure (code ++ comma ++ (← exprList fuel))

/-- **Inside of an array**: a list, or an element and its count. -/
def arrayBody : Nat → Reader (List Lexeme)
  | 0 => fail
  | fuel + 1 => do
    if ← atEnd then
      pure []
    else
      let first ← expr fuel
      match ← marks? [';'] with
      | some semicolon => pure (first ++ semicolon ++ (← expr fuel))
      | none =>
        if ← atEnd then
          pure first
        else
          let comma ← marks [',']
          pure (first ++ comma ++ (← exprList fuel))

/-- **Atom** of an expression. -/
def atom : Nat → Reader (List Lexeme)
  | 0 => fail
  | fuel + 1 => do
    let tokens ← left
    match tokens with
    | .literal _ :: _ => literal
    | .group .round _ :: _ => Lexeme.group .round <$> within .round (exprList fuel)
    | .group .square _ :: _ => Lexeme.group .square <$> within .square (arrayBody fuel)
    | .group .curly _ :: _ => rawGroup .curly
    | .mark '|' _ :: _ =>
      let bars ←
        if startsWithMarks ['|', '|'] tokens then marks ['|', '|']
        else do
          let bar ← marks ['|']
          pure (bar ++ (← untilBar fuel))
      let output ← returnType fuel
      pure (bars ++ output ++ (← expr fuel))
    | .mark '<' _ :: _ => qualifiedPath fuel true
    | .word w :: _ =>
      if w == "true" || w == "false" then
        literal
      else if w == "_" then
        keyword "_"
      else if w == "move" || w == "static" then
        pure ((← keyword w) ++ (← atom fuel))
      else if w == "if" then
        branches fuel
      else if ["match", "while", "for", "loop", "unsafe", "async", "const"].contains w then
        let start ← keyword w
        pure (start ++ (← untilCurly fuel))
      else if ["return", "break"].contains w then
        let start ← keyword w
        if ← endsExpr then pure start else pure (start ++ (← expr fuel))
      else if w == "continue" then
        keyword w
      else if startsWithPath tokens then
        pathAtom fuel
      else
        fail
    | _ => if startsWithPath tokens then pathAtom fuel else fail

/-- **Branches** on conditions. -/
def branches : Nat → Reader (List Lexeme)
  | 0 => fail
  | fuel + 1 => do
    let start ← keyword "if"
    let body ← untilCurly fuel
    match ← keyword? "else" with
    | some otherwise =>
      let rest ← if startsWithWord "if" (← left) then branches fuel else rawGroup .curly
      pure (start ++ body ++ otherwise ++ rest)
    | none => pure (start ++ body)

/-- **Atom that starts with a path**: a value, a call of a code generator or a structure. -/
def pathAtom : Nat → Reader (List Lexeme)
  | 0 => fail
  | fuel + 1 => do
    let p ← path fuel true
    let tokens ← left
    if p.isPlain && startsWithMarks ['!'] tokens && !startsWithMarks ['!', '='] tokens then
      let bang ← marks ['!']
      pure (p.code ++ bang ++ (← anyGroup))
    else if startsWithGroup .curly tokens then
      pure (p.code ++ (← rawGroup .curly))
    else
      pure p.code

end

end Reader

/-! ## Whole texts -/

/-- **Depth bound** for tokens: the readers descend at most a few times for each token. -/
def depthOf (tokens : List Token) : Nat :=
  16 * ((Token.flattenAll tokens).length + 1)

/-- **Path of a text** that is exactly one path. -/
def path? (s : String) : Option PathCode :=
  (Token.read? s).bind fun tokens => (Reader.path (depthOf tokens) false).run? tokens

end FormWiring.Code
