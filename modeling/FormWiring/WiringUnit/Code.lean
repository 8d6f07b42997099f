import FormWiring.WiringUnit.OfForm
import FormWiring.Code.Grammar

/-!
# Code of wiring units

The lexemes of a wiring unit. Every runtime item is named by its full path, so the code needs no imports
where it stands. Names are checked as they are written, in the order of the text: the first one that is no
name of the right kind is the error.
-/

set_option autoImplicit false

namespace FormWiring

open Code

/-! ## Errors -/

/-- **Names that cannot be written.** -/
inductive CodeError where
  | invalidIdentifier (text : String)
  | invalidPath (text : String)
  deriving DecidableEq, Repr

/-- **Wording** of an error. -/
def CodeError.message : CodeError → String
  | .invalidIdentifier text => "`" ++ text ++ "` is not a valid identifier"
  | .invalidPath text => "`" ++ text ++ "` is not a valid path"

namespace WiringUnit

/-! ## Names -/

/-- **Lexeme of a name.** -/
def nameCode (s : String) : Except CodeError Lexeme :=
  match identifier? s with
  | some name => .ok (.word name)
  | none => .error (.invalidIdentifier s)

/-- **Lexemes of a path.** -/
def pathCode (s : String) : Except CodeError PathCode :=
  match path? s with
  | some p => .ok p
  | none => .error (.invalidPath s)

/-- **Runtime path**: taken from the root unless it says where it starts. -/
def runtimeCode (p : PathCode) : List Lexeme :=
  if p.isAbsolute || ["crate", "self", "super"].contains p.first then p.code
  else Lexeme.marks [':', ':'] ++ p.code

/-- **Surroundings** of the code: the runtime's path and the host's. -/
structure Surroundings where
  runtime : List Lexeme
  host : List Lexeme

/-! ## Pieces -/

/-- **Comma.** -/
def comma : Lexeme := .mark ',' false

/-- **Semicolon.** -/
def semicolon : Lexeme := .mark ';' false

/-- **Colon.** -/
def colon : Lexeme := .mark ':' false

/-- **Dot.** -/
def dot : Lexeme := .mark '.' false

/-- **Equals sign.** -/
def equals : Lexeme := .mark '=' false

/-- **Ampersand.** -/
def ampersand : Lexeme := .mark '&' false

/-- **Two colons.** -/
def colons : List Lexeme := Lexeme.marks [':', ':']

/-- **Shared reference type.** -/
def sharedPath : List Lexeme := Lexeme.rootPath ["std", "rc", "Rc"]

/-- **Present case of an optional value.** -/
def presentPath : List Lexeme := Lexeme.rootPath ["std", "option", "Option", "Some"]

/-- **Item of the runtime.** -/
def Surroundings.item (s : Surroundings) (names : List String) : List Lexeme :=
  s.runtime ++ Lexeme.rootPath names

/-- **Type in angle brackets.** -/
def angled (code : List Lexeme) : List Lexeme :=
  .mark '<' false :: (code ++ [.mark '>' false])

/-- **Call of something.** -/
def callCode (callee : List Lexeme) (args : List (List Lexeme)) : List Lexeme :=
  callee ++ Lexeme.group .round (Lexeme.commaSeparated args)

/-- **Quoted text.** -/
def textCode (s : String) : List Lexeme :=
  [.literal (Text.quoteLiteral s)]

/-- **Integer**: the minus is a mark of its own. -/
def intCode (n : Int) : List Lexeme :=
  if n < 0 then [.mark '-' false, .literal (toString n.natAbs)] else [.literal (toString n.natAbs)]

/-- **Type mentioned in the code.** -/
def typeCode (s : Surroundings) : TypeRef → List Lexeme
  | .selfType => [.word "Self"]
  | .hostRef => ampersand :: (sharedPath ++ angled s.host)
  | .sharedValidatorSet => sharedPath ++ angled (s.item ["ValidatorSet"])
  | .sharedValidatorSetRef => ampersand :: (sharedPath ++ angled (s.item ["ValidatorSet"]))
  | .clickableRef => ampersand :: .word "dyn" :: s.item ["ui", "Clickable"]
  | .dataBindingRef => ampersand :: .word "dyn" :: s.item ["ui", "DataBinding"]

/-! ## Expressions -/

mutual

/-- **Code of an expression.** -/
def exprCode (s : Surroundings) : Expr → Except CodeError (List Lexeme)
  | .var name => do pure [← nameCode name]
  | .field base name => do
    let base ← exprCode s base
    pure (base ++ [dot, ← nameCode name])
  | .bool value => pure [.word (if value then "true" else "false")]
  | .int value => pure (intCode value.toInt)
  | .text value => pure (textCode value)
  | .message (.literal text) => pure (textCode text)
  | .message (.resource id) =>
    pure (callCode (s.item ["ui", "StringResources", "get_string"])
      [[ampersand, .mark '*' false, .mark '*' false, .word "target"], intCode id.toInt])
  | .input member => do
    let member ← nameCode member
    pure (callCode (s.item ["ui", "InputHandle", "input_handle"])
      [[ampersand, .word "target", dot, member]])
  | .ref inner => do pure (ampersand :: (← exprCode s inner))
  | .newSet => pure (callCode (s.item ["ValidatorSet", "new"]) [])
  | .newValidator kind args => do
    let args ← exprCodes s args
    pure (callCode (s.item ["validators", kind.typeName, "new"]) args)
  | .call callee args => do
    let args ← exprCodes s args
    match callee with
    | .associated name => do
      let name ← nameCode name
      pure (callCode (.word "Self" :: (colons ++ [name])) args)
    | .share => pure (callCode (sharedPath ++ Lexeme.rootPath ["new"]) args)
    | .selectActions => pure (callCode (s.item ["ui", "select_actions"]) args)
  | .method receiver name args => do
    let receiver ← exprCode s receiver
    let name ← nameCode name
    let args ← exprCodes s args
    pure (callCode (receiver ++ [dot, name]) args)
  | .construct fields => do
    let fields ← entryCodes s fields
    pure (.word "Self" :: Lexeme.group .curly (Lexeme.commaSeparated fields))

/-- **Code of expressions**, in order. -/
def exprCodes (s : Surroundings) : List Expr → Except CodeError (List (List Lexeme))
  | [] => pure []
  | e :: es => do
    let code ← exprCode s e
    let rest ← exprCodes s es
    pure (code :: rest)

/-- **Code of the entries** of a constructed value. An entry whose value is the variable of the same name is
written once. -/
def entryCodes (s : Surroundings) : List (String × Expr) → Except CodeError (List (List Lexeme))
  | [] => pure []
  | (name, value) :: rest => do
    let field ← nameCode name
    let isShort :=
      match value with
      | .var v => v == name
      | _ => false
    let code ←
      if isShort then pure [field]
      else do
        let value ← exprCode s value
        pure (field :: colon :: value)
    let rest ← entryCodes s rest
    pure (code :: rest)

end

/-! ## Statements -/

/-- **Code that installs a click handler** with a given body on an element. -/
def clickCode (s : Surroundings) (element : List Lexeme) (capturesTarget : Bool)
    (body : List Lexeme) : List Lexeme :=
  let set := Lexeme.word setName
  let target := Lexeme.word targetName
  let downgrade :=
    if capturesTarget then
      .word "let" :: target :: equals :: (callCode (sharedPath ++ Lexeme.rootPath ["downgrade"]) [[target]] ++
        [semicolon])
    else []
  let upgrade :=
    if capturesTarget then
      .word "let" :: (callCode presentPath [[target]] ++
        equals :: (callCode [target, dot, .word "upgrade"] [] ++
          .word "else" :: (Lexeme.group .curly [.word "return", semicolon] ++ [semicolon])))
    else []
  let handler :=
    .word "move" :: (Lexeme.marks ['|', '|'] ++ Lexeme.group .curly (upgrade ++ body))
  Lexeme.group .curly
    (.word "let" :: set :: equals :: (callCode (sharedPath ++ Lexeme.rootPath ["clone"]) [[set]] ++
      semicolon :: (downgrade ++ (s.item ["ui", "Clickable", "set_on_click"] ++
        (Lexeme.group .round
          (element ++ comma :: (callCode (Lexeme.rootPath ["std", "boxed", "Box", "new"]) [handler] ++
            [comma])) ++ [semicolon])))))

mutual

/-- **Code of a statement.** -/
def stmtCode (s : Surroundings) : Stmt → Except CodeError (List Lexeme)
  | .bind name isMutable value => do
    let name ← nameCode name
    let value ← exprCode s value
    let mode := if isMutable then [Lexeme.word "mut"] else []
    pure (.word "let" :: (mode ++ name :: equals :: (value ++ [semicolon])))
  | .eval value => do
    let value ← exprCode s value
    pure (value ++ [semicolon])
  | .cond condition thenBranch elseBranch => do
    let condition ← exprCode s condition
    let yes ← stmtCodes s thenBranch
    let no ← stmtCodes s elseBranch
    let otherwise := if elseBranch.isEmpty then [] else .word "else" :: Lexeme.group .curly no
    pure (.word "if" :: (condition ++ Lexeme.group .curly yes ++ otherwise))
  | .ifSome binding value body => do
    let binding ← nameCode binding
    let value ← exprCode s value
    let body ← stmtCodes s body
    pure (.word "if" :: .word "let" :: (callCode presentPath [[binding]] ++
      equals :: (value ++ Lexeme.group .curly body)))
  | .forEach binding iterable body => do
    let binding ← nameCode binding
    let iterable ← exprCode s iterable
    let body ← stmtCodes s body
    pure (.word "for" :: binding :: .word "in" :: (iterable ++ Lexeme.group .curly body))
  | .onClick element capturesTarget body => do
    let element ← exprCode s element
    let body ← stmtCodes s body
    pure (clickCode s element capturesTarget body)
  | .result value => exprCode s value

/-- **Code of statements**, in order. -/
def stmtCodes (s : Surroundings) : List Stmt → Except CodeError (List Lexeme)
  | [] => pure []
  | stmt :: rest => do
    let code ← stmtCode s stmt
    let rest ← stmtCodes s rest
    pure (code ++ rest)

end

/-! ## Units -/

/-- **Code of a field or parameter.** -/
def typedNameCode (s : Surroundings) (t : TypedName) : Except CodeError (List Lexeme) := do
  pure ((← nameCode t.name) :: colon :: typeCode s t.type)

/-- **Code of a method.** -/
def methodCode (s : Surroundings) (m : Method) : Except CodeError (List Lexeme) := do
  let name ← nameCode m.name
  let params ← m.params.mapM (typedNameCode s)
  let body ← stmtCodes s m.body
  let access := if m.isPublic then [Lexeme.word "pub"] else []
  let returns :=
    match m.returns with
    | some type => Lexeme.marks ['-', '>'] ++ typeCode s type
    | none => []
  pure (access ++ .word "fn" :: name :: (Lexeme.group .round (Lexeme.commaSeparated params) ++
    (returns ++ Lexeme.group .curly body)))

/-- **Code of a visibility.** -/
def visibilityCode : Visibility → List Lexeme
  | .inherited => []
  | .crate => .word "pub" :: Lexeme.group .round [.word "crate"]
  | .everywhere => [.word "pub"]

/-- **Attribute.** -/
def attributeCode (inside : List Lexeme) : List Lexeme :=
  .mark '#' false :: Lexeme.group .square inside

/-- **Code of a unit** inside its surroundings. -/
def bodyCode (unit : WiringUnit) (s : Surroundings) : Except CodeError (List Lexeme) := do
  let name ← nameCode unit.name
  let fields ← unit.fields.mapM (typedNameCode s)
  let methods ← unit.methods.mapM (methodCode s)
  pure
    (attributeCode (.word "doc" :: equals :: textCode unit.doc) ++
      attributeCode (callCode [.word "allow"] [[.word "dead_code"]]) ++
      visibilityCode unit.visibility ++
      .word "struct" :: name :: (Lexeme.group .curly (fields.flatMap (· ++ [comma])) ++
      attributeCode (callCode [.word "allow"] [[.word "dead_code"], [.word "unused_variables"]]) ++
      .word "impl" :: name :: Lexeme.group .curly methods.flatten))

/-- **Code of a unit** for a runtime. -/
def code (unit : WiringUnit) (runtimePath : String) : Except CodeError (List Lexeme) := do
  let runtime ← pathCode runtimePath
  let host ← pathCode unit.host
  unit.bodyCode ⟨runtimeCode runtime, host.code⟩

end WiringUnit

/-! ## Expansion -/

/-- **Errors of expansion**: the form breaks its contract, or a name cannot be written. -/
inductive ExpandError where
  | form (e : FormError)
  | code (e : CodeError)
  deriving DecidableEq, Repr

/-- **Wording** of an error. -/
def ExpandError.message : ExpandError → String
  | .form e => e.message
  | .code e => e.message

/-- **Code text of a form.** -/
def Form.expand (form : Form) (options : Options) : Except ExpandError String := do
  let unit ← (form.compile options).mapError .form
  let code ← (unit.code options.runtimePath).mapError .code
  pure (Lexeme.text code)

end FormWiring
