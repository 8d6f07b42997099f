import FormWiring.Plan

/-!
# Wiring units

The generated type of a form, as a tree: its private fields and its methods, over a small language of
statements and expressions. The tree is what printing and execution start from.
-/

set_option autoImplicit false

namespace FormWiring

/-! ## Expressions -/

/-- **Types** that generated code mentions. -/
inductive TypeRef where
  /-- The unit itself. -/
  | selfType
  /-- A shared reference to the host. -/
  | hostRef
  /-- A shared validator set. -/
  | sharedValidatorSet
  /-- A reference to a shared validator set. -/
  | sharedValidatorSetRef
  /-- A reference to something that can be clicked. -/
  | clickableRef
  /-- A reference to the binding of a view tree. -/
  | dataBindingRef
  deriving DecidableEq, Repr, Inhabited

/-- **Functions** that generated code calls. -/
inductive Callee where
  /-- A function of the unit itself. -/
  | associated (name : String)
  /-- Sharing of a value. -/
  | share
  /-- Selection of the action elements. -/
  | selectActions
  deriving DecidableEq, Repr, Inhabited

/-- **Expressions.** -/
inductive Expr where
  | var (name : String)
  | field (base : Expr) (name : String)
  | bool (value : Bool)
  | int (value : Int64)
  | text (value : String)
  /-- An error text: quoted, or looked up on the host. -/
  | message (source : MessageSource)
  /-- The input handle of a member of the host. -/
  | input (member : String)
  | ref (inner : Expr)
  /-- An empty validator set. -/
  | newSet
  | newValidator (kind : ValidatorKind) (args : List Expr)
  | call (callee : Callee) (args : List Expr)
  | method (receiver : Expr) (name : String) (args : List Expr)
  /-- A value of the unit's own type. -/
  | construct (fields : List (String × Expr))
  deriving Repr, Inhabited

/-! ## Statements -/

/-- **Statements.** -/
inductive Stmt where
  | bind (name : String) (isMutable : Bool) (value : Expr)
  | eval (value : Expr)
  | cond (condition : Expr) (thenBranch elseBranch : List Stmt)
  /-- Runs the body with the value bound, if there is one. -/
  | ifSome (binding : String) (value : Expr) (body : List Stmt)
  | forEach (binding : String) (iterable : Expr) (body : List Stmt)
  /-- Installs the body as the click handler of an element. The handler holds the validator set, and the
  host weakly when `capturesTarget` is set. -/
  | onClick (element : Expr) (capturesTarget : Bool) (body : List Stmt)
  /-- The value of the block. -/
  | result (value : Expr)
  deriving Repr, Inhabited

/-! ## Units -/

/-- **Named type**: a field or a parameter. -/
structure TypedName where
  name : String
  type : TypeRef
  deriving DecidableEq, Repr, Inhabited

/-- **Method** of a unit. -/
structure Method where
  name : String
  isPublic : Bool
  params : List TypedName
  returns : Option TypeRef
  body : List Stmt
  deriving Repr, Inhabited

/-- **Wiring unit** of a host type. -/
structure WiringUnit where
  doc : String
  name : String
  host : String
  visibility : Visibility
  variant : Variant
  fields : List TypedName
  methods : List Method
  deriving Repr, Inhabited

namespace WiringUnit

/-- **Method of a name**, if the unit has one. -/
def method? (unit : WiringUnit) (name : String) : Option Method :=
  unit.methods.find? fun m => m.name == name

/-- **Entry points**: the methods that others may call. -/
def publicMethods (unit : WiringUnit) : List Method :=
  unit.methods.filter Method.isPublic

end WiringUnit

end FormWiring
