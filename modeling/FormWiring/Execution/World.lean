import FormWiring.Action
import FormWiring.ValidatorSet
import FormWiring.WiringUnit

/-!
# The world of a running unit

What a wiring unit acts on: the screen, the validator set it makes, the click handlers it installs, the host it
calls back, and the view tree it may be bound to.
-/

set_option autoImplicit false

namespace FormWiring.Execution

/-! ## Types -/

/-- **Elements** that can be clicked: members of the host, or elements of the view tree. -/
inductive Element where
  | member (name : String)
  | view (index : Nat)
  deriving DecidableEq, Repr

/-- **Click handler**: what it runs, and whether it needs the host alive. -/
structure Handler where
  capturesTarget : Bool
  body : List Stmt
  deriving Repr, Inhabited

/-- **Call back** to the host, with the errors when it takes them. -/
structure Call where
  method : String
  errors : Option (List String)
  deriving DecidableEq, Repr

/-- **View tree** that a host may be bound to: the validators of its views, the roles of its elements, and
bindings that wait to be executed. -/
structure BoundTree where
  views : List (List Validator) := []
  roles : List (Option Action) := []
  pending : Bool := false
  /-- How often pending bindings were executed. -/
  executions : Nat := 0
  /-- How often the role of each element was read. -/
  reads : List Nat := []
  deriving DecidableEq, Repr, Inhabited

/-- **World** of a running unit. -/
structure World where
  screen : Screen := {}
  set : ValidatorSet := {}
  handlers : List (Element × Handler) := []
  hostAlive : Bool := true
  calls : List Call := []
  tree : BoundTree := {}
  log : List LogRecord := []
  deriving Repr, Inhabited

/-- **Values** of expressions. -/
inductive Value where
  | nothing
  | bool (value : Bool)
  | int (value : Int64)
  | text (value : String)
  | texts (values : List String)
  | host
  | element (e : Element)
  | input (name : String)
  /-- The validator set of the unit. -/
  | set
  | validator (v : Validator)
  | validators (vs : List Validator)
  | binding
  | root
  | views (views : List (List Validator))
  | elements (roles : List (Option Action))
  | actions (selected : SelectedActions)
  | optional (e : Option Element)
  /-- The unit itself. -/
  | unit
  deriving DecidableEq, Repr, Inhabited

/-- **Handler of an element**, if it has one. -/
def World.handler? (w : World) (e : Element) : Option Handler :=
  w.handlers.lookup e

/-- **World with a handler installed**, which replaces the element's old one. -/
def World.install (w : World) (e : Element) (h : Handler) : World :=
  { w with handlers := (e, h) :: w.handlers.filter fun entry => entry.1 ≠ e }

end FormWiring.Execution
