import FormWiring.Execution.World
import FormWiring.WiringUnit.OfForm

/-!
# Running wiring units

An evaluator of the small language of wiring units. Running the entry point builds the validators, wires the
elements and leaves the handlers behind; a click runs a handler. Evaluation fails on a unit that means nothing,
such as one that calls a method it does not have.

Methods call each other to a depth that is a parameter; compiled units need two calls.

Main definitions: `invoke`, `World.init`, `World.click`.
-/

set_option autoImplicit false

namespace FormWiring.Execution

/-! ## Evaluation -/

/-- **Evaluation** with a world, which may fail. -/
abbrev Eval (α : Type) : Type :=
  StateT World Option α

/-- **Failure.** -/
def stuck {α : Type} : Eval α :=
  fun _ => none

/-- **Variables** in scope. -/
abbrev Scope : Type := List (String × Value)

/-- **What evaluation takes from outside**: resource texts and the methods of the unit. -/
structure Context where
  lookup : Int32 → String
  invoke : String → List Value → Eval Value

/-! ## Values -/

/-- **Argument of a validator**, if the value can be one. -/
def argument? : Value → Option Validator.Argument
  | .bool value => some (.bool value)
  | .int value => some (.int value)
  | .text value => some (.text value)
  | _ => none

/-- **Inputs at the front** of arguments, and the other arguments. -/
def splitInputs : List Value → List String × List Value
  | .input name :: rest =>
    let (names, others) := splitInputs rest
    (name :: names, others)
  | rest => ([], rest)

/-- **Construction of a validator**: it is bound to the screen at once. -/
def construct (kind : ValidatorKind) (args : List Value) : Eval Value := do
  let (targets, rest) := splitInputs args
  match rest with
  | .text message :: rest =>
    match (rest.mapM argument?).bind (Validator.build? kind targets message) with
    | some v =>
      modify fun w => { w with screen := v.attach w.screen, log := w.log ++ v.buildLog }
      pure (.validator v)
    | none => stuck
  | _ => stuck

/-- **Selection of the action elements** among elements. -/
def select (roles : List (Option Action)) : Eval Value := do
  let (selected, reads) := selectActions roles
  modify fun w => { w with tree := { w.tree with reads := reads } }
  pure (.actions selected)

/-- **Method of a validator set.** -/
def callSet (name : String) (args : List Value) : Eval Value :=
  match name, args with
  | "add_validator", [.validator v] => do
    modify fun w => { w with set := w.set.add v }
    pure .nothing
  | "add_validators", [.validators vs] => do
    modify fun w => { w with set := w.set.addAll vs }
    pure .nothing
  | "is_valid", [] => do
    let w ← get
    let (valid, screen, set) := w.set.evaluate w.screen
    MonadStateOf.set { w with screen := screen, set := set, log := w.log ++ [set.evaluationLog valid] }
    pure (.bool valid)
  | "errors", [] => do pure (.texts (← get).set.errors)
  | "clear_validators", [] => do
    let w ← get
    let (screen, set) := w.set.clear w.screen
    MonadStateOf.set { w with screen := screen, set := set }
    pure .nothing
  | _, _ => stuck

/-- **Method of a binding.** -/
def callBinding (name : String) : Eval Value := do
  let w ← get
  match name with
  | "has_pending_bindings" => pure (.bool w.tree.pending)
  | "execute_pending_bindings" =>
    MonadStateOf.set
      { w with tree := { w.tree with pending := false, executions := w.tree.executions + 1 } }
    pure .nothing
  | "root" => pure .root
  | _ => stuck

/-- **Method of the root** of a view tree. -/
def callRoot (name : String) : Eval Value := do
  let w ← get
  match name with
  | "validation_views" => pure (.views w.tree.views)
  | "action_views" => pure (.elements w.tree.roles)
  | _ => stuck

/-- **Callback** to the host. -/
def callHost (name : String) (args : List Value) : Eval Value := do
  match args with
  | [] =>
    modify fun w => { w with calls := w.calls ++ [⟨name, none⟩] }
    pure .nothing
  | [.texts errors] =>
    modify fun w => { w with calls := w.calls ++ [⟨name, some errors⟩] }
    pure .nothing
  | _ => stuck

/-- **Method of a value.** -/
def callMethod (receiver : Value) (name : String) (args : List Value) : Eval Value :=
  match receiver, args with
  | .set, args => callSet name args
  | .host, args => callHost name args
  | .binding, [] => callBinding name
  | .root, [] => callRoot name
  | .validators vs, [] => if name = "validators" then pure (.validators vs) else stuck
  | _, _ => stuck

/-- **Field of a value**: a member of the host, or one of the selected elements. -/
def fieldOf (base : Value) (name : String) : Eval Value :=
  match base, name with
  | .host, name => pure (.element (.member name))
  | .actions selected, "validate" => pure (.optional (selected.validate.map .view))
  | .actions selected, "clear" => pure (.optional (selected.clear.map .view))
  | _, _ => stuck

/-! ## Expressions -/

mutual

/-- **Value of an expression.** -/
def evalExpr (c : Context) (scope : Scope) : Expr → Eval Value
  | .var name =>
    match scope.lookup name with
    | some value => pure value
    | none => stuck
  | .field base name => do fieldOf (← evalExpr c scope base) name
  | .bool value => pure (.bool value)
  | .int value => pure (.int value)
  | .text value => pure (.text value)
  | .message source => pure (.text (source.text c.lookup))
  | .input member => pure (.input member)
  | .ref inner => evalExpr c scope inner
  | .newSet => do
    modify fun w => { w with set := {} }
    pure .set
  | .newValidator kind args => do construct kind (← evalExprs c scope args)
  | .call callee args => do
    let args ← evalExprs c scope args
    match callee, args with
    | .associated name, args => c.invoke name args
    | .share, [value] => pure value
    | .selectActions, [.elements roles] => select roles
    | _, _ => stuck
  | .method receiver name args => do
    let receiver ← evalExpr c scope receiver
    let args ← evalExprs c scope args
    callMethod receiver name args
  | .construct fields => do
    evalEntries c scope fields
    pure .unit

/-- **Values of expressions**, in order. -/
def evalExprs (c : Context) (scope : Scope) : List Expr → Eval (List Value)
  | [] => pure []
  | e :: es => do
    let value ← evalExpr c scope e
    let values ← evalExprs c scope es
    pure (value :: values)

/-- **Entries of a constructed value**, for their effects. -/
def evalEntries (c : Context) (scope : Scope) : List (String × Expr) → Eval Unit
  | [] => pure ()
  | (_, e) :: rest => do
    let _ ← evalExpr c scope e
    evalEntries c scope rest

end

/-! ## Statements -/

/-- **Values that a loop runs over.** -/
def iterated : Value → Eval (List Value)
  | .views views => pure (views.map .validators)
  | _ => stuck

mutual

/-- **Statement**: the scope after it and its value. -/
def runStmt (c : Context) (scope : Scope) : Stmt → Eval (Scope × Value)
  | .bind name _ value => do
    let value ← evalExpr c scope value
    pure ((name, value) :: scope, .nothing)
  | .eval value => do
    let _ ← evalExpr c scope value
    pure (scope, .nothing)
  | .cond condition thenBranch elseBranch => do
    match ← evalExpr c scope condition with
    | .bool true =>
      let _ ← runBlock c scope thenBranch
      pure (scope, .nothing)
    | .bool false =>
      let _ ← runBlock c scope elseBranch
      pure (scope, .nothing)
    | _ => stuck
  | .ifSome binding value body => do
    match ← evalExpr c scope value with
    | .optional (some e) =>
      let _ ← runBlock c ((binding, .element e) :: scope) body
      pure (scope, .nothing)
    | .optional none => pure (scope, .nothing)
    | _ => stuck
  | .forEach binding iterable body => do
    let values ← iterated (← evalExpr c scope iterable)
    values.forM fun value => do
      let _ ← runBlock c ((binding, value) :: scope) body
    pure (scope, .nothing)
  | .onClick element capturesTarget body => do
    match ← evalExpr c scope element with
    | .element e =>
      modify fun w => w.install e ⟨capturesTarget, body⟩
      pure (scope, .nothing)
    | _ => stuck
  | .result value => do
    let value ← evalExpr c scope value
    pure (scope, value)

/-- **Statements in order**: the value of the last. -/
def runBlock (c : Context) (scope : Scope) : List Stmt → Eval Value
  | [] => pure .nothing
  | [stmt] => do
    let (_, value) ← runStmt c scope stmt
    pure value
  | stmt :: rest => do
    let (scope, _) ← runStmt c scope stmt
    runBlock c scope rest

end

/-! ## Methods -/

/-- **Call of a method of a unit**, with calls below it to a depth. -/
def invoke (unit : WiringUnit) (lookup : Int32 → String) : Nat → String → List Value → Eval Value
  | 0, _, _ => stuck
  | depth + 1, name, args =>
    match unit.method? name with
    | some method =>
      if method.params.length = args.length then
        runBlock ⟨lookup, invoke unit lookup depth⟩ ((method.params.map TypedName.name).zip args) method.body
      else stuck
    | none => stuck

/-- **Depth of calls** that a unit may need: one more than it has methods. -/
def callDepth (unit : WiringUnit) : Nat :=
  unit.methods.length + 1

namespace World

/-- **World after the entry point** of a unit has run; a reflective unit is given the binding too. -/
def init? (unit : WiringUnit) (lookup : Int32 → String) (w : World) : Option World :=
  let args : List Value :=
    match unit.variant with
    | .direct => [.host]
    | .reflective => [.host, .binding]
  ((invoke unit lookup (callDepth unit) "init" args).run w).map (·.2)

/-- **Scope of a handler**: the validator set, and the host when it is captured. -/
def handlerScope (h : Handler) : Scope :=
  (WiringUnit.setName, .set) :: if h.capturesTarget then [(WiringUnit.targetName, .host)] else []

/-- **Click** on an element: whether it has a handler, and the world after it has run. A handler that needs the
host does nothing once the host is gone. -/
def click? (unit : WiringUnit) (lookup : Int32 → String) (w : World) (e : Element) : Option (Bool × World) :=
  match w.handler? e with
  | none => some (false, w)
  | some h =>
    if h.capturesTarget && !w.hostAlive then some (true, w)
    else
      ((runBlock ⟨lookup, invoke unit lookup (callDepth unit)⟩ (handlerScope h) h.body).run w).map
        fun (_, w) => (true, w)

/-- **A text is entered.** -/
def enter (w : World) (input text : String) : World :=
  { w with screen := w.screen.enter input text }

/-- **The host is dropped**; its inputs and elements live on. -/
def dropHost (w : World) : World :=
  { w with hostAlive := false }

end World

end FormWiring.Execution
