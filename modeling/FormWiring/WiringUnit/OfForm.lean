import FormWiring.WiringUnit

/-!
# The wiring unit of a form

The unit holds the validator set in a private field, builds and wires everything in a private `new`, and
offers one entry point, `init`. In the direct variant `new` adds one validator a descriptor; in the
reflective variant it collects validators and action elements from the view tree.
-/

set_option autoImplicit false

namespace FormWiring

namespace WiringUnit

/-! ## Names -/

/-- **Name of the validator set**, as a field, a variable and a parameter. -/
def setName : String := "validator_set"

/-- **Name of the host** inside the unit. -/
def targetName : String := "target"

/-- **Name of the binding** inside the unit. -/
def bindingName : String := "binding"

/-- **Name of the element** a listener is installed on. -/
def buttonName : String := "button"

/-- **Name of the validating listener.** -/
def validateListenerName : String := "validate_on_click_listener"

/-- **Name of the clearing listener.** -/
def clearListenerName : String := "clear_validations_on_click_listener"

/-! ## Pieces -/

/-- **Validator set** as an expression. -/
def setVar : Expr := .var setName

/-- **Host** as an expression. -/
def targetVar : Expr := .var targetName

/-- **Binding** as an expression. -/
def bindingVar : Expr := .var bindingName

/-- **Argument** of a validator as an expression. -/
def argExpr : Arg → Expr
  | .bool value => .bool value
  | .int value => .int value
  | .text value => .text value
  | .message source => .message source

/-- **Construction of a validator**: its inputs, its message, its remaining arguments. -/
def validatorExpr (d : Descriptor) : Expr :=
  .newValidator d.kind (d.targets.map .input ++ .message d.message :: d.args.map argExpr)

/-- **Addition of a validator** to the set. -/
def addValidator (d : Descriptor) : Stmt :=
  .eval (.method setVar "add_validator" [validatorExpr d])

/-- **Sharing of the set**, once it is complete. -/
def shareSet : Stmt :=
  .bind setName false (.call .share [setVar])

/-- **Value of the unit.** -/
def constructSelf : Stmt :=
  .result (.construct [(setName, setVar)])

/-- **Wiring of the validating listener** to an element. -/
def wireValidate (element : Expr) : Stmt :=
  .eval (.call (.associated validateListenerName) [.ref setVar, .ref element, targetVar])

/-- **Wiring of the clearing listener** to an element. -/
def wireClear (element : Expr) : Stmt :=
  .eval (.call (.associated clearListenerName) [.ref setVar, .ref element])

/-! ## Constructors -/

/-- **Direct constructor**: one validator a descriptor, then the declared actions. -/
def directConstructor (form : Form) (descriptors : List Descriptor) : Method where
  name := "new"
  isPublic := false
  params := [⟨targetName, .hostRef⟩]
  returns := some .selfType
  body :=
    .bind setName (!descriptors.isEmpty) .newSet ::
      (descriptors.map addValidator ++
        shareSet ::
          (form.validateAction.toList.map (fun member => wireValidate (.field targetVar member)) ++
            (form.clearAction.toList.map (fun member => wireClear (.field targetVar member)) ++
              [constructSelf])))

/-- **Reflective constructor**: validators and action elements come from the view tree. -/
def reflectiveConstructor : Method where
  name := "new"
  isPublic := false
  params := [⟨targetName, .hostRef⟩, ⟨bindingName, .dataBindingRef⟩]
  returns := some .selfType
  body :=
    [ .cond (.method bindingVar "has_pending_bindings" [])
        [.eval (.method bindingVar "execute_pending_bindings" [])] [],
      .bind setName true .newSet,
      .bind "views" false (.method (.method bindingVar "root" []) "validation_views" []),
      .bind "buttons" false (.method (.method bindingVar "root" []) "action_views" []),
      .forEach "view" (.var "views")
        [.eval (.method setVar "add_validators" [.method (.var "view") "validators" []])],
      .bind "actions" false (.call .selectActions [.ref (.var "buttons")]),
      shareSet,
      .ifSome "validate_button" (.field (.var "actions") "validate")
        [wireValidate (.var "validate_button")],
      .ifSome "clear_button" (.field (.var "actions") "clear")
        [wireClear (.var "clear_button")],
      constructSelf ]

/-! ## Listeners and entry point -/

/-- **Reaction to errors**: the error callback, with the errors when it takes them. -/
def errorReaction (form : Form) : List Stmt :=
  match form.onError with
  | none => []
  | some ⟨method, .bare⟩ => [.eval (.method targetVar method [])]
  | some ⟨method, .withErrors⟩ => [.eval (.method targetVar method [.ref (.method setVar "errors" [])])]

/-- **Validating listener**: on a click, evaluates the set and calls back. -/
def validateListener (form : Form) : Method where
  name := validateListenerName
  isPublic := false
  params := [⟨setName, .sharedValidatorSetRef⟩, ⟨buttonName, .clickableRef⟩, ⟨targetName, .hostRef⟩]
  returns := none
  body :=
    [ .onClick (.var buttonName) true
        [ .cond (.method setVar "is_valid" [])
            [.eval (.method targetVar form.onSuccess [])] (errorReaction form) ] ]

/-- **Clearing listener**: on a click, clears what the validators show. -/
def clearListener : Method where
  name := clearListenerName
  isPublic := false
  params := [⟨setName, .sharedValidatorSetRef⟩, ⟨buttonName, .clickableRef⟩]
  returns := none
  body := [.onClick (.var buttonName) false [.eval (.method setVar "clear_validators" [])]]

/-- **Entry point**, with or without a binding. -/
def entryPoint (withBinding : Bool) : Method where
  name := "init"
  isPublic := true
  params :=
    ⟨targetName, .hostRef⟩ :: if withBinding then [⟨bindingName, .dataBindingRef⟩] else []
  returns := none
  body :=
    [.eval (.call (.associated "new") (targetVar :: if withBinding then [bindingVar] else []))]

/-! ## The unit -/

/-- **Methods of the direct variant.** -/
def directMethods (form : Form) (descriptors : List Descriptor) : List Method :=
  directConstructor form descriptors ::
    ((if form.validateAction.isSome then [validateListener form] else []) ++
      ((if form.clearAction.isSome then [clearListener] else []) ++ [entryPoint false]))

/-- **Methods of the reflective variant.** -/
def reflectiveMethods (form : Form) : List Method :=
  [reflectiveConstructor, validateListener form, clearListener, entryPoint true]

/-- **Unit of a form** with given descriptors. -/
def ofForm (form : Form) (descriptors : List Descriptor) (options : Options) : WiringUnit where
  doc := "Validation wiring for `" ++ form.host ++ "`. Generated by formwire, do not modify."
  name := form.unitName options
  host := form.host
  visibility := form.visibility
  variant := form.variant options
  fields := [⟨setName, .sharedValidatorSet⟩]
  methods :=
    match form.variant options with
    | .direct => directMethods form descriptors
    | .reflective => reflectiveMethods form

end WiringUnit

/-- **Unit of a form** that meets its contract. -/
def Form.compile (form : Form) (options : Options) : Except FormError WiringUnit := do
  form.check
  pure (.ofForm form form.descriptors options)

end FormWiring
