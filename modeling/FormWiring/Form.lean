import FormWiring.Text.Blank
import FormWiring.Rule
import FormWiring.Message

/-!
# Forms

A form is the declared side of a host type: its annotated fields in declaration order, the members that
trigger its two actions and its callbacks. `Form.check` is the contract every form meets before anything is
generated from it.
-/

set_option autoImplicit false

namespace FormWiring

/-! ## Types -/

/-- **Field** of a form: a member of the host with one rule and the choices common to all rules. -/
structure Field where
  name : String
  rule : Rule
  messageResource : Int32 := unsetResource
  messageText : String := ""
  autoDismiss : Bool := true
  deriving DecidableEq, Repr, Inhabited

namespace Field

/-- **Kind** of the field's rule. -/
def kind (f : Field) : RuleKind :=
  f.rule.kind

/-- **Message source** of the field. -/
def message (f : Field) : MessageSource :=
  .choose f.messageResource f.messageText

end Field

/-- **Visibility** of the host, which the generated unit repeats. -/
inductive Visibility where
  | inherited
  | crate
  | everywhere
  deriving DecidableEq, Repr, Inhabited

/-- **Arity of the error callback**: it takes nothing, or the list of errors. -/
inductive ErrorArity where
  | bare
  | withErrors
  deriving DecidableEq, Repr, Inhabited

/-- **Error callback** of a host. -/
structure ErrorCallback where
  method : String
  arity : ErrorArity := .bare
  deriving DecidableEq, Repr, Inhabited

/-- **Form**: all that is known about one host type. -/
structure Form where
  /-- Path of the host type, as written where it is used. -/
  host : String
  visibility : Visibility := .inherited
  fields : List Field := []
  validateAction : Option String := none
  clearAction : Option String := none
  onSuccess : String
  onError : Option ErrorCallback := none
  deriving DecidableEq, Repr, Inhabited

/-! ## Views -/

namespace Form

/-- **Field names**, in declaration order. -/
def fieldNames (form : Form) : List String :=
  form.fields.map Field.name

/-- **Declared actions**, the validating one first. -/
def actions (form : Form) : List String :=
  form.validateAction.toList ++ form.clearAction.toList

end Form

/-- **First field of a kind**, in declaration order. -/
def firstOfKind? (fields : List Field) (kind : RuleKind) : Option Field :=
  fields.find? fun f => f.kind == kind

/-- **First repetition**: the first entry that equals an earlier one, given the entries `seen` so far. -/
def firstRepeated? (seen : List String) : List String → Option String
  | [] => none
  | name :: rest => if name ∈ seen then some name else firstRepeated? (seen ++ [name]) rest

/-! ## The contract -/

/-- **Contract violations** of a form. -/
inductive FormError where
  | missingSuccessCallback (host : String)
  | duplicateField (host field : String)
  | actionIsValidated (field : String)
  deriving DecidableEq, Repr

/-- **Wording** of a violation. -/
def FormError.message : FormError → String
  | .missingSuccessCallback host => "`" ++ host ++ "` declares no success callback"
  | .duplicateField host field => "field `" ++ field ++ "` is declared twice in `" ++ host ++ "`"
  | .actionIsValidated field =>
    "action member `" ++ field ++ "` cannot also carry a validation rule"

/-- **Contract of a form**: a success callback, distinct field names, and actions that are not fields; the
first violation in this order is reported. -/
def Form.check (form : Form) : Except FormError Unit :=
  if Text.isBlankText form.onSuccess then
    .error (.missingSuccessCallback form.host)
  else
    match firstRepeated? [] form.fieldNames with
    | some name => .error (.duplicateField form.host name)
    | none =>
      match form.actions.find? fun action => action ∈ form.fieldNames with
      | some action => .error (.actionIsValidated action)
      | none => .ok ()

end FormWiring
