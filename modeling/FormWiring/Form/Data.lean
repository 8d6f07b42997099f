import FormWiring.Form
import FormWiring.Datum.Dialect

/-!
# Forms as data

The written model of a form. Reading accepts a model with parts left out where they have a default, and
ignores keys it does not know, the parameters of other rules among them. Writing gives every part, and of a
rule its own parameters only.
-/

set_option autoImplicit false

namespace FormWiring

/-! ## Named choices -/

/-- **Written name** of a visibility. -/
def Visibility.name : Visibility → String
  | .inherited => "inherited"
  | .crate => "crate"
  | .everywhere => "public"

/-- **Visibility of a name**, if it is one. -/
def Visibility.ofName? : String → Option Visibility
  | "inherited" => some .inherited
  | "crate" => some .crate
  | "public" => some .everywhere
  | _ => none

/-- **Written name** of an arity. -/
def ErrorArity.name : ErrorArity → String
  | .bare => "none"
  | .withErrors => "errors"

/-- **Arity of a name**, if it is one. -/
def ErrorArity.ofName? : String → Option ErrorArity
  | "none" => some .bare
  | "errors" => some .withErrors
  | _ => none

/-- **Kind from a rule tag**: its name, or in JSON its number. -/
def RuleKind.ofTag? (dialect : Dialect) : Datum → Option RuleKind
  | .text name => RuleKind.ofAttributeName? name
  | .int n => if dialect = .json ∧ 0 ≤ n then RuleKind.all[n.toNat]? else none
  | _ => none

/-! ## Reading -/

/-- **Rule of a kind**, its parameters taken from the entries of the field. -/
def Rule.ofParts? (get : String → Option Datum) (kind : RuleKind) : Option Rule :=
  let flag := Datum.partOr (get "required") true Datum.toBool?
  let text := fun name : String => (get name).bind Datum.toText?
  let bound := fun name : String => Datum.partOr (get name) 0 Datum.toInt64?
  match kind with
  | .required => some .required
  | .email => flag.map .email
  | .confirmEmail => some .confirmEmail
  | .pattern => do pure (.pattern (← text "pattern") (← flag))
  | .length => do pure (.length (← bound "min") (← bound "max") (← flag))
  | .onlyNumber => flag.map .onlyNumber
  | .password => do
    pure (.password (← bound "min") (← Datum.partOr (get "pattern") "" Datum.toText?))
  | .confirmPassword => some .confirmPassword
  | .cpf => flag.map .cpf
  | .cnpj => flag.map .cnpj
  | .isbn => flag.map .isbn
  | .betweenStart => some .betweenStart
  | .betweenLimit => some .betweenLimit
  | .creditCard => flag.map .creditCard
  | .numericLimit => do pure (.numericLimit (← text "min") (← text "max") (← flag))
  | .ipv4 => flag.map .ipv4
  | .ipv6 => flag.map .ipv6
  | .url => flag.map .url
  | .pastDate => do pure (.pastDate (← text "date_format") (← text "limit_date") (← flag))
  | .futureDate => do pure (.futureDate (← text "date_format") (← text "limit_date") (← flag))

/-- **Field from data**: always a record, since it holds the parameters of its rule. -/
def Field.ofDatum? (dialect : Dialect) (d : Datum) : Option Field := do
  let entries ← d.toEntries?
  let get := fun name => Datum.entry? name entries
  let name ← (get "name").bind Datum.toText?
  let kind ← (get "rule").bind (RuleKind.ofTag? dialect)
  let rule ← Rule.ofParts? get kind
  let resource ← Datum.partOr (get "error_message_res") unsetResource Datum.toInt32?
  let text ← Datum.partOr (get "error_message") "" Datum.toText?
  let autoDismiss ← Datum.partOr (get "auto_dismiss") true Datum.toBool?
  pure ⟨name, rule, resource, text, autoDismiss⟩

/-- **Error callback from data.** -/
def ErrorCallback.ofDatum? (dialect : Dialect) (d : Datum) : Option ErrorCallback := do
  let get ← d.toParts? dialect ["method", "arity"]
  let method ← (get "method").bind Datum.toText?
  let arity ← Datum.partOr (get "arity") .bare fun d => (d.toChoice? dialect).bind ErrorArity.ofName?
  pure ⟨method, arity⟩

/-- **Form from data.** -/
def Form.ofDatum? (dialect : Dialect) (d : Datum) : Option Form := do
  let get ← d.toParts? dialect
    ["name", "visibility", "fields", "validate_action", "clear_action", "on_success", "on_error"]
  let host ← (get "name").bind Datum.toText?
  let visibility ← Datum.partOr (get "visibility") .inherited fun d =>
    (d.toChoice? dialect).bind Visibility.ofName?
  let fields ← Datum.partOr (get "fields") [] fun d =>
    d.toItems?.bind fun items => items.mapM (Field.ofDatum? dialect)
  let validateAction ← Datum.partOr (get "validate_action") none (Datum.toOptional? dialect Datum.toText?)
  let clearAction ← Datum.partOr (get "clear_action") none (Datum.toOptional? dialect Datum.toText?)
  let onSuccess ← (get "on_success").bind Datum.toText?
  let onError ← Datum.partOr (get "on_error") none
    (Datum.toOptional? dialect (ErrorCallback.ofDatum? dialect))
  pure ⟨host, visibility, fields, validateAction, clearAction, onSuccess, onError⟩

/-! ## Writing -/

/-- **Parameters of a rule** as entries. -/
def Rule.toEntries : Rule → List (String × Datum)
  | .required | .confirmEmail | .confirmPassword | .betweenStart | .betweenLimit => []
  | .email needed | .onlyNumber needed | .cpf needed | .cnpj needed | .isbn needed
  | .creditCard needed | .ipv4 needed | .ipv6 needed | .url needed =>
    [("required", .bool needed)]
  | .pattern regex needed => [("pattern", .text regex), ("required", .bool needed)]
  | .length min max needed =>
    [("min", .int min.toInt), ("max", .int max.toInt), ("required", .bool needed)]
  | .password min regex => [("min", .int min.toInt), ("pattern", .text regex)]
  | .numericLimit min max needed =>
    [("min", .text min), ("max", .text max), ("required", .bool needed)]
  | .pastDate dateFormat limitDate needed | .futureDate dateFormat limitDate needed =>
    [("date_format", .text dateFormat), ("limit_date", .text limitDate), ("required", .bool needed)]

/-- **Field as data.** -/
def Field.toDatum (f : Field) : Datum :=
  .record (("name", .text f.name) :: ("rule", .text f.kind.attributeName) :: (f.rule.toEntries ++
    [("error_message_res", .int f.messageResource.toInt), ("error_message", .text f.messageText),
      ("auto_dismiss", .bool f.autoDismiss)]))

/-- **Error callback as data.** -/
def ErrorCallback.toDatum (c : ErrorCallback) : Datum :=
  .record [("method", .text c.method), ("arity", .text c.arity.name)]

/-- **Text that may be missing, as data.** -/
def Datum.ofText? : Option String → Datum
  | some s => .text s
  | none => .null

/-- **Form as data.** -/
def Form.toDatum (form : Form) : Datum :=
  .record
    [("name", .text form.host), ("visibility", .text form.visibility.name),
      ("fields", .list (form.fields.map Field.toDatum)),
      ("validate_action", .ofText? form.validateAction), ("clear_action", .ofText? form.clearAction),
      ("on_success", .text form.onSuccess),
      ("on_error", match form.onError with
        | some callback => callback.toDatum
        | none => .null)]

end FormWiring
