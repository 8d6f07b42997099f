import FormWiring.Derive.Options
import FormWiring.Action

/-!
# Roles of host fields

A field of a host is validated by the one rule its attributes declare, or it is one of the two actions, or it
plays no part. Rule attributes carry options; an option of the wrong name or type is an error, and so is a
mandatory one that is missing.
-/

set_option autoImplicit false

namespace FormWiring

open Code

/-! ## Integers -/

/-- **Integer of 64 bits** of a decimal text, if it is one. -/
def decimalInt64? (s : String) : Option Int64 :=
  (Text.decimalInteger? s).bind fun n =>
    if Int64.minValue.toInt ≤ n ∧ n ≤ Int64.maxValue.toInt then some (Int64.ofInt n) else none

/-- **Integer of 32 bits** of a decimal text, if it is one. -/
def decimalInt32? (s : String) : Option Int32 :=
  (Text.decimalInteger? s).bind fun n =>
    if Int32.minValue.toInt ≤ n ∧ n ≤ Int32.maxValue.toInt then some (Int32.ofInt n) else none

/-! ## Options of a rule -/

/-- **Options of a rule** as given; of a repeated option the last one counts. -/
structure RuleOptions where
  errorMessage : Option String := none
  errorMessageRes : Option Int32 := none
  autoDismiss : Option Bool := none
  required : Option Bool := none
  pattern : Option String := none
  min : Option String := none
  max : Option String := none
  dateFormat : Option String := none
  limitDate : Option String := none
  deriving DecidableEq, Repr, Inhabited

/-- **Options of every rule.** -/
def commonOptions : List String :=
  ["error_message", "error_message_res", "auto_dismiss"]

namespace RuleOptions

/-- **Options after one more** of a given name. -/
def read (kind : RuleKind) (o : RuleOptions) (name : String) : OptionReader RuleOptions :=
  match name with
  | "error_message" => do pure { o with errorMessage := some (← OptionReader.textValue) }
  | "error_message_res" => do
    match decimalInt32? (← OptionReader.numberValue) with
    | some id => pure { o with errorMessageRes := some id }
    | none => throw .resourceNotInteger
  | "auto_dismiss" => do pure { o with autoDismiss := some (← OptionReader.truthValue) }
  | "required" => do pure { o with required := some (← OptionReader.truthValue) }
  | "pattern" => do pure { o with pattern := some (← OptionReader.textValue) }
  | "min" => do pure { o with min := some (← OptionReader.numberValue) }
  | "max" => do pure { o with max := some (← OptionReader.numberValue) }
  | "date_format" => do pure { o with dateFormat := some (← OptionReader.textValue) }
  | "limit_date" => do pure { o with limitDate := some (← OptionReader.textValue) }
  | _ => throw (.unsupportedOption kind name)

/-- **Options after one more**, if the kind accepts it. -/
def step (kind : RuleKind) (o : RuleOptions) (name : Option String) : OptionReader RuleOptions :=
  match name with
  | none => throw .expectedOptionName
  | some name =>
    if commonOptions.contains name || kind.options.contains name then read kind o name
    else throw (.unsupportedOption kind name)

/-- **Mandatory option.** -/
def demand (kind : RuleKind) (option : String) (value : Option String) : Except DeriveError String :=
  match value with
  | some s => .ok s
  | none => .error (.missingOption kind option)

/-- **Integer bound**, zero when it is not given. -/
def bound (value : Option String) : Except DeriveError Int64 :=
  match value with
  | none => .ok 0
  | some s =>
    match decimalInt64? s with
    | some n => .ok n
    | none => .error .notAnInteger

/-- **Rule of a kind** with these options. -/
def toRule (o : RuleOptions) (kind : RuleKind) : Except DeriveError Rule := do
  let required := o.required.getD true
  match kind with
  | .required => pure .required
  | .email => pure (.email required)
  | .confirmEmail => pure .confirmEmail
  | .pattern => pure (.pattern (← demand kind "pattern" o.pattern) required)
  | .length => pure (.length (← bound o.min) (← bound o.max) required)
  | .onlyNumber => pure (.onlyNumber required)
  | .password => pure (.password (← bound o.min) (o.pattern.getD ""))
  | .confirmPassword => pure .confirmPassword
  | .cpf => pure (.cpf required)
  | .cnpj => pure (.cnpj required)
  | .isbn => pure (.isbn required)
  | .betweenStart => pure .betweenStart
  | .betweenLimit => pure .betweenLimit
  | .creditCard => pure (.creditCard required)
  | .numericLimit =>
    pure (.numericLimit (← demand kind "min" o.min) (← demand kind "max" o.max) required)
  | .ipv4 => pure (.ipv4 required)
  | .ipv6 => pure (.ipv6 required)
  | .url => pure (.url required)
  | .pastDate =>
    pure (.pastDate (← demand kind "date_format" o.dateFormat) (← demand kind "limit_date" o.limitDate)
      required)
  | .futureDate =>
    pure (.futureDate (← demand kind "date_format" o.dateFormat)
      (← demand kind "limit_date" o.limitDate) required)

/-- **Field of a name** with a rule of a kind and these options. -/
def toField (o : RuleOptions) (name : String) (kind : RuleKind) : Except DeriveError Field := do
  let rule ← o.toRule kind
  pure ⟨name, rule, o.errorMessageRes.getD unsetResource, o.errorMessage.getD "", o.autoDismiss.getD true⟩

end RuleOptions

/-- **Validated field** of a name, from one rule attribute. -/
def Field.ofAttribute (name : String) (kind : RuleKind) (body : AttributeBody) :
    Except DeriveError Field := do
  let options ←
    match body with
    | .bare => pure {}
    | .list inside => OptionReader.foldOptions (RuleOptions.step kind) {} inside
    | .value => throw (.ruleAsValue kind)
  options.toField name kind

/-! ## Roles -/

/-- **Role of a host field.** -/
inductive FieldRole where
  | validated (field : Field)
  | action (action : Action)
  | plain
  deriving DecidableEq, Repr, Inhabited

/-- **What the attributes read so far declare.** -/
structure DeclaredRole where
  rule : Option Field := none
  action : Option Action := none

namespace FieldRole

/-- **Declared role after one attribute.** Attributes that name neither a rule nor an action do not
matter. -/
def step (name : String) (r : DeclaredRole) (a : Attribute) : Except DeriveError DeclaredRole :=
  match a.name with
  | none => .ok r
  | some label =>
    match Action.ofAttributeName? label with
    | some wired =>
      match a.body with
      | .bare =>
        if r.action.isSome then .error .secondAction else .ok { r with action := some wired }
      | _ => .error (.actionWithOptions label)
    | none =>
      match RuleKind.ofAttributeName? label with
      | none => .ok r
      | some kind =>
        if r.rule.isSome then .error (.duplicateRule name)
        else do
          let field ← Field.ofAttribute name kind a.body
          pure { r with rule := some field }

/-- **Role of a host field**, from its attributes in order. -/
def ofHostField (f : HostField) : Except DeriveError FieldRole :=
  match f.name with
  | none => .error .namelessField
  | some name => do
    let declared ← f.attributes.foldlM (step name) {}
    match declared.rule, declared.action with
    | some _, some _ => throw (.actionIsValidated name)
    | some field, none => pure (.validated field)
    | none, some wired => pure (.action wired)
    | none, none => pure .plain

end FieldRole

end FormWiring
