import FormWiring.Derive.Callbacks
import FormWiring.Derive.Field

/-!
# Forms of host types

The form that a declaration describes, and the code derived from it.
-/

set_option autoImplicit false

namespace FormWiring

namespace Form

/-- **Form after one more host field.** Each action has one member at most. -/
def addHostField (form : Form) (f : HostField) : Except DeriveError Form := do
  match ← FieldRole.ofHostField f with
  | .validated field => pure { form with fields := form.fields ++ [field] }
  | .action .validate =>
    if form.validateAction.isSome then throw (.repeatedAction Action.validate.attributeName)
    else pure { form with validateAction := some (f.name.getD "") }
  | .action .clear =>
    if form.clearAction.isSome then throw (.repeatedAction Action.clear.attributeName)
    else pure { form with clearAction := some (f.name.getD "") }
  | .plain => pure form

/-- **Form of a host type.** -/
def ofHostType (host : HostType) : Except DeriveError Form := do
  if host.isGeneric then throw .genericHost
  let fields ←
    match host.shape with
    | .named fields => pure fields
    | .plain => pure []
    | .tuple _ => throw .tupleStructure
    | .other => throw .notAStructure
  let callbacks ← Callbacks.ofAttributes host.attributes
  match callbacks.onSuccess with
  | none => throw .missingSuccessCallback
  | some onSuccess =>
    fields.foldlM addHostField
      { host := host.name, visibility := host.visibility, onSuccess := onSuccess,
        onError := callbacks.onError }

end Form

namespace HostType

/-- **Options of derivation**: the defaults, with or without binding. -/
def deriveOptions (dataBinding : Bool) : Options :=
  { dataBinding := dataBinding }

/-- **Code text derived** from a host type. -/
def derive (host : HostType) (dataBinding : Bool) : Except DeriveError String := do
  let form ← Form.ofHostType host
  (form.expand (deriveOptions dataBinding)).mapError .expansion

end HostType

end FormWiring
