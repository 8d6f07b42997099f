import FormWiring.Derive.Options

/-!
# Callbacks of a host type

The callbacks are options of the `validation` attributes of the host. They may be spread over several
attributes; the last success callback counts, and there may be one error callback.
-/

set_option autoImplicit false

namespace FormWiring

open Code

/-- **Callbacks** of a host type. -/
structure Callbacks where
  onSuccess : Option String := none
  onError : Option ErrorCallback := none
  deriving DecidableEq, Repr, Inhabited

namespace Callbacks

/-- **One error callback** at most. -/
def addError (c : Callbacks) (method : String) (arity : ErrorArity) : Except DeriveError Callbacks :=
  if c.onError.isSome then .error .conflictingErrorCallbacks
  else .ok { c with onError := some ⟨method, arity⟩ }

/-- **Callbacks after one option.** -/
def step (c : Callbacks) (name : Option String) : OptionReader Callbacks := do
  match name with
  | some "on_success" =>
    let method ← OptionReader.textValue
    pure { c with onSuccess := some method }
  | some "on_error" =>
    let method ← OptionReader.textValue
    c.addError method .bare
  | some "on_error_with_errors" =>
    let method ← OptionReader.textValue
    c.addError method .withErrors
  | _ => throw .unknownCallback

/-- **Callbacks after one attribute.** Attributes of another name do not matter. -/
def ofAttribute (c : Callbacks) (a : Attribute) : Except DeriveError Callbacks :=
  if a.name = some "validation" then
    match a.body with
    | .bare => .error .bareCallbacks
    | .value => .error .callbacksAsValue
    | .list inside => OptionReader.foldOptions step c inside
  else .ok c

/-- **Callbacks of a list of attributes.** -/
def ofAttributes (attributes : List Attribute) : Except DeriveError Callbacks :=
  attributes.foldlM ofAttribute {}

end Callbacks

end FormWiring
