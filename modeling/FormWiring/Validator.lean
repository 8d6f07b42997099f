import FormWiring.Check
import FormWiring.Descriptor
import FormWiring.Log
import FormWiring.Screen

/-!
# Validators

A validator is bound to one input or two. Evaluating it reports on its inputs, which show an error or hide it,
and gives a message when it fails. A pair of confirmations compares two texts and reports on the second; a
between pair wants two numbers in order and reports on both, but gives one message.
-/

set_option autoImplicit false

namespace FormWiring

/-! ## Types -/

/-- **Binding** of a validator to an input it reports on. -/
structure Binding where
  input : String
  message : String
  autoDismiss : Bool
  deriving DecidableEq, Repr, Inhabited

/-- **Validators.** -/
inductive Validator where
  | single (binding : Binding) (check : FieldCheck)
  | confirmation (confirmed : String) (binding : Binding)
  | between (start limit : Binding)
  deriving DecidableEq, Repr

/-- **Verdict on one input.** -/
structure Report where
  binding : Binding
  accepted : Bool
  deriving DecidableEq, Repr

namespace Screen

/-- **Screen after a report**: the input shows the message, or nothing. -/
def report (s : Screen) (r : Report) : Screen :=
  s.setError r.binding.input (if r.accepted then none else some r.binding.message)

end Screen

namespace Validator

/-! ## Evaluation -/

/-- **Number in an input**, if its text is one. -/
def numberIn? (s : Screen) (name : String) : Option Int :=
  Check.finiteOfText? (Text.trimChars (s.text name).toList)

/-- **Verdicts on the two sides of a between pair**: each must be a number, and if both are, in order. -/
def betweenVerdicts (start limit : Option Int) : Bool × Bool :=
  match start, limit with
  | some a, some b => (a ≤ b, a ≤ b)
  | a, b => (a.isSome, b.isSome)

/-- **Reports** of a validator on a screen, in order. -/
def reports (s : Screen) : Validator → List Report
  | single b check => [⟨b, check.accepts (s.text b.input)⟩]
  | confirmation confirmed b => [⟨b, s.text b.input == s.text confirmed⟩]
  | between start limit =>
    let (startOk, limitOk) := betweenVerdicts (numberIn? s start.input) (numberIn? s limit.input)
    [⟨start, startOk⟩, ⟨limit, limitOk⟩]

/-- **Message of a failure**: that of the first report that is one. -/
def failure? (s : Screen) (v : Validator) : Option String :=
  ((v.reports s).find? fun r => !r.accepted).map fun r => r.binding.message

/-- **Acceptance**: no report is a failure. -/
def accepts (s : Screen) (v : Validator) : Bool :=
  (v.reports s).all (·.accepted)

/-- **Screen after an evaluation.** -/
def evaluate (s : Screen) (v : Validator) : Screen :=
  (v.reports s).foldl Screen.report s

/-- **Bindings** of a validator. -/
def bindings : Validator → List Binding
  | single b _ => [b]
  | confirmation _ b => [b]
  | between start limit => [start, limit]

/-- **Screen after clearing** what a validator shows. -/
def clear (s : Screen) (v : Validator) : Screen :=
  v.bindings.foldl (fun s b => s.setError b.input none) s

/-- **Screen after a validator is bound** to it: inputs whose error is to be dismissed are watched. -/
def attach (s : Screen) (v : Validator) : Screen :=
  v.bindings.foldl (fun s b => if b.autoDismiss then s.watch b.input else s) s

/-! ## Building -/

/-- **Arguments with their texts looked up.** -/
inductive Argument where
  | bool (value : Bool)
  | int (value : Int64)
  | text (value : String)
  deriving DecidableEq, Repr

/-- **Validator of a kind** from its inputs, its message and its other arguments, if they fit the kind. -/
def build? (kind : ValidatorKind) (targets : List String) (message : String) (args : List Argument) :
    Option Validator :=
  let tested := fun (test : TextTest) (name : String) (dismiss required : Bool) =>
    some (single ⟨name, message, dismiss⟩ (.tested test required))
  match kind, targets, args with
  | .required, [name], [.bool dismiss] => some (single ⟨name, message, dismiss⟩ .present)
  | .email, [name], [.bool dismiss, .bool required] => tested .email name dismiss required
  | .onlyNumber, [name], [.bool dismiss, .bool required] => tested .onlyNumber name dismiss required
  | .cpf, [name], [.bool dismiss, .bool required] => tested .cpf name dismiss required
  | .cnpj, [name], [.bool dismiss, .bool required] => tested .cnpj name dismiss required
  | .isbn, [name], [.bool dismiss, .bool required] => tested .isbn name dismiss required
  | .creditCard, [name], [.bool dismiss, .bool required] => tested .creditCard name dismiss required
  | .ipv4, [name], [.bool dismiss, .bool required] => tested .ipv4 name dismiss required
  | .ipv6, [name], [.bool dismiss, .bool required] => tested .ipv6 name dismiss required
  | .url, [name], [.bool dismiss, .bool required] => tested .url name dismiss required
  | .pattern, [name], [.text regex, .bool dismiss, .bool required] =>
    tested (.pattern regex) name dismiss required
  | .length, [name], [.int min, .int max, .bool dismiss, .bool required] =>
    tested (.length min max) name dismiss required
  | .password, [name], [.int min, .text regex, .bool dismiss] =>
    some (single ⟨name, message, dismiss⟩ (.password min regex))
  | .numericLimit, [name], [.bool dismiss, .text min, .text max, .bool required] =>
    tested (.numericLimit min max) name dismiss required
  | .pastDate, [name], [.text dateFormat, .text limitDate, .bool dismiss, .bool required] =>
    tested (.pastDate dateFormat limitDate) name dismiss required
  | .futureDate, [name], [.text dateFormat, .text limitDate, .bool dismiss, .bool required] =>
    tested (.futureDate dateFormat limitDate) name dismiss required
  | .confirmEmail, [confirmed, name], [.bool dismiss] =>
    some (confirmation confirmed ⟨name, message, dismiss⟩)
  | .confirmPassword, [confirmed, name], [.bool dismiss] =>
    some (confirmation confirmed ⟨name, message, dismiss⟩)
  | .between, [start, limit], [.text limitMessage, .bool dismissStart, .bool dismissLimit] =>
    some (between ⟨start, message, dismissStart⟩ ⟨limit, limitMessage, dismissLimit⟩)
  | _, _, _ => none

/-- **Argument with its text looked up.** -/
def Argument.ofArg (lookup : Int32 → String) : Arg → Argument
  | .bool value => .bool value
  | .int value => .int value
  | .text value => .text value
  | .message source => .text (source.text lookup)

/-- **Validator of a descriptor**, if its arguments fit its kind. -/
def ofDescriptor? (lookup : Int32 → String) (d : Descriptor) : Option Validator :=
  build? d.kind d.targets (d.message.text lookup) (d.args.map (Argument.ofArg lookup))

/-- **What is logged when a validator is built**: bounds and limit dates that admit nothing. -/
def buildLog : Validator → List LogRecord
  | single _ (.tested (.numericLimit min max) _) =>
    if (numericBound? min).isSome && (numericBound? max).isSome then [] else [.invalidBounds min max]
  | single _ (.tested (.pastDate dateFormat limitDate) _)
  | single _ (.tested (.futureDate dateFormat limitDate) _) =>
    if (limitDate? dateFormat limitDate).isSome then [] else [.invalidLimitDate limitDate dateFormat]
  | _ => []

end Validator

end FormWiring
