import FormWiring.Descriptor

/-!
# Rule resolution

Each field of a form gives at most one descriptor, in declaration order. A field whose rule stands alone
always gives one; a confirmation or a start gives one when a field of its partner kind is declared anywhere
in the form, and then the first such field is its partner; a limit gives none of its own.
-/

set_option autoImplicit false

namespace FormWiring

namespace Field

/-- **Partner** of a field among the declared fields. -/
def partner? (fields : List Field) (f : Field) : Option Field :=
  match f.kind.pairing with
  | .dependent kind => firstOfKind? fields kind
  | .single | .partnerOnly => none

/-- **Descriptor on one member**: the field's own name and message. -/
def alone (f : Field) (kind : ValidatorKind) (args : List Arg) : Descriptor :=
  ⟨kind, [f.name], f.message, args⟩

/-- **Descriptor of a confirmation**: the confirmed member comes first, the message is the confirming
field's. -/
def confirming (f : Field) (kind : ValidatorKind) (confirmed : Field) : Descriptor :=
  ⟨kind, [confirmed.name, f.name], f.message, [.bool f.autoDismiss]⟩

/-- **Descriptor of a between pair**: both sides bring their message and dismissal. -/
def bounded (f : Field) (limit : Field) : Descriptor :=
  ⟨.between, [f.name, limit.name], f.message,
    [.message limit.message, .bool f.autoDismiss, .bool limit.autoDismiss]⟩

/-- **Descriptor of a field**, if it triggers one. -/
def descriptor? (fields : List Field) (f : Field) : Option Descriptor :=
  match f.rule with
  | .required => some (f.alone .required [.bool f.autoDismiss])
  | .email required => some (f.alone .email [.bool f.autoDismiss, .bool required])
  | .onlyNumber required => some (f.alone .onlyNumber [.bool f.autoDismiss, .bool required])
  | .cpf required => some (f.alone .cpf [.bool f.autoDismiss, .bool required])
  | .cnpj required => some (f.alone .cnpj [.bool f.autoDismiss, .bool required])
  | .isbn required => some (f.alone .isbn [.bool f.autoDismiss, .bool required])
  | .creditCard required => some (f.alone .creditCard [.bool f.autoDismiss, .bool required])
  | .ipv4 required => some (f.alone .ipv4 [.bool f.autoDismiss, .bool required])
  | .ipv6 required => some (f.alone .ipv6 [.bool f.autoDismiss, .bool required])
  | .url required => some (f.alone .url [.bool f.autoDismiss, .bool required])
  | .pattern pattern required =>
    some (f.alone .pattern [.text pattern, .bool f.autoDismiss, .bool required])
  | .length min max required =>
    some (f.alone .length [.int min, .int max, .bool f.autoDismiss, .bool required])
  | .password min pattern =>
    some (f.alone .password [.int min, .text pattern, .bool f.autoDismiss])
  | .numericLimit min max required =>
    some (f.alone .numericLimit [.bool f.autoDismiss, .text min, .text max, .bool required])
  | .pastDate dateFormat limitDate required =>
    some (f.alone .pastDate [.text dateFormat, .text limitDate, .bool f.autoDismiss, .bool required])
  | .futureDate dateFormat limitDate required =>
    some (f.alone .futureDate [.text dateFormat, .text limitDate, .bool f.autoDismiss, .bool required])
  | .confirmEmail => (f.partner? fields).map (f.confirming .confirmEmail)
  | .confirmPassword => (f.partner? fields).map (f.confirming .confirmPassword)
  | .betweenStart => (f.partner? fields).map f.bounded
  | .betweenLimit => none

end Field

/-- **Descriptors of a field list**, in declaration order of the triggering fields. -/
def resolve (fields : List Field) : List Descriptor :=
  fields.filterMap (Field.descriptor? fields)

/-- **Descriptors of a form.** -/
def Form.descriptors (form : Form) : List Descriptor :=
  resolve form.fields

end FormWiring
