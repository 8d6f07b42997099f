import FormWiring.Form

/-!
# Validator descriptors

A descriptor says which validator to build: its kind, the one or two members it is bound to, its message and
its remaining arguments, in the order in which the validator takes them.
-/

set_option autoImplicit false

namespace FormWiring

/-- **Validator kinds.** Both sides of a between pair share one validator. -/
inductive ValidatorKind where
  | required
  | email
  | confirmEmail
  | pattern
  | length
  | onlyNumber
  | password
  | confirmPassword
  | cpf
  | cnpj
  | isbn
  | between
  | creditCard
  | numericLimit
  | ipv4
  | ipv6
  | url
  | pastDate
  | futureDate
  deriving DecidableEq, Repr, Inhabited

namespace ValidatorKind

/-- **All kinds.** -/
def all : List ValidatorKind :=
  [required, email, confirmEmail, pattern, length, onlyNumber, password, confirmPassword, cpf, cnpj, isbn,
    between, creditCard, numericLimit, ipv4, ipv6, url, pastDate, futureDate]

/-- **Name** of a kind in written descriptors. -/
def name : ValidatorKind → String
  | required => "required"
  | email => "email"
  | confirmEmail => "confirm_email"
  | pattern => "pattern"
  | length => "length"
  | onlyNumber => "only_number"
  | password => "password"
  | confirmPassword => "confirm_password"
  | cpf => "cpf"
  | cnpj => "cnpj"
  | isbn => "isbn"
  | between => "between"
  | creditCard => "credit_card"
  | numericLimit => "numeric_limit"
  | ipv4 => "ipv4"
  | ipv6 => "ipv6"
  | url => "url"
  | pastDate => "past_date"
  | futureDate => "future_date"

/-- **Kind of a name**, if it is one. -/
def ofName? (name : String) : Option ValidatorKind :=
  all.find? fun kind => kind.name == name

/-- **Type name** of a kind in generated code. -/
def typeName : ValidatorKind → String
  | required => "RequiredValidator"
  | email => "EmailValidator"
  | confirmEmail => "ConfirmEmailValidator"
  | pattern => "PatternValidator"
  | length => "LengthValidator"
  | onlyNumber => "OnlyNumberValidator"
  | password => "PasswordValidator"
  | confirmPassword => "ConfirmPasswordValidator"
  | cpf => "CpfValidator"
  | cnpj => "CnpjValidator"
  | isbn => "IsbnValidator"
  | between => "BetweenValidator"
  | creditCard => "CreditCardValidator"
  | numericLimit => "NumericLimitValidator"
  | ipv4 => "Ipv4Validator"
  | ipv6 => "Ipv6Validator"
  | url => "UrlValidator"
  | pastDate => "PastDateValidator"
  | futureDate => "FutureDateValidator"

theorem name_injective {a b : ValidatorKind} (h : a.name = b.name) : a = b := by
  revert h
  cases a <;> cases b <;> simp [name]

theorem typeName_injective {a b : ValidatorKind} (h : a.typeName = b.typeName) : a = b := by
  revert h
  cases a <;> cases b <;> simp [typeName]

theorem ofName?_eq_some_iff {name : String} {kind : ValidatorKind} :
    ofName? name = some kind ↔ kind.name = name := by
  constructor
  · intro h
    simpa using List.find?_some h
  · rintro rfl
    cases kind <;> decide

end ValidatorKind

/-- **Argument** of a validator. The limit side of a between pair brings a message of its own. -/
inductive Arg where
  | bool (value : Bool)
  | int (value : Int64)
  | text (value : String)
  | message (source : MessageSource)
  deriving DecidableEq, Repr, Inhabited

/-- **Descriptor** of one validator. -/
structure Descriptor where
  kind : ValidatorKind
  targets : List String
  message : MessageSource
  args : List Arg
  deriving DecidableEq, Repr, Inhabited

end FormWiring
