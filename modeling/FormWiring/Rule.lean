/-!
# Validation rules

A field of a form declares one rule. `RuleKind` is the closed set of kinds, with the name each is declared
by, the part it takes in pairing and the options it accepts; `Rule` is a kind with its parameters.
-/

set_option autoImplicit false

namespace FormWiring

/-! ## Kinds -/

/-- **Rule kinds** a field can declare. -/
inductive RuleKind where
  | required
  | email
  | confirmEmail
  | pattern
  | length
  | onlyNumber
  | password
  | confirmPassword
  | cpf
  | cnpj
  | isbn
  | betweenStart
  | betweenLimit
  | creditCard
  | numericLimit
  | ipv4
  | ipv6
  | url
  | pastDate
  | futureDate
  deriving DecidableEq, Repr, Inhabited

/-- **Pairing role** of a kind: it resolves from its own field, it needs the first field of a partner kind,
or it is only ever somebody's partner. -/
inductive Pairing where
  | single
  | dependent (partner : RuleKind)
  | partnerOnly
  deriving DecidableEq, Repr

namespace RuleKind

/-- **All kinds**, in the order in which they are numbered. -/
def all : List RuleKind :=
  [required, email, confirmEmail, pattern, length, onlyNumber, password, confirmPassword, cpf, cnpj, isbn,
    betweenStart, betweenLimit, creditCard, numericLimit, ipv4, ipv6, url, pastDate, futureDate]

/-- **Declared name** of a kind, both as a field attribute and as the tag of a model file. -/
def attributeName : RuleKind → String
  | required => "required"
  | email => "email"
  | confirmEmail => "confirm_email"
  | pattern => "pattern"
  | length => "length"
  | onlyNumber => "only_number"
  | password => "password"
  | confirmPassword => "confirm_password"
  | cpf => "cpf"
  | cnpj => "cnpj"
  | isbn => "isbn"
  | betweenStart => "between_start"
  | betweenLimit => "between_limit"
  | creditCard => "credit_card"
  | numericLimit => "numeric_limit"
  | ipv4 => "ipv4"
  | ipv6 => "ipv6"
  | url => "url"
  | pastDate => "past_date"
  | futureDate => "future_date"

/-- **Kind of a declared name**, if it is one. -/
def ofAttributeName? (name : String) : Option RuleKind :=
  all.find? fun kind => kind.attributeName == name

/-- **Number of a kind** in `all`. -/
def index (kind : RuleKind) : Nat :=
  all.idxOf kind

/-- **Pairing role.** A confirmation needs what it confirms and a start needs its limit. -/
def pairing : RuleKind → Pairing
  | confirmEmail => .dependent email
  | confirmPassword => .dependent password
  | betweenStart => .dependent betweenLimit
  | betweenLimit => .partnerOnly
  | _ => .single

/-- **Own options** of a kind, beside the message and `auto_dismiss` options that every kind has. -/
def options : RuleKind → List String
  | required | confirmEmail | confirmPassword | betweenStart | betweenLimit => []
  | email | onlyNumber | cpf | cnpj | isbn | creditCard | ipv4 | ipv6 | url => ["required"]
  | pattern => ["pattern", "required"]
  | length => ["min", "max", "required"]
  | password => ["min", "pattern"]
  | numericLimit => ["min", "max", "required"]
  | pastDate | futureDate => ["date_format", "limit_date", "required"]

theorem mem_all (kind : RuleKind) : kind ∈ all := by
  cases kind <;> decide

theorem attributeName_injective {a b : RuleKind} (h : a.attributeName = b.attributeName) : a = b := by
  revert h
  cases a <;> cases b <;> simp [attributeName]

theorem ofAttributeName?_eq_some_iff {name : String} {kind : RuleKind} :
    ofAttributeName? name = some kind ↔ kind.attributeName = name := by
  constructor
  · intro h
    simpa using List.find?_some h
  · rintro rfl
    cases kind <;> decide

end RuleKind

/-! ## Rules -/

/-- **Rule**: a kind with its parameters. A length bound `max` of zero is no bound, and an empty password
pattern is no pattern. -/
inductive Rule where
  | required
  | email (required : Bool)
  | confirmEmail
  | pattern (pattern : String) (required : Bool)
  | length (min max : Int64) (required : Bool)
  | onlyNumber (required : Bool)
  | password (min : Int64) (pattern : String)
  | confirmPassword
  | cpf (required : Bool)
  | cnpj (required : Bool)
  | isbn (required : Bool)
  | betweenStart
  | betweenLimit
  | creditCard (required : Bool)
  | numericLimit (min max : String) (required : Bool)
  | ipv4 (required : Bool)
  | ipv6 (required : Bool)
  | url (required : Bool)
  | pastDate (dateFormat limitDate : String) (required : Bool)
  | futureDate (dateFormat limitDate : String) (required : Bool)
  deriving DecidableEq, Repr, Inhabited

/-- **Kind of a rule.** -/
def Rule.kind : Rule → RuleKind
  | .required => .required
  | .email _ => .email
  | .confirmEmail => .confirmEmail
  | .pattern .. => .pattern
  | .length .. => .length
  | .onlyNumber _ => .onlyNumber
  | .password .. => .password
  | .confirmPassword => .confirmPassword
  | .cpf _ => .cpf
  | .cnpj _ => .cnpj
  | .isbn _ => .isbn
  | .betweenStart => .betweenStart
  | .betweenLimit => .betweenLimit
  | .creditCard _ => .creditCard
  | .numericLimit .. => .numericLimit
  | .ipv4 _ => .ipv4
  | .ipv6 _ => .ipv6
  | .url _ => .url
  | .pastDate .. => .pastDate
  | .futureDate .. => .futureDate

end FormWiring
