import FormWiring.Resolution
import FormWiring.Text.Quoted

/-!
# Plans

A plan says what would be generated for a form: the name of its unit, how the unit finds its members, and
the validators it builds. `Plan.describe` is the text shown to people, one line a validator.
-/

set_option autoImplicit false

namespace FormWiring

/-! ## Options and variants -/

/-- **Options** of generation, common to all forms of a project. -/
structure Options where
  /-- Two-way binding is available, so a form without fields may find its members by scanning. -/
  dataBinding : Bool := false
  /-- Path under which generated code finds the runtime. -/
  runtimePath : String := "formwire_core"
  /-- Appended to the host's name to name the unit. -/
  unitSuffix : String := "Validation"
  deriving DecidableEq, Repr, Inhabited

/-- **Variants** of a unit: members are accessed on the host, or found by scanning the view tree. -/
inductive Variant where
  | direct
  | reflective
  deriving DecidableEq, Repr, Inhabited

/-- **Written name** of a variant. -/
def Variant.name : Variant → String
  | .direct => "direct"
  | .reflective => "reflective"

/-- **Title** of a variant in log records. -/
def Variant.title : Variant → String
  | .direct => "Direct"
  | .reflective => "Reflective"

/-- **Text after the last path separator**, if there is one. -/
def afterLastSeparator? : List Char → Option (List Char)
  | [] => none
  | c :: rest =>
    match afterLastSeparator? rest with
    | some tail => some tail
    | none =>
      match c, rest with
      | ':', ':' :: tail => some tail
      | _, _ => none

namespace Form

/-- **Variant** of the form's unit: scanning is used only when the binding is there and no field is
declared. -/
def variant (form : Form) (options : Options) : Variant :=
  if options.dataBinding && form.fields.isEmpty then .reflective else .direct

/-- **Unit name**: the last segment of the host's path, then the suffix. -/
def unitName (form : Form) (options : Options) : String :=
  let segment := (afterLastSeparator? form.host.toList).getD form.host.toList
  String.ofList (Text.trimChars segment) ++ options.unitSuffix

end Form

/-! ## Plans -/

/-- **Plan** of a form. -/
structure Plan where
  unit : String
  variant : Variant
  descriptors : List Descriptor
  deriving DecidableEq, Repr, Inhabited

/-- **Plan of a form** that meets its contract. -/
def Form.plan (form : Form) (options : Options) : Except FormError Plan := do
  form.check
  pure ⟨form.unitName options, form.variant options, form.descriptors⟩

/-! ## Description -/

/-- **Message** as the description shows it. -/
def MessageSource.describe : MessageSource → String
  | .resource id => "resource " ++ toString id.toInt
  | .literal text => Text.quote text

/-- **Argument** as the description shows it. -/
def Arg.describe : Arg → String
  | .bool value => if value then "true" else "false"
  | .int value => toString value.toInt
  | .text value => Text.quote value
  | .message source => source.describe

/-- **Description line** of the validator numbered `number`. -/
def Descriptor.describe (number : Nat) (d : Descriptor) : String :=
  "  " ++ toString number ++ ". " ++ d.kind.typeName ++ " [" ++ ", ".intercalate d.targets ++
    "] message: " ++ d.message.describe ++
    (if d.args.isEmpty then "" else " args: " ++ ", ".intercalate (d.args.map Arg.describe))

/-- **Descriptions of validators**, numbered from `number`, each after a line end. -/
def describeFrom (number : Nat) : List Descriptor → String
  | [] => ""
  | d :: rest => "\n" ++ d.describe number ++ describeFrom (number + 1) rest

/-- **Description of a plan**: a header, then one line a validator. -/
def Plan.describe (plan : Plan) : String :=
  plan.unit ++ " (" ++ plan.variant.name ++ ")" ++
    if plan.descriptors.isEmpty then "\n  no validators" else describeFrom 1 plan.descriptors

end FormWiring
