import FormWiring.WiringUnit.OfForm

/-!
# Log records

What the library reports while it works, as data; the wording is in one place.
-/

set_option autoImplicit false

namespace FormWiring

/-- **Log levels** in use. -/
inductive LogLevel where
  | debug
  | info
  | warn
  deriving DecidableEq, Repr

/-- **Shown name** of a level. -/
def LogLevel.name : LogLevel → String
  | .debug => "DEBUG"
  | .info => "INFO"
  | .warn => "WARN"

/-- **Log records.** -/
inductive LogRecord where
  | resolved (descriptors fields : Nat) (host : String)
  | emitting (variant : Variant) (host : String) (validators : Nat)
  | evaluated (validators : Nat) (valid : Bool) (errors : Nat)
  | invalidBounds (min max : String)
  | invalidLimitDate (limit format : String)
  | ignoredDataBinding (value : String)
  | loadedForm (host : String) (fields : Nat)
  | wrote (path : String)
  deriving DecidableEq, Repr

namespace LogRecord

/-- **Level** of a record. -/
def level : LogRecord → LogLevel
  | resolved .. | emitting .. | evaluated .. | loadedForm .. => .debug
  | wrote _ => .info
  | invalidBounds .. | invalidLimitDate .. | ignoredDataBinding _ => .warn

/-- **Wording** of a record. -/
def message : LogRecord → String
  | resolved descriptors fields host =>
    "resolved " ++ toString descriptors ++ " descriptor(s) from " ++ toString fields ++
      " field(s) of `" ++ host ++ "`"
  | emitting variant host validators =>
    "emitting " ++ variant.title ++ " unit for `" ++ host ++ "` with " ++ toString validators ++
      " validator(s)"
  | evaluated validators valid errors =>
    "validator set evaluated: " ++ toString validators ++ " validator(s), valid = " ++
      (if valid then "true" else "false") ++ ", " ++ toString errors ++ " error(s)"
  | invalidBounds min max =>
    "invalid numeric limit bounds " ++ Text.quote min ++ ".." ++ Text.quote max ++
      ", every value will be rejected"
  | invalidLimitDate limit format =>
    "limit date " ++ Text.quote limit ++ " does not match format " ++ Text.quote format
  | ignoredDataBinding value =>
    "ignoring FORMWIRE_DATA_BINDING=" ++ Text.quote value ++
      ", expected a boolean such as true or 0"
  | loadedForm host fields =>
    "loaded model `" ++ host ++ "` with " ++ toString fields ++ " field(s)"
  | wrote path => "wrote " ++ path

/-- **Line** of a record. -/
def line (r : LogRecord) : String :=
  r.level.name ++ " " ++ r.message

end LogRecord

/-- **Records of a compilation**: none when the form breaks its contract. -/
def Form.compileLog (form : Form) (options : Options) : List LogRecord :=
  match form.check with
  | .error _ => []
  | .ok () =>
    [.resolved form.descriptors.length form.fields.length form.host,
      .emitting (form.variant options) form.host form.descriptors.length]

end FormWiring
