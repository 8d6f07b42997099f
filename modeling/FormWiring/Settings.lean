import FormWiring.Code.Grammar
import FormWiring.Datum.Dialect
import FormWiring.Plan

/-!
# Settings

What a project sets once for all its forms: the options of generation and the level of logging. Settings are
read from data, a part left out taking its default, and checked before they are used.
-/

set_option autoImplicit false

namespace FormWiring

/-! ## Types -/

/-- **Settings** of a project. -/
structure Settings where
  codegen : Options := {}
  logLevel : String := "info"
  deriving DecidableEq, Repr, Inhabited

/-- **Faults** of settings. -/
inductive SettingsError where
  | emptyUnitSuffix
  | invalidRuntimePath (path : String)
  | unknownLogLevel (level : String)
  deriving DecidableEq, Repr

/-- **Levels of logging**, least first. -/
def logLevels : List String :=
  ["off", "error", "warn", "info", "debug", "trace"]

/-- **Text with its ASCII letters in lower case.** -/
def lowerAscii (s : String) : String :=
  String.ofList (s.toList.map Char.toLower)

/-- **Wording** of a fault. -/
def SettingsError.message : SettingsError → String
  | .emptyUnitSuffix => "codegen.unit_suffix must not be empty"
  | .invalidRuntimePath path => "codegen.runtime_crate '" ++ path ++ "' is not a valid path"
  | .unknownLogLevel level =>
    "Unknown log level '" ++ level ++ "', expected one of [" ++
      ", ".intercalate (logLevels.map Text.quote) ++ "]"

namespace Settings

/-! ## Checking -/

/-- **Check of settings**: the suffix is not blank, the runtime path is a path, and the level is known, its
letters in either case. -/
def check (s : Settings) : Except SettingsError Unit :=
  if Text.isBlankText s.codegen.unitSuffix then .error .emptyUnitSuffix
  else if (Code.path? s.codegen.runtimePath).isNone then .error (.invalidRuntimePath s.codegen.runtimePath)
  else if lowerAscii s.logLevel ∈ logLevels then .ok ()
  else .error (.unknownLogLevel s.logLevel)

end Settings

/-! ## Data -/

/-- **Options from data.** -/
def Options.ofDatum? (dialect : Dialect) (d : Datum) : Option Options := do
  let get ← d.toParts? dialect ["data_binding", "runtime_crate", "unit_suffix"]
  let defaults : Options := {}
  let dataBinding ← Datum.partOr (get "data_binding") defaults.dataBinding Datum.toBool?
  let runtimePath ← Datum.partOr (get "runtime_crate") defaults.runtimePath Datum.toText?
  let unitSuffix ← Datum.partOr (get "unit_suffix") defaults.unitSuffix Datum.toText?
  pure ⟨dataBinding, runtimePath, unitSuffix⟩

/-- **Options as data.** -/
def Options.toDatum (o : Options) : Datum :=
  .record [("data_binding", .bool o.dataBinding), ("runtime_crate", .text o.runtimePath),
    ("unit_suffix", .text o.unitSuffix)]

namespace Settings

/-- **Level of logging from data.** -/
def levelOfDatum? (dialect : Dialect) (d : Datum) : Option String := do
  let get ← d.toParts? dialect ["level"]
  Datum.partOr (get "level") ({} : Settings).logLevel Datum.toText?

/-- **Settings from data.** -/
def ofDatum? (dialect : Dialect) (d : Datum) : Option Settings := do
  let get ← d.toParts? dialect ["codegen", "logging"]
  let defaults : Settings := {}
  let codegen ← Datum.partOr (get "codegen") defaults.codegen (Options.ofDatum? dialect)
  let logLevel ← Datum.partOr (get "logging") defaults.logLevel (levelOfDatum? dialect)
  pure ⟨codegen, logLevel⟩

/-- **Settings as data.** -/
def toDatum (s : Settings) : Datum :=
  .record [("codegen", s.codegen.toDatum), ("logging", .record [("level", .text s.logLevel)])]

end Settings

end FormWiring
