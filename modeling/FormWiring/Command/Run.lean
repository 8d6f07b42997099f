import FormWiring.Command.Failure
import FormWiring.Form.Data
import FormWiring.Settings.Environment
import FormWiring.Toml.Parser

/-!
# Runs of commands

What a command acts on, and how it finds its settings and its form. A run that fails keeps what it did to the
file system until then.
-/

set_option autoImplicit false

namespace FormWiring

/-! ## Runs -/

/-- **Machine** that a command runs on. -/
structure Machine where
  files : FileSystem := {}
  environment : Environment := {}
  output : String := ""
  log : List LogRecord := []
  deriving DecidableEq, Repr, Inhabited

/-- **Run** of a command, which may fail. -/
abbrev Run (α : Type) : Type :=
  ExceptT Failure (StateM Machine) α

namespace Run

/-- **Records logged.** -/
def log (records : List LogRecord) : Run Unit :=
  modify fun m => { m with log := m.log ++ records }

/-- **Text printed.** -/
def print (text : String) : Run Unit :=
  modify fun m => { m with output := m.output ++ text }

/-- **Result, or the failure** that its error amounts to. -/
def orFail {ε α : Type} (result : Except ε α) (failure : ε → Failure) : Run α :=
  match result with
  | .ok value => pure value
  | .error e => throw (failure e)

end Run

/-! ## Settings -/

namespace Settings

/-- **Path of the settings** when none is given. -/
def defaultPath : String := "formwire.toml"

/-- **Settings of a file.** -/
def ofFile (files : FileSystem) (path : String) : Except Failure Settings := do
  let text ← (files.read path).mapError (.readSettings path)
  match (Toml.parse? text).bind (ofDatum? .toml) with
  | some settings => pure settings
  | none => throw (.parseSettings path)

/-- **Settings of a file, or the defaults** where there is none. -/
def ofFileIfAny (files : FileSystem) (path : String) : Except Failure Settings :=
  if files.exists? path then (ofFile files path).mapError (.loadSettings path) else pure {}

/-- **Settings under the environment** of the machine. -/
def underEnvironment (settings : Settings) : Run Settings := do
  let environment := (← get).environment
  Run.log environment.report
  pure (settings.under environment)

/-- **Settings read from a file**, which must exist. -/
def require (path : String) : Run Settings := do
  Run.orFail (ofFile (← get).files path) id

/-- **Settings loaded**: the file if it exists, under the environment. -/
def load (path : String) : Run Settings := do
  let settings ← Run.orFail (ofFileIfAny (← get).files path) id
  settings.underEnvironment

/-- **Settings of a command**: a path that is given must exist, and the settings must pass their check. -/
def forCommand (path : Option String) : Run Settings := do
  let settings ←
    match path with
    | some path => do (← require path).underEnvironment
    | none => load defaultPath
  Run.orFail settings.check .settings
  pure settings

end Settings

/-! ## Forms -/

/-- **Form of a file.** -/
def Form.ofFile (files : FileSystem) (path : String) : Except Failure Form := do
  let text ← (files.read path).mapError (.readForm path)
  match (Toml.parse? text).bind (Form.ofDatum? .toml) with
  | some form => pure form
  | none => throw (.parseForm path)

/-- **Form read from a file.** -/
def Form.load (path : String) : Run Form := do
  let form ← Run.orFail (Form.ofFile (← get).files path) id
  Run.log [.loadedForm form.host form.fields.length]
  pure form

end FormWiring
