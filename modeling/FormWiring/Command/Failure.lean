import FormWiring.Files
import FormWiring.Settings
import FormWiring.WiringUnit.Code

/-!
# Failures of commands

Why a command stopped, from what it was doing down to the cause.
-/

set_option autoImplicit false

namespace FormWiring

/-- **Failures** of commands. -/
inductive Failure where
  | readSettings (path : String) (cause : FileError)
  | parseSettings (path : String)
  /-- A settings file that need not exist, but does. -/
  | loadSettings (path : String) (cause : Failure)
  | settings (cause : SettingsError)
  | readForm (path : String) (cause : FileError)
  | parseForm (path : String)
  | plan (host : String) (cause : FormError)
  | compile (host : String) (cause : ExpandError)
  | makeDirectory (path : String) (cause : FileError)
  | write (path : String) (cause : FileError)
  deriving DecidableEq, Repr

/-- **Wording** of a failure: what was done, then the cause. -/
def Failure.message : Failure → String
  | .readSettings path cause => "Failed to read config file: " ++ path ++ ": " ++ cause.message
  | .parseSettings path => "Failed to parse TOML config: " ++ path ++ ": <toml error>"
  | .loadSettings path cause => "Failed to load config from " ++ path ++ ": " ++ cause.message
  | .settings cause => cause.message
  | .readForm path cause => "Failed to read model file: " ++ path ++ ": " ++ cause.message
  | .parseForm path => "Failed to parse model file: " ++ path ++ ": <toml error>"
  | .plan host cause => "Failed to plan \x60" ++ host ++ "\x60: " ++ cause.message
  | .compile host cause => "Failed to compile \x60" ++ host ++ "\x60: " ++ cause.message
  | .makeDirectory path cause => "Failed to create directory " ++ path ++ ": " ++ cause.message
  | .write path cause => "Failed to write " ++ path ++ ": " ++ cause.message

end FormWiring
