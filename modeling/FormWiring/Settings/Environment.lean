import FormWiring.Log
import FormWiring.Settings

/-!
# Settings from the environment

Four variables stand above the settings of a file. A value for the binding flag that is no flag is reported and
otherwise ignored; the others are taken as they are, and checked with the rest.
-/

set_option autoImplicit false

namespace FormWiring

/-- **Environment**: the values of the variables that are set. -/
structure Environment where
  dataBinding : Option String := none
  runtimePath : Option String := none
  unitSuffix : Option String := none
  logLevel : Option String := none
  deriving DecidableEq, Repr, Inhabited

/-- **Environment of named variables.** -/
def Environment.ofVariables (value : String → Option String) : Environment :=
  ⟨value "FORMWIRE_DATA_BINDING", value "FORMWIRE_RUNTIME_CRATE", value "FORMWIRE_UNIT_SUFFIX",
    value "FORMWIRE_LOG_LEVEL"⟩

/-- **Flag** of a text: one of four words each, in either case and between blanks. -/
def flagOfText? (text : String) : Option Bool :=
  let word := lowerAscii (Text.trim text)
  if word ∈ ["true", "1", "yes", "on"] then some true
  else if word ∈ ["false", "0", "no", "off"] then some false
  else none

namespace Settings

/-- **Settings under an environment.** -/
def under (s : Settings) (environment : Environment) : Settings where
  codegen :=
    ⟨(environment.dataBinding.bind flagOfText?).getD s.codegen.dataBinding,
      environment.runtimePath.getD s.codegen.runtimePath,
      environment.unitSuffix.getD s.codegen.unitSuffix⟩
  logLevel := environment.logLevel.getD s.logLevel

end Settings

/-- **Report on an environment**: a flag that is none. -/
def Environment.report (environment : Environment) : List LogRecord :=
  match environment.dataBinding with
  | some text => if (flagOfText? text).isNone then [.ignoredDataBinding text] else []
  | none => []

end FormWiring
