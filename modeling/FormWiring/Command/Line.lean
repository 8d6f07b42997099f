import FormWiring.Command

/-!
# Command lines

The words of a command line read as a command. Options may stand anywhere; a value follows its option as the
next word.
-/

set_option autoImplicit false

namespace FormWiring

/-! ## Words -/

/-- **Words of a command line**, sorted: names in their order, and options. -/
structure CommandWords where
  names : List String := []
  verbose : Bool := false
  asJson : Bool := false
  dataBinding : Bool := false
  config : Option String := none
  output : Option String := none
  deriving DecidableEq, Repr, Inhabited

/-- **Words sorted**, after those already seen. -/
def CommandWords.read? (seen : CommandWords) : List String → Option CommandWords
  | [] => some seen
  | "--config" :: path :: rest => read? { seen with config := some path } rest
  | "--output" :: path :: rest => read? { seen with output := some path } rest
  | "-o" :: path :: rest => read? { seen with output := some path } rest
  | word :: rest =>
    match word with
    | "--verbose" | "-v" => read? { seen with verbose := true } rest
    | "--json" => read? { seen with asJson := true } rest
    | "--data-binding" => read? { seen with dataBinding := true } rest
    | _ =>
      if word.toList.head? == some '-' then none
      else read? { seen with names := seen.names ++ [word] } rest

/-! ## Invocations -/

/-- **Invocation** of a command. -/
structure Invocation where
  command : Command
  config : Option String
  verbose : Bool
  deriving DecidableEq, Repr

namespace Invocation

/-- **How commands are called.** -/
def usage : String :=
  "Usage: formwire [-v] plan <MODEL> [--json] [--config <CONFIG>]\n" ++
    "       formwire [-v] expand <MODEL> [--data-binding] [--config <CONFIG>] [-o <OUTPUT>]"

/-- **Invocation of words**: a command takes its own options only. -/
def ofWords? (words : List String) : Option Invocation := do
  let w ← ({} : CommandWords).read? words
  match w.names with
  | ["plan", form] =>
    if w.dataBinding || w.output.isSome then none else some ⟨.plan form w.asJson, w.config, w.verbose⟩
  | ["expand", form] =>
    if w.asJson then none else some ⟨.expand form w.dataBinding w.output, w.config, w.verbose⟩
  | _ => none

/-- **Path of the form** of an invocation. -/
def formPath (i : Invocation) : String :=
  match i.command with
  | .plan form _ => form
  | .expand form _ _ => form

/-- **Path that is written**, if one is. -/
def outputPath? (i : Invocation) : Option String :=
  match i.command with
  | .plan .. => none
  | .expand _ _ output => output

/-- **Path of the settings.** -/
def settingsPath (i : Invocation) : String :=
  i.config.getD Settings.defaultPath

end Invocation

end FormWiring
