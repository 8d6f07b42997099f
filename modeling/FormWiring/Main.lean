import FormWiring.Command.Line

/-!
# Command line program

Reads what a command needs from the disk, runs the command, and carries out what it printed, wrote and logged.
-/

set_option autoImplicit false

namespace FormWiring

/-- **File system with one file of the disk**, if it can be read. -/
def loadInto (files : FileSystem) (path : String) : IO FileSystem := do
  try
    let bytes ← IO.FS.readBinFile path
    pure (files.withFile path bytes.toList)
  catch _ => pure files

/-- **Machine** with the files and variables that an invocation looks at. -/
def prepare (invocation : Invocation) : IO Machine := do
  let files ← loadInto {} invocation.settingsPath
  let files ← loadInto files invocation.formPath
  let dataBinding ← IO.getEnv "FORMWIRE_DATA_BINDING"
  let runtimePath ← IO.getEnv "FORMWIRE_RUNTIME_CRATE"
  let unitSuffix ← IO.getEnv "FORMWIRE_UNIT_SUFFIX"
  let logLevel ← IO.getEnv "FORMWIRE_LOG_LEVEL"
  pure { files, environment := ⟨dataBinding, runtimePath, unitSuffix, logLevel⟩ }

/-- **File of the machine copied** to the disk. -/
def store (files : FileSystem) (path : String) : IO Unit := do
  match files.readBytes path with
  | .ok bytes =>
    if let some parent := Path.parent? path then
      unless parent.isEmpty do IO.FS.createDirAll parent
    IO.FS.writeBinFile path ⟨bytes.toArray⟩
  | .error _ => pure ()

end FormWiring

open FormWiring in
/-- **Program**: one command. -/
def main (words : List String) : IO UInt32 := do
  match Invocation.ofWords? words with
  | none =>
    IO.eprintln Invocation.usage
    pure 2
  | some invocation =>
    let (result, machine) := invocation.command.execute invocation.config (← prepare invocation)
    if invocation.verbose then
      for record in machine.log do IO.eprintln record.line
    match result with
    | .ok () =>
      if let some path := invocation.outputPath? then store machine.files path
      IO.print machine.output
      pure 0
    | .error failure =>
      IO.eprintln ("Error: " ++ failure.message)
      pure 1
