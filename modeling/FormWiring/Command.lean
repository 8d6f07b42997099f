import FormWiring.Command.Run
import FormWiring.Plan.Data

/-!
# Commands

The two commands: show the plan of a form, or write the code of its unit. Nothing is written before everything
that is read, planned and compiled has succeeded.
-/

set_option autoImplicit false

namespace FormWiring

/-- **Commands**, each on the form in a file. -/
inductive Command where
  | plan (form : String) (asJson : Bool)
  | expand (form : String) (dataBinding : Bool) (output : Option String)
  deriving DecidableEq, Repr

namespace Command

/-! ## Plans -/

/-- **Text of a plan**: for people, or as JSON. -/
def planText (plan : Plan) (asJson : Bool) : String :=
  (if asJson then plan.toJson else plan.describe) ++ "\n"

/-- **Plan of a form shown.** -/
def showPlan (settings : Settings) (path : String) (asJson : Bool) : Run Unit := do
  let form ← Form.load path
  let plan ← Run.orFail (form.plan settings.codegen) (.plan form.host)
  Run.print (planText plan asJson)

/-! ## Code -/

/-- **Options of an expansion**: binding may be asked for in either place. -/
def expandOptions (settings : Settings) (dataBinding : Bool) : Options :=
  { settings.codegen with dataBinding := dataBinding || settings.codegen.dataBinding }

/-- **Source text** of code generated from the form at a path. -/
def sourceText (path code : String) : String :=
  "// Generated by formwire from " ++ path ++ ". Do not edit.\n" ++ code ++ "\n"

/-- **Source generated** from the form in a file. -/
def generate (settings : Settings) (path : String) (dataBinding : Bool) : Run String := do
  let form ← Form.load path
  let options := expandOptions settings dataBinding
  Run.log (form.compileLog options)
  let code ← Run.orFail (form.expand options) (.compile form.host)
  pure (sourceText path code)

/-- **Directories made** for a file to be written. -/
def makeParent (path : String) : Run Unit := do
  match Path.parent? path with
  | none => pure ()
  | some parent =>
    if parent = "" then pure ()
    else do
      let m ← get
      let (result, files) := m.files.makeDirectories parent
      set { m with files := files }
      Run.orFail result (.makeDirectory parent)

/-- **File written.** -/
def writeFile (path text : String) : Run Unit := do
  let m ← get
  let files ← Run.orFail (m.files.write path (FileSystem.bytesOfText text)) (.write path)
  set { m with files := files }
  Run.log [.wrote path]

/-- **Code of a form written**: to a file, or printed. -/
def expandForm (settings : Settings) (path : String) (dataBinding : Bool) (output : Option String) :
    Run Unit := do
  let source ← generate settings path dataBinding
  match output with
  | some target => do
    makeParent target
    writeFile target source
  | none => Run.print source

/-! ## Execution -/

/-- **Command run under settings.** -/
def runUnder (settings : Settings) : Command → Run Unit
  | plan form asJson => showPlan settings form asJson
  | expand form dataBinding output => expandForm settings form dataBinding output

/-- **Command run**, with the settings at a path or the default ones. -/
def run (config : Option String) (command : Command) : Run Unit := do
  let settings ← Settings.forCommand config
  command.runUnder settings

/-- **Outcome on a machine**: success or a failure, and the machine after it. -/
def execute (config : Option String) (command : Command) (m : Machine) : Except Failure Unit × Machine :=
  (command.run config).run m

end Command

end FormWiring
