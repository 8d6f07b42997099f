import FormWiring.ValidatorSet

/-!
# Sessions

A screen with validators bound to it and a set of them, driven step by step: texts are entered, the set is
evaluated and cleared, and single validators are evaluated, cleared or added once more.
-/

set_option autoImplicit false

namespace FormWiring

/-! ## Types -/

/-- **Session**: the screen, the validators built, and the set. -/
structure Session where
  screen : Screen
  built : List Validator
  set : ValidatorSet
  deriving DecidableEq, Repr, Inhabited

/-- **Steps** of a session. -/
inductive Step where
  | enter (input text : String)
  | evaluate
  | clear
  | size
  | evaluateOne (index : Nat)
  | clearOne (index : Nat)
  | add (index : Nat)
  deriving DecidableEq, Repr

/-- **Answers** to steps. -/
inductive StepAnswer where
  | nothing
  | verdict (valid : Bool)
  | size (count : Nat)
  /-- The message of a validator that failed, if it did. -/
  | failure (message : Option String)
  deriving DecidableEq, Repr

/-! ## Steps -/

/-- **Screen with validators bound to it**, in order. -/
def Screen.attachAll (s : Screen) (vs : List Validator) : Screen :=
  vs.foldl Validator.attach s

/-- **Screen with given texts**, shown to no validator yet. -/
def Screen.ofTexts (texts : List (String × String)) : Screen :=
  texts.foldl (fun s (name, text) => s.update name fun i => { i with text := text }) {}

namespace Session

/-- **Session at its start**: all validators are bound and in the set. -/
def start (s : Screen) (vs : List Validator) : Session :=
  ⟨s.attachAll vs, vs, ⟨vs, []⟩⟩

/-- **Session after a step**, and the answer. -/
def step (session : Session) : Step → Session × StepAnswer
  | .enter input text => ({ session with screen := session.screen.enter input text }, .nothing)
  | .evaluate =>
    let (valid, screen, set) := session.set.evaluate session.screen
    ({ session with screen := screen, set := set }, .verdict valid)
  | .clear =>
    let (screen, set) := session.set.clear session.screen
    ({ session with screen := screen, set := set }, .nothing)
  | .size => (session, .size session.set.validators.length)
  | .evaluateOne index =>
    match session.built[index]? with
    | some v => ({ session with screen := v.evaluate session.screen }, .failure (v.failure? session.screen))
    | none => (session, .nothing)
  | .clearOne index =>
    match session.built[index]? with
    | some v => ({ session with screen := v.clear session.screen }, .nothing)
    | none => (session, .nothing)
  | .add index =>
    match session.built[index]? with
    | some v => ({ session with set := session.set.add v }, .nothing)
    | none => (session, .nothing)

/-- **Session after steps.** -/
def run (session : Session) (steps : List Step) : Session :=
  steps.foldl (fun session step => (session.step step).1) session

/-- **What a step logs**: one record an evaluation of the set. -/
def stepLog (session : Session) (step : Step) : List LogRecord :=
  match step with
  | .evaluate =>
    let (valid, _, set) := session.set.evaluate session.screen
    [set.evaluationLog valid]
  | _ => []

end Session

end FormWiring
