import FormWiring.Validator

/-!
# Validator sets

The validators of one host, evaluated together: every one is evaluated, in the order of insertion, even after a
failure, and the messages of the failures are kept until the next evaluation or clearing.
-/

set_option autoImplicit false

namespace FormWiring

/-- **Validator set**: its validators in order of insertion, and the messages of the last evaluation. -/
structure ValidatorSet where
  validators : List Validator := []
  errors : List String := []
  deriving DecidableEq, Repr, Inhabited

/-- **Evaluation of validators in order**: the screen after it and the messages of the failures. -/
def evaluateAll (s : Screen) : List Validator → Screen × List String
  | [] => (s, [])
  | v :: vs =>
    let (after, errors) := evaluateAll (v.evaluate s) vs
    (after, (v.failure? s).toList ++ errors)

namespace ValidatorSet

/-- **Set with one more validator.** -/
def add (set : ValidatorSet) (v : Validator) : ValidatorSet :=
  { set with validators := set.validators ++ [v] }

/-- **Set with more validators.** -/
def addAll (set : ValidatorSet) (vs : List Validator) : ValidatorSet :=
  { set with validators := set.validators ++ vs }

/-- **Evaluation of a set**: the verdict, the screen after it and the set with its messages. -/
def evaluate (set : ValidatorSet) (s : Screen) : Bool × Screen × ValidatorSet :=
  let (after, errors) := evaluateAll s set.validators
  (errors.isEmpty, after, { set with errors := errors })

/-- **Clearing of a set**: the screen after it and the set without messages. -/
def clear (set : ValidatorSet) (s : Screen) : Screen × ValidatorSet :=
  (set.validators.foldl Validator.clear s, { set with errors := [] })

/-- **What is logged by an evaluation** that left a set and a verdict. -/
def evaluationLog (set : ValidatorSet) (valid : Bool) : LogRecord :=
  .evaluated set.validators.length valid set.errors.length

end ValidatorSet

end FormWiring
