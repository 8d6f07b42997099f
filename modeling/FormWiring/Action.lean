/-!
# Actions

The two things a host lets its user do with its validators: evaluate them, and clear what they show. Each is
wired to one element. Among elements that are tagged with a role, the first of each role is taken.

Main definition: `selectActions`.
-/

set_option autoImplicit false

namespace FormWiring

/-- **Actions** of a host. -/
inductive Action where
  | validate
  | clear
  deriving DecidableEq, Repr

/-- **Attribute** that declares an action. -/
def Action.attributeName : Action → String
  | .validate => "validate_on_click"
  | .clear => "clear_validations_on_click"

/-- **Action of an attribute name**, if it is one. -/
def Action.ofAttributeName? (name : String) : Option Action :=
  if name = Action.validate.attributeName then some .validate
  else if name = Action.clear.attributeName then some .clear
  else none

/-! ## Selection -/

/-- **Selected elements**, by position. -/
structure SelectedActions where
  validate : Option Nat := none
  clear : Option Nat := none
  deriving DecidableEq, Repr, Inhabited

namespace SelectedActions

/-- **Selection after one more element**: the first of a role stays. -/
def see (s : SelectedActions) (index : Nat) : Option Action → SelectedActions
  | some .validate => { s with validate := s.validate.or (some index) }
  | some .clear => { s with clear := s.clear.or (some index) }
  | none => s

/-- **Both roles found.** -/
def isComplete (s : SelectedActions) : Bool :=
  s.validate.isSome && s.clear.isSome

end SelectedActions

/-- **Scan of elements** from a position on: the selection, and how often the role of each was read. The scan
stops once both roles are found. -/
def scanActions (s : SelectedActions) (index : Nat) : List (Option Action) → SelectedActions × List Nat
  | [] => (s, [])
  | role :: roles =>
    let s := s.see index role
    if s.isComplete then (s, 1 :: roles.map fun _ => 0)
    else
      let (found, reads) := scanActions s (index + 1) roles
      (found, 1 :: reads)

/-- **Selection among elements** by their roles, and how often each role was read. -/
def selectActions (roles : List (Option Action)) : SelectedActions × List Nat :=
  scanActions {} 0 roles

end FormWiring
