import FormWiring.Code.Literal
import FormWiring.Form

/-!
# Host types

The declaration of a host type in source code, as far as its form depends on it: attributes, visibility, name
and fields.
-/

set_option autoImplicit false

namespace FormWiring

open Code

/-! ## Types -/

/-- **What follows the path of an attribute**: nothing, a group, or a value after an equals sign. -/
inductive AttributeBody where
  | bare
  | list (inside : List Token)
  | value
  deriving Repr, Inhabited

/-- **Attribute**: its name, when its path is one plain name, and what follows. -/
structure Attribute where
  name : Option String
  body : AttributeBody
  deriving Repr, Inhabited

/-- **Field of a host type**; the fields of a tuple have no name. -/
structure HostField where
  attributes : List Attribute
  name : Option String
  deriving Repr, Inhabited

/-- **Shape of a host type.** -/
inductive HostShape where
  | named (fields : List HostField)
  | tuple (fields : List HostField)
  | plain
  /-- Not a structure at all. -/
  | other
  deriving Repr, Inhabited

/-- **Host type.** -/
structure HostType where
  attributes : List Attribute
  visibility : Visibility
  name : String
  isGeneric : Bool
  shape : HostShape
  deriving Repr, Inhabited

end FormWiring
