/-!
# Error messages

An error text is either quoted where the rule is declared or looked up by a resource number. A number that
is set wins over the quoted text.
-/

set_option autoImplicit false

namespace FormWiring

/-- **Unset resource number.** -/
def unsetResource : Int32 := -1

/-- **Message source**: where the text of an error comes from. -/
inductive MessageSource where
  | resource (id : Int32)
  | literal (text : String)
  deriving DecidableEq, Repr, Inhabited

namespace MessageSource

/-- **Choice of the source.** A resource number wins whenever it is set. -/
def choose (resource : Int32) (text : String) : MessageSource :=
  if resource = unsetResource then .literal text else .resource resource

/-- **Text of a source**, given the host's look-up. -/
def text (lookup : Int32 → String) : MessageSource → String
  | .resource id => lookup id
  | .literal s => s

@[simp] theorem choose_unset (s : String) : choose unsetResource s = .literal s := by
  simp [choose]

theorem choose_of_ne {id : Int32} (h : id ≠ unsetResource) (s : String) :
    choose id s = .resource id := by
  simp [choose, h]

end MessageSource

end FormWiring
