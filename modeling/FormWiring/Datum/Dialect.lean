import FormWiring.Datum

/-!
# Reading structures from data

The two written forms of data differ in what they accept for a structure or a named choice. A structure is a
record, or a list of its parts in order; a named choice is its name, or a record with the name as its only
key. What may stand under that key, and whether a list may be too long, is a matter of the dialect.
-/

set_option autoImplicit false

namespace FormWiring

/-- **Dialects** of written data. -/
inductive Dialect where
  | json
  | toml
  deriving DecidableEq, Repr

namespace Datum

/-- **Nothing more to say** about a choice that has no parts. -/
def isUnit (dialect : Dialect) : Datum → Bool
  | null => dialect == .json
  | list [] | record [] => dialect == .toml
  | _ => false

/-- **Name of a choice** without parts. -/
def toChoice? (dialect : Dialect) : Datum → Option String
  | text name => some name
  | record [(name, parts)] => if parts.isUnit dialect then some name else none
  | _ => none

/-- **Parts of a structure**, by name. -/
def toParts? (dialect : Dialect) (names : List String) : Datum → Option (String → Option Datum)
  | record entries => some fun name => entry? name entries
  | list items =>
    if dialect = .json ∧ names.length < items.length then none
    else some fun name => (names.zip items).lookup name
  | _ => none

/-- **Value that may be left out**: a JSON `null` counts as left out. -/
def toOptional? {α : Type} (dialect : Dialect) (decode : Datum → Option α) (d : Datum) :
    Option (Option α) :=
  match d with
  | null => if dialect = .json then some none else (decode null).map some
  | _ => (decode d).map some

/-- **Part with a default**: a part that is there must decode. -/
def partOr {α : Type} (part : Option Datum) (fallback : α) (decode : Datum → Option α) : Option α :=
  match part with
  | none => some fallback
  | some d => decode d

end Datum

end FormWiring
