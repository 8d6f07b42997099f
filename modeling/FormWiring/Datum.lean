/-!
# Data

The tree shared by the two written forms of data, JSON and TOML. Models, settings and descriptors are read
from it and written to it. A record keeps its entries in the order in which their keys first appeared, each
key once.
-/

set_option autoImplicit false

namespace FormWiring

/-- **Data tree.** A number that is no integer in range keeps its digits as written. -/
inductive Datum where
  | null
  | bool (value : Bool)
  | int (value : Int)
  | real (digits : String)
  | text (value : String)
  | list (items : List Datum)
  | record (entries : List (String × Datum))
  deriving Repr, Inhabited

namespace Datum

/-! ## Records -/

/-- **Entry of a key**, if the list has one. -/
def entry? (key : String) (entries : List (String × Datum)) : Option Datum :=
  entries.lookup key

/-- **Entries with a key set.** A key that is there keeps its place and takes the new value. -/
def putEntry (key : String) (value : Datum) : List (String × Datum) → List (String × Datum)
  | [] => [(key, value)]
  | (k, v) :: rest => if k = key then (k, value) :: rest else (k, v) :: putEntry key value rest

/-- **Value under a key** of a record. -/
def get? (key : String) : Datum → Option Datum
  | record entries => entry? key entries
  | _ => none

/-! ## Plain values -/

/-- **Truth value**, if it is one. -/
def toBool? : Datum → Option Bool
  | bool value => some value
  | _ => none

/-- **Text**, if it is one. -/
def toText? : Datum → Option String
  | text value => some value
  | _ => none

/-- **Integer**, if it is one. -/
def toInt? : Datum → Option Int
  | int value => some value
  | _ => none

/-- **Items of a list**, if it is one. -/
def toItems? : Datum → Option (List Datum)
  | list items => some items
  | _ => none

/-- **Entries of a record**, if it is one. -/
def toEntries? : Datum → Option (List (String × Datum))
  | record entries => some entries
  | _ => none

/-- **Integer of 64 bits**, if it is one. -/
def toInt64? : Datum → Option Int64
  | int value =>
    if Int64.minValue.toInt ≤ value ∧ value ≤ Int64.maxValue.toInt then some (Int64.ofInt value) else none
  | _ => none

/-- **Integer of 32 bits**, if it is one. -/
def toInt32? : Datum → Option Int32
  | int value =>
    if Int32.minValue.toInt ≤ value ∧ value ≤ Int32.maxValue.toInt then some (Int32.ofInt value) else none
  | _ => none

end Datum

end FormWiring
