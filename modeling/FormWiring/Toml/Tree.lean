import FormWiring.Datum

/-!
# Tables of TOML

The lines of a TOML text open tables and set keys in them; together they make a tree. A table may be opened by
a header once, may be implied by the headers of tables within it, or may be made by dotted keys. Which of the
three it was decides what later lines may still do to it.

Main definitions: `Table.openTable`, `Table.openElement`, `Table.define`, `Table.toDatum`.
-/

set_option autoImplicit false

namespace FormWiring.Toml

/-! ## Types -/

/-- **How a table came about.** -/
inductive Origin where
  /-- By a header of its own, or as an element of an array. -/
  | header
  /-- By a header further down. -/
  | implied
  /-- By a dotted key. -/
  | dotted
  deriving DecidableEq, Repr

/-- **Items** under a key. -/
inductive Item where
  | value (d : Datum)
  | table (origin : Origin) (entries : List (String × Item))
  /-- An array of tables, made by headers. -/
  | elements (tables : List (List (String × Item)))
  deriving Repr

/-- **Entries** of a table. -/
abbrev Entries : Type := List (String × Item)

/-- **Table.** -/
structure Table where
  origin : Origin := .header
  entries : Entries := []

/-- **Dotted key**: the tables it goes through, and the key in the last one. -/
structure Key where
  path : List String
  name : String
  deriving DecidableEq, Repr

/-! ## Data -/

mutual

/-- **Datum of an item.** -/
def Item.toDatum : Item → Datum
  | .value d => d
  | .table _ entries => .record (entryData entries)
  | .elements tables => .list (elementData tables)

/-- **Data of entries.** -/
def entryData : List (String × Item) → List (String × Datum)
  | [] => []
  | (key, item) :: rest => (key, item.toDatum) :: entryData rest

/-- **Data of the elements** of an array. -/
def elementData : List (List (String × Item)) → List Datum
  | [] => []
  | entries :: rest => .record (entryData entries) :: elementData rest

end

/-- **Datum of a table.** -/
def Table.toDatum (t : Table) : Datum :=
  .record (entryData t.entries)

/-! ## Changes -/

/-- **Entries with a key set**; a key that is there keeps its place. -/
def putItem (key : String) (item : Item) : Entries → Entries
  | [] => [(key, item)]
  | (k, i) :: rest => if k = key then (k, item) :: rest else (k, i) :: putItem key item rest

namespace Table

/-- **Table with an item set.** -/
def put (t : Table) (key : String) (item : Item) : Table :=
  { t with entries := putItem key item t.entries }

/-- **Change of the table at a path.** Missing tables are made with the given origin; the last element stands
for an array; a dotted key does not go through a table that has a header. -/
def descend (origin : Origin) (change : Table → Option Table) : List String → Table → Option Table
  | [], t => change t
  | key :: rest, t =>
    match t.entries.lookup key with
    | none =>
      (descend origin change rest ⟨origin, []⟩).map fun child => t.put key (.table child.origin child.entries)
    | some (.value _) => none
    | some (.table made entries) =>
      if origin = .dotted ∧ made = .header then none
      else
        (descend origin change rest ⟨made, entries⟩).map fun child =>
          t.put key (.table child.origin child.entries)
    | some (.elements tables) =>
      match tables.getLast? with
      | none => none
      | some last =>
        (descend origin change rest ⟨.header, last⟩).map fun child =>
          t.put key (.elements (tables.dropLast ++ [child.entries]))

/-- **Table opened by its header**: new, or until now only implied. -/
def openTable (key : Key) : Table → Option Table :=
  descend .implied (fun parent =>
    match parent.entries.lookup key.name with
    | none => some (parent.put key.name (.table .header []))
    | some (.table .implied entries) => some (parent.put key.name (.table .header entries))
    | some _ => none) key.path

/-- **Element opened by its header**, at the end of its array. -/
def openElement (key : Key) : Table → Option Table :=
  descend .implied (fun parent =>
    match parent.entries.lookup key.name with
    | none => some (parent.put key.name (.elements [[]]))
    | some (.elements tables) => some (parent.put key.name (.elements (tables ++ [[]])))
    | some _ => none) key.path

/-- **Key set to a value**, once. The last table of a dotted key must have been made by dotted keys. -/
def define (key : Key) (d : Datum) : Table → Option Table :=
  descend .dotted (fun t =>
    if (t.origin = .dotted ↔ key.path = []) ∨ (t.entries.lookup key.name).isSome then none
    else some (t.put key.name (.value d))) key.path

/-- **Key set to a value** within the table last opened by a header. -/
def defineAt (opened : List String) (key : Key) (d : Datum) : Table → Option Table :=
  descend .implied (define key d) opened

end Table

end FormWiring.Toml
