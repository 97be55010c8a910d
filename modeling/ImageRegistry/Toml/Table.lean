import ImageRegistry.Json.Value

/-! Tables of configuration texts, while they are put together. A table is opened once: by its
header, or by the dotted keys that lead into it. Tables on the way to a header are implied, and
may be opened later. -/

namespace ImageRegistry.Toml

/-- How a table came to be. -/
inductive TableKind where
  /-- On the way to the header of another table. -/
  | implied
  /-- By dotted keys. -/
  | dotted
  /-- By its own header. -/
  | opened
  deriving DecidableEq, Repr

/-- What stands under a key. -/
inductive Entry where
  | value (v : Json)
  | table (kind : TableKind) (entries : List (String × Entry))
  /-- Tables under one header, the last first. -/
  | tables (items : List (List (String × Entry)))

/-- The entries of a table in the order in which their keys were met. -/
abbrev Table := List (String × Entry)

namespace Table

def update (key : String) (change : Option Entry → Option Entry) : Table → Option Table
  | [] => (change none).map fun entry => [(key, entry)]
  | (k, entry) :: rest =>
    if k = key then (change (some entry)).map fun entry => (k, entry) :: rest
    else (update key change rest).map ((k, entry) :: ·)

/-- Adds a value under a key, which is not taken, in the table to which dotted keys lead. -/
def add (path : List String) (key : String) (v : Json) (table : Table) : Option Table :=
  match path with
  | [] => table.update key fun
    | none => some (.value v)
    | some _ => none
  | k :: path => table.update k fun
    | none => (add path key v []).map (.table .dotted)
    | some (.table .dotted entries) => (add path key v entries).map (.table .dotted)
    | some (.table .implied entries) =>
      if path.isEmpty then none else (add path key v entries).map (.table .implied)
    | some _ => none

/-- Changes what stands under the last of the keys of a header. -/
def atHeader (path : List String) (key : String) (change : Option Entry → Option Entry)
    (table : Table) : Option Table :=
  match path with
  | [] => table.update key change
  | k :: path => table.update k fun
    | none => (atHeader path key change []).map (.table .implied)
    | some (.table kind entries) => (atHeader path key change entries).map (.table kind)
    | some (.tables (last :: items)) =>
      (atHeader path key change last).map fun last => .tables (last :: items)
    | some _ => none

mutual

def entryJson : Entry → Json
  | .value v => v
  | .table _ entries => .object (membersJson entries)
  | .tables items => .array (itemsJson items).reverse

def membersJson : List (String × Entry) → List (Octets × Json)
  | [] => []
  | (key, entry) :: rest => (Octets.ofText key, entryJson entry) :: membersJson rest

def itemsJson : List (List (String × Entry)) → List Json
  | [] => []
  | entries :: rest => .object (membersJson entries) :: itemsJson rest

end

def toJson (table : Table) : Json := .object (membersJson table)

end Table
end ImageRegistry.Toml
