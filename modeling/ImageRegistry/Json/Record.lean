import Std.Data.ExtTreeMap
import ImageRegistry.Json.Value

/-! Reading documents into values. A record is written as an object with the names of its
fields, or as an array of its fields in their order, in which fields at the end may be left
out. -/

namespace ImageRegistry.Json

def text? : Json → Option String
  | string o => o.toText?
  | _ => none

/-- The truth value that a document is. -/
def bool? : Json → Option Bool
  | bool b => some b
  | _ => none

/-- The natural number below `limit` that a document is. -/
def natural? (limit : Nat) : Json → Option Nat
  | number n => n.natural?.bind fun n => if n < limit then some n else none
  | _ => none

/-- A number of 32 bits. -/
def word32? (v : Json) : Option Nat := v.natural? UInt32.size

/-- A number of 64 bits. -/
def word64? (v : Json) : Option Nat := v.natural? UInt64.size

def list? {α : Type} (read : Json → Option α) : Json → Option (List α)
  | array items => items.mapM read
  | _ => none

def nullable? {α : Type} (read : Json → Option α) : Json → Option (Option α)
  | null => some none
  | v => (read v).map some

abbrev TextMap := Std.ExtTreeMap String String

/-- A member whose key and value are texts. -/
def textEntry? (m : Octets × Json) : Option (String × String) := do
  some (← m.1.toText?, ← m.2.text?)

/-- The texts of an object by their keys; of equal keys the last one counts. -/
def textMap? : Json → Option TextMap
  | object members => (members.mapM textEntry?).map fun entries => .ofList entries
  | _ => none

/-- The object that holds texts by their keys, in the order of the keys. -/
def ofTextMap (m : TextMap) : Json := ofMembers (m.toList.map fun (k, v) => (k, text v))

/-- The fields that a document gives for a record. -/
structure Fields where
  entries : List (String × Json)

namespace Fields

/-- Collects the members that are fields; a field must not be given twice, and in a closed
record each member must be a field. -/
def collect? (names : List String) (closed : Bool) :
    List (Octets × Json) → List (String × Json) → Option Fields
  | [], found => some ⟨found⟩
  | (key, v) :: rest, found =>
    match key.toText? with
    | none => none
    | some key =>
      if names.contains key then
        if (found.lookup key).isSome then none else collect? names closed rest ((key, v) :: found)
      else if closed then none
      else collect? names closed rest found

def ofJson? (names : List String) (closed : Bool) : Json → Option Fields
  | object members => collect? names closed members []
  | array items => if items.length ≤ names.length then some ⟨names.zip items⟩ else none
  | _ => none

def get? (fields : Fields) (name : String) : Option Json := fields.entries.lookup name

def required {α : Type} (fields : Fields) (name : String) (read : Json → Option α) : Option α :=
  (fields.get? name).bind read

/-- A field that may be left out, and is then `default`. -/
def defaulted {α : Type} (fields : Fields) (name : String) (default : α)
    (read : Json → Option α) : Option α :=
  (fields.get? name).elim (some default) read

/-- A field that may be left out or null. -/
def optional {α : Type} (fields : Fields) (name : String) (read : Json → Option α) :
    Option (Option α) :=
  fields.defaulted name none (nullable? read)

end Fields

/-- The depth of arrays and objects that a generic document may have. -/
def maxDepth : Nat := 127

mutual

/-- Reads a generic document, which may still open `depth` arrays and objects: strings have to
be texts, numbers have to be finite, and of members with equal keys the last one stays. -/
def generic? (depth : Nat) : Json → Option Json
  | string o => o.toText?.map fun _ => string o
  | number n => if n.isFinite then some (number n) else none
  | array items =>
    match depth with
    | 0 => none
    | depth + 1 => (genericItems? depth items).map array
  | object members =>
    match depth with
    | 0 => none
    | depth + 1 => (genericMembers? depth members).map object
  | v => some v

def genericItems? (depth : Nat) : List Json → Option (List Json)
  | [] => some []
  | v :: rest =>
    match generic? depth v with
    | none => none
    | some v => (genericItems? depth rest).map (v :: ·)

/-- Reads the members of a generic document, and drops those that a later one replaces. -/
def genericMembers? (depth : Nat) : List (Octets × Json) → Option (List (Octets × Json))
  | [] => some []
  | (k, v) :: rest =>
    match k.toText?, generic? depth v with
    | some _, some v =>
      (genericMembers? depth rest).map fun rest =>
        if rest.any fun m => m.1 == k then rest else (k, v) :: rest
    | _, _ => none

end

end ImageRegistry.Json
