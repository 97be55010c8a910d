import ImageRegistry.Json.Record
import ImageRegistry.Storage.Backend

/-! The storage that a configuration asks for: memory with one bucket, a directory, or a
directory of its own that is made for one run. -/

namespace ImageRegistry

/-- A choice of storage. -/
inductive StorageChoice where
  | memory (bucket : String)
  | directory (path : String)
  | temporary
  deriving DecidableEq, Repr

namespace StorageChoice

def onlyField? (name : String) (v : Json) : Option String := do
  (← Json.Fields.ofJson? [name] false v).required name Json.text?

/-- Reads a choice: the word for a temporary directory, or an object whose only member names
the kind of storage. -/
def ofJson? : Json → Option StorageChoice
  | .object [(kind, v)] => do
    match ← kind.toText? with
    | "memory" => memory <$> onlyField? "bucket" v
    | "local" => directory <$> onlyField? "path" v
    | "temp" => match v with
      | .null => some temporary
      | _ => none
    | _ => none
  | .string word => if word.toText? = some "temp" then some temporary else none
  | _ => none

/-- The place of the directory that is made for one run. -/
def temporaryRoot : Path := ⟨"/tmp/registry"⟩

/-- Makes the chosen storage, with the disks that there are at given roots. -/
def backendOver (disks : Path → Disk) : StorageChoice → Backend
  | memory bucket => .memory (.ofBuckets [bucket])
  | directory path => .disk (disks ⟨path⟩)
  | temporary => .disk (.empty "temp" temporaryRoot)

/-- Makes the chosen storage, empty. -/
def backend : StorageChoice → Backend := backendOver (.empty Disk.engine)

end StorageChoice
end ImageRegistry
