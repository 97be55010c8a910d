import ImageRegistry.Storage.Disk
import ImageRegistry.Storage.Memory

/-! A storage backend of either kind, and what each call answers and leaves behind. -/

namespace ImageRegistry

/-- A storage backend. -/
inductive Backend where
  | memory (m : Memory)
  | disk (d : Disk)

namespace Backend

def name : Backend → String
  | memory _ => Memory.engine
  | disk d => d.name

def metadata (b : Backend) (bucket : String) (key : Path) : Except StorageError Nat :=
  match b with
  | memory m => m.metadata bucket key
  | disk d => d.metadata bucket key

def download (b : Backend) (bucket : String) (key : Path) : Except StorageError Octets :=
  match b with
  | memory m => m.download bucket key
  | disk d => d.download bucket key

def upload (b : Backend) (bucket : String) (key : Path) (content : Octets) :
    Except StorageError Unit × Backend :=
  match b with
  | memory m => (.ok (), memory (m.upload bucket key content))
  | disk d =>
    let (d, reply) := d.upload bucket key content
    (reply, disk d)

/-- Removes a key, which need not exist. -/
def delete (b : Backend) (bucket : String) (key : Path) : Except StorageError Unit × Backend :=
  match b with
  | memory m =>
    match m.delete bucket key with
    | .ok m => (.ok (), memory m)
    | .error e => (.error e, b)
  | disk d =>
    match d.delete bucket key with
    | .ok d => (.ok (), disk d)
    | .error e => (.error e, b)

/-- The keys at or below a path, or all keys. -/
def list (b : Backend) (bucket : String) (base : Option Path) : Except StorageError (List Path) :=
  match b with
  | memory m => m.list bucket base
  | disk d => .ok (d.list bucket base)

end Backend
end ImageRegistry
