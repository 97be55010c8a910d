import ImageRegistry.Program.DescriptorCache
import ImageRegistry.Program.Program
import ImageRegistry.Storage.Backend

/-! What a registry runs against: a bucket of a storage backend and a descriptor cache. Calls
of the storage can be made to fail. -/

namespace ImageRegistry

/-- Makes calls of the storage fail. -/
structure Fault where
  /-- The name of the calls that fail. -/
  call : String
  /-- What their keys contain. -/
  fragment : String
  kind : StorageErrorKind
  /-- How many of these calls are let through first. -/
  skip : Nat
  deriving DecidableEq, Repr

namespace Fault

def isFor (fault : Fault) (call : String) (key : Path) : Bool :=
  fault.call == call && occurs fault.fragment.toList key.text.toList

def next (call : String) (key : Path) : List Fault → Option StorageErrorKind × List Fault
  | [] => (none, [])
  | fault :: rest =>
    if fault.isFor call key then
      if fault.skip = 0 then (some fault.kind, fault :: rest)
      else
        let (kind, rest) := next call key rest
        (kind, { fault with skip := fault.skip - 1 } :: rest)
    else
      let (kind, rest) := next call key rest
      (kind, fault :: rest)

end Fault

/-- What a registry runs against. -/
structure World where
  backend : Backend
  /-- The bucket in which everything is stored. -/
  bucket : String
  /-- Where clients reach the buckets, if they can. -/
  locationBase : Option String := none
  faults : List Fault := []
  cache : DescriptorCache := .empty

namespace World

/-- The bucket that is used if none is named. -/
def defaultBucket : String := "registry"

/-- Puts a world together, for which there has to be a storage. -/
def assemble (backend : Option Backend) (bucket : Option String) : Except RegistryError World :=
  match backend with
  | none => .error (.config .noStorage)
  | some backend => .ok { backend, bucket := bucket.getD defaultBucket }

/-- The failure of a call that was made to fail. -/
def injected (w : World) (kind : StorageErrorKind) (call : String) (key : Path) : StorageError where
  kind := kind
  engine := Memory.engine
  bucket := some w.bucket
  path := some key.text
  context := some call
  source := "injected"

def reply (w : World) : (c : Call) → c.Reply × World
  | .metadata key => (w.backend.metadata w.bucket key, w)
  | .download key => (w.backend.download w.bucket key, w)
  | .upload key content =>
    let (reply, backend) := w.backend.upload w.bucket key content
    (reply, { w with backend })
  | .list base => (w.backend.list w.bucket (some base), w)
  | .delete key =>
    let (reply, backend) := w.backend.delete w.bucket key
    (reply, { w with backend })
  | .urlFor key => (.ok (w.locationBase.map fun base => s!"{base}/{w.bucket}/{key}"), w)
  | .openCache repository => (w.cache.openFor repository, w)
  | .lookUp repository d => (w.cache.lookUp (some repository) d, w)
  | .remember repository d descriptor =>
    let (reply, cache) := w.cache.remember (some repository) d descriptor
    (reply, { w with cache })
  | .forget repository d =>
    let (reply, cache) := w.cache.forget (some repository) d
    (reply, { w with cache })

def answer (w : World) (c : Call) : c.Reply × World :=
  match c.storageSite? with
  | none => w.reply c
  | some (call, key) =>
    match Fault.next call key w.faults with
    | (none, faults) => { w with faults }.reply c
    | (some kind, faults) =>
      (c.fail (w.injected kind call key) DescriptorCache.down, { w with faults })

def run {α : Type} (w : World) (a : Action α) : Except RegistryError α × World :=
  a.run answer w

end World
end ImageRegistry
