import Std.Data.ExtTreeMap
import ImageRegistry.Storage.Path
import ImageRegistry.Storage.StorageError
import ImageRegistry.Text.Octets

/-! Buckets kept in memory. A bucket maps the components of keys to contents, and remembers how
each key was first written. -/

namespace ImageRegistry

/-- A stored content with the first spelling of its key. -/
structure Stored where
  spelling : Path
  content : Octets
  deriving DecidableEq

/-- What a bucket holds, by the components of the keys. -/
abbrev Bucket := Std.ExtTreeMap (List Component) Stored

namespace Bucket

def content? (b : Bucket) (key : Path) : Option Octets := b[key.components]?.map Stored.content

/-- The bucket with a content put in. An older spelling of the key stays. -/
def put (b : Bucket) (key : Path) (content : Octets) : Bucket :=
  b.insert key.components { spelling := (b[key.components]?.map Stored.spelling).getD key, content }

def remove (b : Bucket) (key : Path) : Bucket := b.erase key.components

/-- The keys at or below a path, or all keys, in the order of their components. -/
def keys (b : Bucket) (base : Option Path) : List Path :=
  (b.toList.filter fun entry => base.all fun base => base.components.isPrefixOf entry.1).map
    fun entry => entry.2.spelling

end Bucket

/-- Buckets by name. -/
structure Memory where
  buckets : Std.ExtTreeMap String Bucket

namespace Memory

/-- The name of this kind of storage. -/
def engine : String := "memory"

def ofBuckets (names : List String) : Memory := ⟨.ofList (names.map fun n => (n, ∅))⟩

def missingBucket (bucket : String) : StorageError where
  kind := .notFound
  engine := engine
  bucket := some bucket
  context := some "bucket not found"
  source := s!"Bucket not found: {bucket}"

def bucket (m : Memory) (name : String) : Except StorageError Bucket :=
  match m.buckets[name]? with
  | some b => .ok b
  | none => .error (missingBucket name)

/-- Makes an empty bucket, unless there is one. -/
def createBucket (m : Memory) (name : String) : Memory := ⟨m.buckets.insertIfNew name ∅⟩

def download (m : Memory) (bucket : String) (key : Path) : Except StorageError Octets := do
  match (← m.bucket bucket).content? key with
  | some content => return content
  | none => throw (.missing engine bucket key.text)

def metadata (m : Memory) (bucket : String) (key : Path) : Except StorageError Nat := do
  match (← m.bucket bucket).content? key with
  | some content => return content.length
  | none => throw (.missing engine bucket key.text)

/-- Stores a content, in a new bucket if need be. -/
def upload (m : Memory) (bucket : String) (key : Path) (content : Octets) : Memory :=
  ⟨m.buckets.insert bucket (((m.buckets[bucket]?).getD ∅).put key content)⟩

/-- Removes a key, which need not exist. -/
def delete (m : Memory) (bucket : String) (key : Path) : Except StorageError Memory := do
  return ⟨m.buckets.insert bucket ((← m.bucket bucket).remove key)⟩

/-- The keys at or below a path, or all keys. -/
def list (m : Memory) (bucket : String) (base : Option Path) : Except StorageError (List Path) :=
  return (← m.bucket bucket).keys base

end Memory
end ImageRegistry
