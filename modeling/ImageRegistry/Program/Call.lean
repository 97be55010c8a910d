import ImageRegistry.Content.Descriptor
import ImageRegistry.Naming.RepositoryName
import ImageRegistry.RegistryError
import ImageRegistry.Storage.Path

/-! The calls with which a registry reaches its bucket and its descriptor cache, and what is
replied to each. -/

namespace ImageRegistry

/-- A call of a registry. -/
inductive Call where
  /-- The size of a key. -/
  | metadata (key : Path)
  /-- The content of a key. -/
  | download (key : Path)
  | upload (key : Path) (content : Octets)
  /-- The keys at or below a path. -/
  | list (base : Path)
  | delete (key : Path)
  /-- A location from which clients can fetch a key directly. -/
  | urlFor (key : Path)
  /-- Asks whether there is a descriptor cache for a repository. -/
  | openCache (repository : RepositoryName)
  /-- The descriptor that the cache keeps for a digest. -/
  | lookUp (repository : RepositoryName) (digest : Digest)
  /-- Keeps a descriptor in the cache. -/
  | remember (repository : RepositoryName) (digest : Digest) (descriptor : Descriptor)
  /-- Drops a descriptor from the cache. -/
  | forget (repository : RepositoryName) (digest : Digest)
  deriving DecidableEq

namespace Call

def Reply : Call → Type
  | metadata _ => Except StorageError Nat
  | download _ => Except StorageError Octets
  | upload _ _ => Except StorageError Unit
  | list _ => Except StorageError (List Path)
  | delete _ => Except StorageError Unit
  | urlFor _ => Except StorageError (Option String)
  | openCache _ => Except RegistryError Unit
  | lookUp _ _ => Except RegistryError Descriptor
  | remember _ _ _ => Except RegistryError Unit
  | forget _ _ => Except RegistryError Unit

/-- The name of a call of the storage, and the key or the path that it names. -/
def storageSite? : Call → Option (String × Path)
  | metadata key => some ("metadata", key)
  | download key => some ("download", key)
  | upload key _ => some ("upload", key)
  | list base => some ("list", base)
  | delete key => some ("delete", key)
  | urlFor key => some ("url_for", key)
  | openCache _ | lookUp _ _ | remember _ _ _ | forget _ _ => none

def fail (storage : StorageError) (cache : RegistryError) : (c : Call) → c.Reply
  | metadata _ => .error storage
  | download _ => .error storage
  | upload _ _ => .error storage
  | list _ => .error storage
  | delete _ => .error storage
  | urlFor _ => .error storage
  | openCache _ => .error cache
  | lookUp _ _ => .error cache
  | remember _ _ _ => .error cache
  | forget _ _ => .error cache

end Call
end ImageRegistry
