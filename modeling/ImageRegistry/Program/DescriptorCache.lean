import Std.Data.ExtTreeMap
import ImageRegistry.Content.Descriptor
import ImageRegistry.Naming.RepositoryName
import ImageRegistry.RegistryError

/-! Descriptor caches. Each repository has a cache of its own, and there is one that belongs to
none. -/

namespace ImageRegistry

/-- A repository whose cache is meant, if any, and a digest. -/
abbrev CacheKey := Option RepositoryName × Digest

/-- Keys are ordered by repository, then by digest. -/
abbrev CacheKey.order : CacheKey → CacheKey → Ordering :=
  compareLex (compareOn Prod.fst) (compareOn Prod.snd)

/-- A descriptor cache. -/
inductive DescriptorCache where
  /-- Descriptors kept in memory. -/
  | table (entries : Std.ExtTreeMap CacheKey Descriptor CacheKey.order)
  /-- A cache that can be opened, and then fails at each call. -/
  | failing
  /-- A cache that cannot be opened for a repository. -/
  | sealed

namespace DescriptorCache

/-- A cache in memory that keeps nothing yet. -/
def empty : DescriptorCache := table ∅

/-- How a cache that does not work fails. -/
def down : RegistryError := .config (.service "cache down")

def openFor : DescriptorCache → RepositoryName → Except RegistryError Unit
  | sealed, _ => .error down
  | _, _ => .ok ()

def lookUp (cache : DescriptorCache) (scope : Option RepositoryName) (d : Digest) :
    Except RegistryError Descriptor :=
  match cache with
  | table entries =>
    match entries[(scope, d)]? with
    | some descriptor => .ok descriptor
    | none => .error (.blobUnknown d)
  | _ => .error down

def remember (cache : DescriptorCache) (scope : Option RepositoryName) (d : Digest)
    (descriptor : Descriptor) : Except RegistryError Unit × DescriptorCache :=
  match cache with
  | table entries => (.ok (), table (entries.insert (scope, d) descriptor))
  | _ => (.error down, cache)

/-- Drops what is kept for a digest, which has to be something. -/
def forget (cache : DescriptorCache) (scope : Option RepositoryName) (d : Digest) :
    Except RegistryError Unit × DescriptorCache :=
  match cache with
  | table entries =>
    if entries.contains (scope, d) then (.ok (), table (entries.erase (scope, d)))
    else (.error (.blobUnknown d), cache)
  | _ => (.error down, cache)

end DescriptorCache
end ImageRegistry
