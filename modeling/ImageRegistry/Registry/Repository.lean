import ImageRegistry.Registry.LinkStore

/-! Repositories of a registry, and their names. -/

namespace ImageRegistry

/-- A repository of a registry. -/
structure Repository where
  settings : Settings
  name : RepositoryName

namespace Repository

/-- Opens a repository, which need not hold anything. Its cache has to work. -/
def openNamed (settings : Settings) (name : RepositoryName) : Action Repository := do
  if settings.cached then
    match ← Action.call (.openCache name) with
    | .ok _ => return { settings, name }
    | .error e => throw e
  else return { settings, name }

def blobStore (r : Repository) : BlobStore := r.settings.blobStore r.name

def blobs (r : Repository) : LinkStore where
  settings := r.settings
  repository := r.name
  current := .layer

/-- The manifests that are part of the repository. They may be linked as layers were. -/
def manifests (r : Repository) : LinkStore where
  settings := r.settings
  repository := r.name
  current := .revision
  older := [.layer]

/-- The names of all repositories that hold a record, ascending. -/
def names : Action (List RepositoryName) := do
  let keys ← Action.whileListing "repositories" (Action.keysBelow Layout.repositories)
  return ascending (keys.filterMap Layout.repositoryName?)

end Repository

def Settings.checkWritable (settings : Settings) : Action Unit := do
  if settings.readOnly then throw .readOnly

end ImageRegistry
