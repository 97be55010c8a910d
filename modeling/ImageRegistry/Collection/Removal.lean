import ImageRegistry.Registry.LinkStore

/-! Removing single records of a registry, whether or not they are there. -/

namespace ImageRegistry.Removal

def erase (record : Record) : Action Unit := do
  let _ ← Action.eraseIfHeld record.key

/-- Removes a manifest from a repository: what these tags remember of it, and its links. -/
def manifest (name : RepositoryName) (d : Digest) (tags : List String) : Action Unit := do
  tags.forM fun tag => erase (.tagEntry name tag d)
  erase (.link .revision name d)
  erase (.link .layer name d)

/-- Removes a blob from a repository: its link, and its content if the repository has a blob
store of its own. -/
def repositoryBlob (settings : Settings) (name : RepositoryName) (d : Digest) : Action Unit := do
  if settings.separateBlobs then erase (.blob (.ofRepository name) d)
  erase (.link .layer name d)

def sharedBlob (d : Digest) : Action Unit := erase (.blob .shared d)

end ImageRegistry.Removal
