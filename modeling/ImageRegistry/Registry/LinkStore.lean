import ImageRegistry.Registry.BlobStore
import ImageRegistry.Registry.Settings
import ImageRegistry.Text.Blank
import ImageRegistry.Reading

/-! Link stores: what is part of a repository. Content is part of a repository if a link says
so. New links are of one kind; links of older kinds are still followed. -/

namespace ImageRegistry

/-- The links of a repository that are followed for one purpose. -/
structure LinkStore where
  settings : Settings
  repository : RepositoryName
  /-- The kind of new links. -/
  current : LinkKind
  /-- The kinds of links that are followed as well. -/
  older : List LinkKind := []

namespace LinkStore

/-- The kinds of links in the order in which they are tried. -/
def kinds (links : LinkStore) : List LinkKind :=
  links.current :: links.older.filter (· ≠ links.current)

def blobs (links : LinkStore) : BlobStore := links.settings.blobStore links.repository

def key (links : LinkStore) (kind : LinkKind) (d : Digest) : Path :=
  (Record.link kind links.repository d).key

def target (key : Path) (content : Octets) : Except RegistryError Digest :=
  match content.toText? with
  | some s => Digest.read (trimBlanks s)
  | none => .error (.digestInvalid key.text)

/-- What a digest stands for, by the first link to it. The links alone decide. -/
def resolve (links : LinkStore) (d : Digest) : Action Descriptor := follow links.kinds
where
  /-- Follows the first link of these kinds. -/
  follow : List LinkKind → Action Descriptor
    | [] => throw (.blobUnknown d)
    | kind :: rest => do
      let key := links.key kind d
      match ← Action.fetch? key with
      | none => follow rest
      | some content => links.blobs.stat (← target key content)

/-- Keeps a descriptor in the cache, if there is one. It does not matter if that fails. -/
def remember (links : LinkStore) (d : Digest) (descriptor : Descriptor) : Action Unit := do
  if links.settings.cached then
    let _ ← Action.call (.remember links.repository d descriptor)

def lookUp (links : LinkStore) (d : Digest) : Action Descriptor := do
  if links.settings.cached then
    match ← Action.call (.lookUp links.repository d) with
    | .ok descriptor => return descriptor
    | .error _ =>
      let descriptor ← links.resolve d
      links.remember d descriptor
      return descriptor
  else links.resolve d

/-- What a digest stands for, unless it is hidden. -/
def stat (links : LinkStore) (d : Digest) : Action Descriptor :=
  if links.settings.isHidden d then throw (.blobUnknown d) else links.lookUp d

def contains (links : LinkStore) (d : Digest) : Action Bool :=
  tryCatch (do let _ ← links.stat d; return true) fun e =>
    if e.isNotFound then return false else throw e

def get (links : LinkStore) (d : Digest) : Action Octets := do
  links.blobs.get (← links.stat d).digest

/-- Makes a digest part of the repository. -/
def link (links : LinkStore) (d : Digest) : Action Unit :=
  Action.store (links.key links.current d) (Octets.ofText d.text)

/-- Stores content and makes it part of the repository. -/
def put (links : LinkStore) (mediaType : String) (content : Octets) : Action Descriptor := do
  let descriptor ← links.blobs.put mediaType content
  links.link descriptor.digest
  links.remember descriptor.digest descriptor
  return descriptor

/-- Drops what the cache keeps for a digest. -/
def forget (links : LinkStore) (d : Digest) : Action Unit := do
  if links.settings.cached then
    match ← Action.call (.forget links.repository d) with
    | .ok _ => return
    | .error e => unless e.isNotFound do throw e

/-- Removes the links to a digest of these kinds, and says whether there were any. -/
def eraseLinks (links : LinkStore) (d : Digest) : List LinkKind → Action Bool
  | [] => return false
  | kind :: rest => do
    let held ← Action.eraseIfHeld (links.key kind d)
    let others ← links.eraseLinks d rest
    return held || others

def unlink (links : LinkStore) (d : Digest) : Action Bool := do
  let held ← links.eraseLinks d links.kinds
  links.forget d
  return held

/-- Takes a digest out of the repository. -/
def delete (links : LinkStore) (d : Digest) : Action Unit := do
  unless links.settings.deleteEnabled do
    throw (.unsupported "delete")
  let _ ← links.stat d
  unless ← links.unlink d do
    throw (.blobUnknown d)

/-- The digests to which there are links of the current kind, ascending. -/
def enumerate (links : LinkStore) : Action (List Digest) := do
  let base := Layout.links links.repository links.current
  return ascending ((← Action.keysBelow base).filterMap (Layout.linkedDigest? base))

/-- Where clients can fetch the content of a digest directly, if they are sent there. -/
def location (links : LinkStore) (d : Digest) : Action (Option String) := do
  if links.settings.redirect then
    links.blobs.location (← links.stat d).digest
  else return none

end LinkStore
end ImageRegistry
