import ImageRegistry.Manifest.Manifest
import ImageRegistry.Registry.Repository
import ImageRegistry.Registry.Tags

/-! The manifests of a repository. A manifest is taken only if the repository holds what it
refers to, apart from foreign layers that may be fetched from permitted locations. -/

namespace ImageRegistry.Manifests

def unknown (r : Repository) (d : Digest) : RegistryError := .manifestUnknown r.name.text d.text

/-- Fails with another error when content is unknown. -/
def whenBlobUnknown {α : Type} (other : RegistryError) (a : Action α) : Action α :=
  tryCatch a fun
    | .blobUnknown _ => throw other
    | e => throw e

def contains (r : Repository) (d : Digest) : Action Bool := r.manifests.contains d

def get (r : Repository) (d : Digest) : Action Manifest := do
  let payload ← whenBlobUnknown (unknown r d) (r.manifests.get d)
  Action.orFail .manifestInvalid (Manifest.ofPayload none payload)

/-- Checks that content that a manifest refers to is part of the repository. -/
def requireBlob (r : Repository) (d : Digest) : Action Unit := do
  let _ ← whenBlobUnknown (.manifestBlobUnknown d) (r.blobs.stat d)

/-- Checks that a manifest that a list refers to is part of the repository. -/
def requireManifest (r : Repository) (d : Digest) : Action Unit := do
  unless ← contains r d do
    throw (.manifestBlobUnknown d)

def checkLocation (settings : Settings) (location : String) : Except LocationFault Unit :=
  match settings.reader.read location with
  | .error reason => .error (.unparsable location reason)
  | .ok url =>
    if url.isFetchable && settings.permits location then .ok () else .error (.denied location)

def checkLocations (r : Repository) (layer : Descriptor) : Action Unit :=
  Action.orFail .manifestUrlDenied (layer.urls.forM (checkLocation r.settings))

/-- Checks a layer of a schema 2 image. -/
def checkDockerLayer (r : Repository) (layer : Descriptor) : Action Unit := do
  if layer.mediaType = MediaType.foreignLayer then
    if layer.urls.isEmpty then throw (.manifestUrlDenied (.missing layer.digest))
    checkLocations r layer
  else requireBlob r layer.digest

def checkOciLayer (r : Repository) (layer : Descriptor) : Action Unit := do
  if MediaType.isRestricted layer.mediaType && !layer.urls.isEmpty then checkLocations r layer
  else requireBlob r layer.digest

/-- Checks a schema 1 manifest, and signs it if it is not signed. -/
def prepareLegacy (r : Repository) (time : String) (m : LegacyManifest) :
    Action LegacyManifest := do
  unless r.settings.legacyEnabled do
    throw .legacySchemaUnsupported
  if m.body.layers.isEmpty then throw (.manifestInvalid .noLayers)
  if m.body.layers.length ≠ m.body.history.length then
    throw (.manifestInvalid (.unevenHistory m.body.layers.length m.body.history.length))
  m.body.references.forM fun layer => requireBlob r layer.digest
  if m.isSigned then
    Action.orFail .manifestUnverified (m.verify r.settings.scheme)
    return m
  else
    let some seed := r.settings.signingKey | throw (.manifestUnverified .noKey)
    Action.orFail .manifestInvalid (m.sign r.settings.scheme seed time)

/-- Checks a manifest before it is stored at some time, and signs it if need be. -/
def prepare (r : Repository) (time : String) : Manifest → Action Manifest
  | .legacy m => .legacy <$> prepareLegacy r time m
  | .docker m => do
    requireBlob r m.config.digest
    m.layers.forM (checkDockerLayer r)
    return .docker m
  | .oci m => do
    requireBlob r m.config.digest
    m.layers.forM (checkOciLayer r)
    return .oci m
  | .index m => do
    m.children.forM fun child => requireManifest r child.digest
    return .index m

/-- Stores a manifest, if it can be taken, and lets a tag stand for it. -/
def put (r : Repository) (time : String) (m : Manifest) (tag : Option String) :
    Action Descriptor := do
  let m ← prepare r time m
  let descriptor ← r.manifests.put m.mediaType m.payload
  if let some tag := tag then Tags.assign r.name tag descriptor.digest
  return descriptor

/-- Takes a manifest, and all tags that stand for it, out of a repository. -/
def delete (r : Repository) (d : Digest) : Action Unit := do
  unless r.settings.deleteEnabled do
    throw (.unsupported "delete")
  unless ← contains r d do
    throw (unknown r d)
  (← Tags.lookup r.name d).forM fun tag => do
    let _ ← Tags.erase r.name tag
  whenBlobUnknown (unknown r d) (r.manifests.delete d)

def enumerate (r : Repository) : Action (List Digest) := r.manifests.enumerate

end ImageRegistry.Manifests
