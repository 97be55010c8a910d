import ImageRegistry.Ascending
import ImageRegistry.Content.Descriptor
import ImageRegistry.Program.Program
import ImageRegistry.Registry.Layout

/-! Blob stores: contents by their digests. Content is stored once, however often it is put. -/

namespace ImageRegistry.BlobStore

def key (store : BlobStore) (d : Digest) : Path := (Record.blob store d).key

/-- What a part of the storage that may be missing holds for a digest. -/
def known {α : Type} (d : Digest) (found : Option α) : Action α :=
  match found with
  | some a => pure a
  | none => throw (.blobUnknown d)

def contains (store : BlobStore) (d : Digest) : Action Bool := Action.holds (store.key d)

def put (store : BlobStore) (mediaType : String) (content : Octets) : Action Descriptor := do
  let d := Digest.ofContent content
  unless ← store.contains d do
    Action.store (store.key d) content
  return { mediaType, size := content.length, digest := d }

def get (store : BlobStore) (d : Digest) : Action Octets := do
  known d (← Action.fetch? (store.key d))

def stat (store : BlobStore) (d : Digest) : Action Descriptor := do
  let size ← known d (← Action.size? (store.key d))
  return { mediaType := MediaType.octets, size, digest := d }

def delete (store : BlobStore) (d : Digest) : Action Unit := do
  unless ← Action.eraseIfHeld (store.key d) do
    throw (.blobUnknown d)

/-- Where clients can fetch a blob directly, if they can. -/
def location (store : BlobStore) (d : Digest) : Action (Option String) := do
  known d (← Action.unlessMissing (← Action.call (.urlFor (store.key d))))

def remember (_store : BlobStore) (_d : Digest) (_descriptor : Descriptor) : Action Unit := pure ()

/-- Descriptors of blobs are not kept, so none can be dropped. -/
def forget (_store : BlobStore) (_d : Digest) : Action Unit :=
  throw (.unsupported "clearing raw blob descriptors")

def enumerate (store : BlobStore) : Action (List Digest) := do
  let base := Layout.blobs store
  return ascending ((← Action.keysBelow base).filterMap (Layout.blobDigest? base))

end ImageRegistry.BlobStore
