import ImageRegistry.Content.Digest
import ImageRegistry.Crypto.SignatureScheme
import ImageRegistry.Location.Url
import ImageRegistry.Registry.Layout

/-! How a registry is set up. -/

namespace ImageRegistry

/-- How a registry is set up. -/
structure Settings where
  /-- Whether clients are sent to the storage to fetch content. -/
  redirect : Bool := false
  deleteEnabled : Bool := false
  /-- Whether each repository has a blob store of its own. -/
  separateBlobs : Bool := false
  /-- Whether schema 1 manifests are taken. -/
  legacyEnabled : Bool := false
  /-- Whether content can be uploaded in pieces. -/
  resumable : Bool := true
  readOnly : Bool := false
  /-- Which locations of foreign content are permitted. -/
  permits : String → Bool := fun _ => true
  /-- The seed of the key with which schema 1 manifests are signed. -/
  signingKey : Option Octets := none
  /-- Whether descriptors are cached. -/
  cached : Bool := false
  /-- The digests that an access controller hides, if there is one. -/
  hides : Option (Digest → Bool) := none
  /-- How schema 1 manifests are signed. -/
  scheme : SignatureScheme
  /-- How locations of foreign content are read. -/
  reader : UrlReader

namespace Settings

def blobStore (settings : Settings) (name : RepositoryName) : BlobStore :=
  if settings.separateBlobs then .ofRepository name else .shared

def isHidden (settings : Settings) (d : Digest) : Bool :=
  settings.hides.any fun hidden => hidden d

end Settings
end ImageRegistry
