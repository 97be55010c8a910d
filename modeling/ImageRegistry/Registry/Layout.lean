import ImageRegistry.Content.Digest
import ImageRegistry.Naming.RepositoryName
import ImageRegistry.Naming.UploadId
import ImageRegistry.Storage.Path

/-! The layout of a bucket: where each record of a registry is stored, and which record a listed
key stands for. -/

namespace ImageRegistry

/-- A blob store: the one that all repositories share, or the one of a repository. -/
inductive BlobStore where
  | shared
  | ofRepository (name : RepositoryName)
  deriving DecidableEq

def BlobStore.text : BlobStore → String
  | shared => "global"
  | ofRepository name => s!"repository {name}"

/-- What a link makes part of a repository: a layer, or a revision of a manifest. -/
inductive LinkKind where
  | layer
  | revision
  deriving DecidableEq, Repr

/-- A record of a registry. -/
inductive Record where
  /-- The content of a blob. -/
  | blob (store : BlobStore) (digest : Digest)
  /-- Makes content part of a repository. -/
  | link (kind : LinkKind) (repository : RepositoryName) (digest : Digest)
  /-- The digest that a tag stands for. -/
  | tagTarget (repository : RepositoryName) (tag : String)
  /-- Remembers that a tag stood for a digest. -/
  | tagEntry (repository : RepositoryName) (tag : String) (digest : Digest)
  /-- What was uploaded in a session. -/
  | uploadContent (repository : RepositoryName) (session : UploadId)
  /-- When a session was started. -/
  | uploadStart (repository : RepositoryName) (session : UploadId)
  deriving DecidableEq

namespace Layout

/-- The path at or below which everything is stored. -/
def root : Path := ⟨"docker/registry/v2"⟩

def repositories : Path := root / "repositories"

def repository (name : RepositoryName) : Path := repositories / name.text

def blobs : BlobStore → Path
  | .shared => root / "blobs"
  | .ofRepository name => repository name / "_blobs"

def links (name : RepositoryName) : LinkKind → Path
  | .layer => repository name / "_layers"
  | .revision => repository name / "_manifests" / "revisions"

def tags (name : RepositoryName) : Path := repository name / "_manifests" / "tags"

def tag (name : RepositoryName) (tag : String) : Path := tags name / tag

def tagEntries (name : RepositoryName) (tag : String) : Path := Layout.tag name tag / "index"

def upload (name : RepositoryName) (session : UploadId) : Path :=
  repository name / "_uploads" / session.text

def linkTo (base : Path) (d : Digest) : Path := base / Digest.algorithm / d.hex / "link"

/-- The first two digits of a digest. -/
def shard (d : Digest) : String := String.ofList (d.hex.toList.take 2)

end Layout

def Record.key : Record → Path
  | blob store d => Layout.blobs store / Digest.algorithm / Layout.shard d / d.hex / "data"
  | link kind name d => Layout.linkTo (Layout.links name kind) d
  | tagTarget name tag => Layout.tag name tag / "current" / "link"
  | tagEntry name tag d => Layout.linkTo (Layout.tagEntries name tag) d
  | uploadContent name session => Layout.upload name session / "data"
  | uploadStart name session => Layout.upload name session / "startedat"

namespace Layout

def namesBelow? (base key : Path) : Option (List String) :=
  (key.componentsAfter? base).map fun cs => cs.map Component.text

def linkedDigest? (base key : Path) : Option Digest :=
  match namesBelow? base key with
  | some [algorithm, hex, file] =>
    if algorithm = Digest.algorithm ∧ file = "link" then Digest.ofHex? hex else none
  | _ => none

/-- The digest whose content a key below a path holds. -/
def blobDigest? (base key : Path) : Option Digest :=
  match namesBelow? base key with
  | some [algorithm, shard, hex, file] =>
    if algorithm = Digest.algorithm ∧ shard.toList.isPrefixOf hex.toList ∧ file = "data" then
      Digest.ofHex? hex
    else none
  | _ => none

/-- The tag whose target a key below a path holds. -/
def tagName? (base key : Path) : Option String :=
  match namesBelow? base key with
  | some [tag, folder, file] => if folder = "current" ∧ file = "link" then some tag else none
  | _ => none

def isPart (name : String) : Bool := name.toList.head? == some '_'

/-- The repository to which a key belongs: its name ends before the first part. -/
def repositoryName? (key : Path) : Option RepositoryName := do
  let names ← namesBelow? repositories key
  let name := names.takeWhile fun s => !isPart s
  if name.isEmpty || name.length == names.length then none
  else RepositoryName.ofText? (String.intercalate "/" name)

end Layout
end ImageRegistry
