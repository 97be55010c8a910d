import ImageRegistry.Manifest.Image
import ImageRegistry.Manifest.Index
import ImageRegistry.Manifest.Legacy

/-! Manifests of every format, and the rule that says which format a payload has. -/

namespace ImageRegistry

/-- A manifest of any format. -/
inductive Manifest where
  | legacy (manifest : LegacyManifest)
  | docker (image : DockerImage)
  | index (index : ImageIndex)
  | oci (image : OciImage)
  deriving DecidableEq

namespace Manifest

/-- What decides about the format of a payload. -/
structure Outline where
  schemaVersion : Nat
  mediaType : Option String
  /-- Whether there is a list of manifests. -/
  hasManifests : Bool

/-- Reads the outline of a document. A list of manifests is read as a generic document inside
the outermost one. -/
def Outline.ofJson? (v : Json) : Option Outline := do
  let fields ← Json.Fields.ofJson? ["schemaVersion", "mediaType", "manifests"] false v
  some {
    schemaVersion := ← fields.required "schemaVersion" Json.word32?
    mediaType := ← fields.optional "mediaType" Json.text?
    hasManifests := (← fields.optional "manifests" (Json.generic? (Json.maxDepth - 1))).isSome }

/-- A text that says something. -/
def nonempty (s : Option String) : Option String := s.filter fun s => !s.isEmpty

/-- The media type of a payload: the one it names, or else the declared one. Without either, an
OCI document that lists manifests is an index. -/
def Outline.decide (o : Outline) (declared : Option String) : Except ManifestFault String :=
  match nonempty o.mediaType, nonempty declared with
  | some embedded, some declared =>
    if declared ≠ embedded then throw (.declaredType declared embedded) else return embedded
  | some embedded, none => return embedded
  | none, some declared => return declared
  | none, none => return if o.hasManifests then MediaType.ociIndex else MediaType.ociImage

def ofTyped (mediaType : String) (payload : Octets) (v : Json) : Except ManifestFault Manifest :=
  if mediaType = MediaType.dockerImage then docker <$> DockerImage.ofJson payload v
  else if mediaType = MediaType.dockerList then index <$> ImageIndex.ofJson .docker payload v
  else if mediaType = MediaType.ociIndex then index <$> ImageIndex.ofJson .oci payload v
  else if mediaType = MediaType.ociImage then oci <$> OciImage.ofJson payload v
  else throw (.contentType mediaType)

/-- Reads a payload that was declared to have a media type, or was not declared. -/
def ofPayload (declared : Option String) (payload : Octets) : Except ManifestFault Manifest := do
  let some v := Json.parse? payload | throw (.malformed "no JSON document")
  let some outline := Outline.ofJson? v | throw (.malformed "no manifest")
  match outline.schemaVersion with
  | 1 => legacy <$> LegacyManifest.ofPayload payload
  | 2 => ofTyped (← outline.decide declared) payload v
  | n => throw (.schemaVersion n)

def mediaType : Manifest → String
  | legacy _ => MediaType.legacyManifest
  | docker _ => MediaType.dockerImage
  | index m => m.format.mediaType
  | oci _ => MediaType.ociImage

def payload : Manifest → Octets
  | legacy m => m.payload
  | docker m => m.payload
  | index m => m.payload
  | oci m => m.payload

/-- The content that the manifest needs: the configuration before the layers, or the manifests
of a list. -/
def references : Manifest → List Descriptor
  | legacy m => m.body.references
  | docker m => m.config :: m.layers
  | index m => m.children
  | oci m => m.config :: m.layers

def digest (m : Manifest) : Digest := .ofContent m.payload

end Manifest
end ImageRegistry
