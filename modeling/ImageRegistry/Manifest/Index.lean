import ImageRegistry.Content.Descriptor
import ImageRegistry.Json.Nesting
import ImageRegistry.Json.Printer
import ImageRegistry.RegistryError

/-! Lists of manifests, one for each platform, in the Docker format or in the OCI format. -/

namespace ImageRegistry

/-- The two formats of a list of manifests. -/
inductive IndexFormat where
  | docker
  | oci
  deriving DecidableEq, Repr

def IndexFormat.mediaType : IndexFormat → String
  | docker => MediaType.dockerList
  | oci => MediaType.ociIndex

/-- Whether a list in this format may have this media type; only an OCI index may lack one. -/
def IndexFormat.allows : IndexFormat → Option String → Bool
  | format, some t => t == format.mediaType
  | format, none => format == .oci

/-- A list of manifests. -/
structure ImageIndex where
  format : IndexFormat
  children : List Descriptor
  annotations : Option Json.TextMap := none
  payload : Octets
  deriving DecidableEq

namespace ImageIndex

/-- Reads a list of a format from its document. -/
def ofJson (format : IndexFormat) (payload : Octets) (v : Json) :
    Except ManifestFault ImageIndex := do
  let some (version, mediaType, index) := fields? | throw (.malformed "no manifest list")
  if version ≠ 2 then throw (.listVersion version)
  if !format.allows mediaType then
    throw (.listType format.mediaType (mediaType.getD ""))
  return index
where
  /-- The fields of the document. -/
  fields? : Option (Nat × Option String × ImageIndex) := do
    let fields ← Json.Fields.ofJson?
      ["schemaVersion", "mediaType", "manifests", "annotations"] false v
    let version ← fields.required "schemaVersion" Json.word32?
    let mediaType ← fields.optional "mediaType" Json.text?
    let children ← fields.required "manifests" (Json.list? Descriptor.ofJson?)
    let annotations ← fields.optional "annotations" Json.textMap?
    some (version, mediaType, { format, children, annotations, payload })

/-- Writes and keeps a list of manifests. -/
def build (format : IndexFormat) (children : List Descriptor) : ImageIndex where
  format := format
  children := children
  payload := Json.pretty <| .ofMembers [
    ("schemaVersion", .natural 2), ("mediaType", .text format.mediaType),
    ("manifests", .array (children.map Descriptor.toJson))]

end ImageIndex
end ImageRegistry
