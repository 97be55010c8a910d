import ImageRegistry.Content.Descriptor
import ImageRegistry.Json.Nesting
import ImageRegistry.Json.Printer
import ImageRegistry.RegistryError

/-! Image manifests: a configuration and an ordered list of layers, in the schema 2 format or
in the OCI format. A manifest keeps the octets that it was read from. -/

namespace ImageRegistry

/-- A schema 2 image. -/
structure DockerImage where
  config : Descriptor
  layers : List Descriptor
  payload : Octets
  deriving DecidableEq

/-- An OCI image. -/
structure OciImage where
  config : Descriptor
  layers : List Descriptor
  annotations : Option Json.TextMap := none
  payload : Octets
  deriving DecidableEq

namespace DockerImage

/-- Reads a schema 2 image from its document. -/
def ofJson (payload : Octets) (v : Json) : Except ManifestFault DockerImage := do
  let some (version, mediaType, image) := fields? | throw (.malformed "no schema 2 manifest")
  if version ≠ 2 then throw (.schemaVersion version)
  if mediaType ≠ MediaType.dockerImage then
    throw (.imageType MediaType.dockerImage mediaType)
  return image
where
  /-- The fields of the document. -/
  fields? : Option (Nat × String × DockerImage) := do
    let fields ← Json.Fields.ofJson? ["schemaVersion", "mediaType", "config", "layers"] false v
    let version ← fields.required "schemaVersion" Json.word32?
    let mediaType ← fields.required "mediaType" Json.text?
    let config ← fields.required "config" Descriptor.ofJson?
    let layers ← fields.required "layers" (Json.list? Descriptor.ofJson?)
    some (version, mediaType, { config, layers, payload })

/-- Writes and keeps a schema 2 image. -/
def build (config : Descriptor) (layers : List Descriptor) : DockerImage where
  config := config
  layers := layers
  payload := Json.pretty <| .ofMembers [
    ("schemaVersion", .natural 2), ("mediaType", .text MediaType.dockerImage),
    ("config", config.toJson), ("layers", .array (layers.map Descriptor.toJson))]

end DockerImage

namespace OciImage

def ofJson (payload : Octets) (v : Json) : Except ManifestFault OciImage := do
  let some (version, mediaType, image) := fields? | throw (.malformed "no OCI image manifest")
  if version ≠ 2 then throw (.schemaVersion version)
  match mediaType with
  | none => return image
  | some t =>
    if t ≠ MediaType.ociImage then throw (.optionalType MediaType.ociImage t)
    return image
where
  /-- The fields of the document. -/
  fields? : Option (Nat × Option String × OciImage) := do
    let fields ← Json.Fields.ofJson?
      ["schemaVersion", "mediaType", "config", "layers", "annotations"] false v
    let version ← fields.required "schemaVersion" Json.word32?
    let mediaType ← fields.optional "mediaType" Json.text?
    let config ← fields.required "config" Descriptor.ofJson?
    let layers ← fields.required "layers" (Json.list? Descriptor.ofJson?)
    let annotations ← fields.optional "annotations" Json.textMap?
    some (version, mediaType, { config, layers, annotations, payload })

def build (config : Descriptor) (layers : List Descriptor) : OciImage where
  config := config
  layers := layers
  payload := Json.pretty <| .ofMembers [
    ("schemaVersion", .natural 2), ("mediaType", .text MediaType.ociImage),
    ("config", config.toJson), ("layers", .array (layers.map Descriptor.toJson))]

end OciImage
end ImageRegistry
