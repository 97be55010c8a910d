import ImageRegistry.Content.Digest
import ImageRegistry.Content.MediaType
import ImageRegistry.Json.Record

/-! Descriptors: what is said about a piece of content wherever it is named. Two descriptors
with one digest name the same octets. -/

namespace ImageRegistry

def Digest.ofJson? (v : Json) : Option Digest := v.text?.bind Digest.parse?

/-- The machine that an image is made for. -/
structure Platform where
  architecture : String
  os : String
  osVersion : Option String := none
  variant : Option String := none
  deriving DecidableEq

/-- A reference to content. -/
structure Descriptor where
  mediaType : String := ""
  size : Nat := 0
  digest : Digest
  /-- Locations from which foreign content may be fetched. -/
  urls : List String := []
  annotations : Option Json.TextMap := none
  platform : Option Platform := none
  deriving DecidableEq

namespace Platform

def ofJson? (v : Json) : Option Platform := do
  let fields ← Json.Fields.ofJson? ["architecture", "os", "os.version", "variant"] false v
  some {
    architecture := ← fields.required "architecture" Json.text?
    os := ← fields.required "os" Json.text?
    osVersion := ← fields.optional "os.version" Json.text?
    variant := ← fields.optional "variant" Json.text? }

def toJson (p : Platform) : Json := .ofMembers <|
  [("architecture", .text p.architecture), ("os", .text p.os)] ++
  p.osVersion.toList.map (fun s => ("os.version", .text s)) ++
  p.variant.toList.map (fun s => ("variant", .text s))

end Platform

namespace Descriptor

def ofJson? (v : Json) : Option Descriptor := do
  let fields ← Json.Fields.ofJson?
    ["mediaType", "size", "digest", "urls", "annotations", "platform"] false v
  some {
    mediaType := ← fields.defaulted "mediaType" "" Json.text?
    size := ← fields.defaulted "size" 0 Json.word64?
    digest := ← fields.required "digest" Digest.ofJson?
    urls := ← fields.defaulted "urls" [] (Json.list? Json.text?)
    annotations := ← fields.optional "annotations" Json.textMap?
    platform := ← fields.optional "platform" Platform.ofJson? }

/-- Writes a descriptor, without what is empty or absent. -/
def toJson (d : Descriptor) : Json := .ofMembers <|
  (if d.mediaType.isEmpty then [] else [("mediaType", .text d.mediaType)]) ++
  [("size", .natural d.size), ("digest", .text d.digest.text)] ++
  (if d.urls.isEmpty then [] else [("urls", .array (d.urls.map .text))]) ++
  d.annotations.toList.map (fun m => ("annotations", .ofTextMap m)) ++
  d.platform.toList.map (fun p => ("platform", p.toJson))

end Descriptor
end ImageRegistry
