import ImageRegistry.Content.Descriptor
import ImageRegistry.Crypto.SignatureScheme
import ImageRegistry.Json.Nesting
import ImageRegistry.Json.Printer
import ImageRegistry.RegistryError
import ImageRegistry.Text.Base64Url

/-! Schema 1 manifests and their signatures. A signed manifest is the body with an array of
signatures put in before its closing brace. The protected header of a signature says where the
array was put, so that the octets that were signed can be restored. -/

namespace ImageRegistry

/-- The body of a schema 1 manifest. -/
structure LegacyBody where
  schemaVersion : Nat
  name : String
  tag : String
  architecture : String
  /-- The newest layer comes first. -/
  layers : List Digest
  /-- One entry for each layer. -/
  history : List String
  deriving DecidableEq

/-- A signature with the public key of its signer. -/
structure LegacySignature where
  keyType : String
  curve : String
  /-- The public key, encoded. -/
  point : String
  algorithm : String
  /-- The signature, encoded. -/
  signature : String
  /-- The protected header, encoded. -/
  header : String
  deriving DecidableEq

/-- What a signature says about the body that was signed: how many octets of the payload it
begins with, and how it ends. -/
structure ProtectedHeader where
  formatLength : Nat
  /-- The end of the body, encoded. -/
  formatTail : String
  time : String
  deriving DecidableEq

/-- A schema 1 manifest with its signatures. -/
structure LegacyManifest where
  body : LegacyBody
  /-- The octets that are signed. -/
  canonical : Octets
  payload : Octets
  signatures : List LegacySignature
  deriving DecidableEq

namespace LegacyBody

def layer? (v : Json) : Option Digest := do
  (← Json.Fields.ofJson? ["blobSum"] false v).required "blobSum" Digest.ofJson?

def entry? (v : Json) : Option String := do
  (← Json.Fields.ofJson? ["v1Compatibility"] false v).required "v1Compatibility" Json.text?

def ofJson? (v : Json) : Option LegacyBody := do
  let fields ← Json.Fields.ofJson?
    ["schemaVersion", "name", "tag", "architecture", "fsLayers", "history"] false v
  some {
    schemaVersion := ← fields.required "schemaVersion" Json.word32?
    name := ← fields.required "name" Json.text?
    tag := ← fields.required "tag" Json.text?
    architecture := ← fields.required "architecture" Json.text?
    layers := ← fields.required "fsLayers" (Json.list? layer?)
    history := ← fields.required "history" (Json.list? entry?) }

def toJson (b : LegacyBody) : Json := .ofMembers [
  ("schemaVersion", .natural b.schemaVersion), ("name", .text b.name), ("tag", .text b.tag),
  ("architecture", .text b.architecture),
  ("fsLayers", .array (b.layers.map fun d => .ofMembers [("blobSum", .text d.text)])),
  ("history", .array (b.history.map fun s => .ofMembers [("v1Compatibility", .text s)]))]

/-- The layers, the oldest one first. -/
def references (b : LegacyBody) : List Descriptor :=
  b.layers.reverse.map fun d => { mediaType := MediaType.legacyLayer, digest := d }

end LegacyBody

namespace LegacySignature

def ofJson? (v : Json) : Option LegacySignature := do
  let fields ← Json.Fields.ofJson? ["header", "signature", "protected"] false v
  let header ← fields.required "header" (Json.Fields.ofJson? ["jwk", "alg"] false)
  let key ← header.required "jwk" (Json.Fields.ofJson? ["kty", "crv", "x"] false)
  some {
    keyType := ← key.required "kty" Json.text?
    curve := ← key.defaulted "crv" "" Json.text?
    point := ← key.defaulted "x" "" Json.text?
    algorithm := ← header.required "alg" Json.text?
    signature := ← fields.required "signature" Json.text?
    header := ← fields.required "protected" Json.text? }

def toJson (s : LegacySignature) : Json :=
  let key := [("kty", .text s.keyType)] ++
    (if s.curve.isEmpty then [] else [("crv", .text s.curve)]) ++
    (if s.point.isEmpty then [] else [("x", .text s.point)])
  .ofMembers [
    ("header", .ofMembers [("jwk", .ofMembers key), ("alg", .text s.algorithm)]),
    ("signature", .text s.signature), ("protected", .text s.header)]

def supportedAlgorithm : String := "EdDSA"

def supportedCurve : String := "Ed25519"

def signingInput (header : String) (canonical : Octets) : Octets :=
  Octets.ofText s!"{header}.{Base64Url.encode canonical}"

def verify (scheme : SignatureScheme) (canonical : Octets) (s : LegacySignature) :
    Except SignatureFault Unit := do
  if s.algorithm ≠ supportedAlgorithm ∨ s.curve ≠ supportedCurve then
    throw (.algorithm s.algorithm)
  let some key := Base64Url.decode? s.point | throw (.keyEncoding "no base64url text")
  if key.length ≠ 32 then throw .keyLength
  if !scheme.isPublicKey key then throw (.refused "no public key")
  let some signature := Base64Url.decode? s.signature
    | throw (.signatureEncoding "no base64url text")
  if !scheme.verify key (signingInput s.header canonical) signature then
    throw (.refused "the signature does not match")

end LegacySignature

namespace ProtectedHeader

def ofJson? (v : Json) : Option ProtectedHeader := do
  let fields ← Json.Fields.ofJson? ["formatLength", "formatTail", "time"] false v
  some {
    formatLength := ← fields.required "formatLength" Json.word64?
    formatTail := ← fields.required "formatTail" Json.text?
    time := ← fields.defaulted "time" "" Json.text? }

def toJson (h : ProtectedHeader) : Json := .ofMembers [
  ("formatLength", .natural h.formatLength), ("formatTail", .text h.formatTail),
  ("time", .text h.time)]

/-- Restores the signed body from the encoded header of a signature and the payload. -/
def restore (encoded : String) (payload : Octets) : Except ManifestFault Octets := do
  let some octets := Base64Url.decode? encoded | throw (.protectedHeader "no base64url text")
  let some header := (Json.parse? octets).bind ofJson?
    | throw (.protectedHeader "no header document")
  let some tail := Base64Url.decode? header.formatTail | throw (.formatTail "no base64url text")
  if payload.length < header.formatLength then throw .formatLength
  return payload.take header.formatLength ++ tail

end ProtectedHeader

namespace LegacyManifest

def unsigned (body : LegacyBody) : LegacyManifest where
  body := body
  canonical := body.toJson.pretty
  payload := body.toJson.pretty
  signatures := []

/-- The body that all signatures agree on, restored from the payload. Without signatures it is
the payload itself. -/
def restoreAll (payload : Octets) : List LegacySignature → Except ManifestFault Octets
  | [] => return payload
  | s :: rest => do
    let canonical ← ProtectedHeader.restore s.header payload
    agree canonical rest
    return canonical
where
  /-- Whether each signature restores the same body. -/
  agree (canonical : Octets) : List LegacySignature → Except ManifestFault Unit
    | [] => return
    | s :: rest => do
      if (← ProtectedHeader.restore s.header payload) ≠ canonical then throw .signaturesDisagree
      agree canonical rest

def withoutSignatures : Json → Json
  | .object members => .object (members.filter fun m => m.1 != Octets.ofText "signatures")
  | v => v

def readBody (canonical : Octets) : Except ManifestFault LegacyBody := do
  let some v := (Json.parse? canonical).bind (Json.generic? Json.maxDepth)
    | throw (.malformed "no JSON document")
  let some body := LegacyBody.ofJson? (withoutSignatures v)
    | throw (.malformed "no schema 1 manifest")
  if body.schemaVersion ≠ 1 then throw (.legacyVersion body.schemaVersion)
  return body

def signatures? (v : Json) : Option (List LegacySignature) := do
  (← Json.Fields.ofJson? ["signatures"] false v).defaulted "signatures" []
    (Json.list? LegacySignature.ofJson?)

/-- Reads a schema 1 manifest. The signed body is restored, and nothing is verified. -/
def ofPayload (payload : Octets) : Except ManifestFault LegacyManifest := do
  let some signatures := (Json.parse? payload).bind signatures?
    | throw (.malformed "no signatures")
  let canonical ← restoreAll payload signatures
  let body ← readBody canonical
  return { body, canonical, payload, signatures }

def verify (scheme : SignatureScheme) (m : LegacyManifest) : Except SignatureFault Unit :=
  m.signatures.forM (LegacySignature.verify scheme m.canonical)

def isSigned (m : LegacyManifest) : Bool := !m.signatures.isEmpty

/-- The blanks that may stand before a closing brace. -/
def isFiller (b : UInt8) : Bool := b == 32 || b == 9 || b == 10 || b == 12 || b == 13

/-- The length of a body up to the blanks before its closing brace. -/
def formatLength (canonical : Octets) : Except ManifestFault Nat :=
  match canonical.reverse.dropWhile (· != 125) with
  | [] => throw .notAnObject
  | _ :: before => return (before.dropWhile isFiller).length

/-- Puts the text of an array of signatures into a body. -/
def splice (canonical : Octets) (length : Nat) (block : Octets) : Octets :=
  canonical.take length ++ Octets.ofText ",\n  \"signatures\": " ++ block ++ canonical.drop length

/-- Signs the body with the key of a seed; the new signature replaces all others. -/
def sign (scheme : SignatureScheme) (seed : Octets) (time : String) (m : LegacyManifest) :
    Except ManifestFault LegacyManifest := do
  let length ← formatLength m.canonical
  let header : ProtectedHeader :=
    { formatLength := length, formatTail := Base64Url.encode (m.canonical.drop length), time }
  let encoded := Base64Url.encode header.toJson.compact
  let signature : LegacySignature := {
    keyType := "OKP"
    curve := LegacySignature.supportedCurve
    point := Base64Url.encode (scheme.publicKey seed)
    algorithm := LegacySignature.supportedAlgorithm
    signature := Base64Url.encode
      (scheme.sign seed (LegacySignature.signingInput encoded m.canonical))
    header := encoded }
  return { m with
    payload := splice m.canonical length (Json.array [signature.toJson]).pretty
    signatures := [signature] }

end LegacyManifest
end ImageRegistry
