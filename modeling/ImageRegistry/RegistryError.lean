import ImageRegistry.Content.Digest
import ImageRegistry.Pattern.PatternFault
import ImageRegistry.Storage.StorageError

/-! What can go wrong in a registry, how it is worded, and how it is answered over HTTP. -/

namespace ImageRegistry

/-- Why a payload is not a manifest that the registry takes. -/
inductive ManifestFault where
  /-- The payload, or a part of it, is not a document of its format. -/
  | malformed (detail : String)
  /-- The schema version is not known. -/
  | schemaVersion (version : Nat)
  /-- The schema version of a manifest list is not known. -/
  | listVersion (version : Nat)
  /-- The media type is not that of a manifest. -/
  | contentType (mediaType : String)
  /-- The declared media type is not the one in the payload. -/
  | declaredType (declared embedded : String)
  /-- The media type in an image manifest is not the one of its format. -/
  | imageType (expected found : String)
  /-- The media type in a manifest list is not the one it was read as. -/
  | listType (expected found : String)
  /-- The media type in an image manifest that may lack one is another one. -/
  | optionalType (expected found : String)
  /-- The signatures were made over different bodies. -/
  | signaturesDisagree
  /-- A schema 1 manifest says it has another version. -/
  | legacyVersion (version : Nat)
  /-- A schema 1 manifest without layers. -/
  | noLayers
  /-- A schema 1 manifest whose history does not match its layers. -/
  | unevenHistory (layers entries : Nat)
  /-- A body without a closing brace. -/
  | notAnObject
  /-- A signature over more octets than there are. -/
  | formatLength
  /-- A protected header that cannot be read. -/
  | protectedHeader (detail : String)
  /-- A body end in a protected header that cannot be read. -/
  | formatTail (detail : String)
  deriving DecidableEq, Repr

def ManifestFault.message : ManifestFault → String
  | malformed detail => detail
  | schemaVersion n => s!"unrecognized manifest schema version {n}"
  | listVersion n => s!"unrecognized manifest list schema version {n}"
  | contentType t => s!"unrecognized manifest content type {t}"
  | declaredType d e => s!"manifest declared as '{d}' but contains mediaType '{e}'"
  | imageType e f => s!"mediaType in manifest should be '{e}' not '{f}'"
  | listType e f => s!"mediaType in manifest list should be '{e}' not '{f}'"
  | optionalType e f => s!"if present, mediaType in manifest should be '{e}' not '{f}'"
  | signaturesDisagree => "signatures disagree on the signed payload"
  | legacyVersion n => s!"schema 1 manifest has schemaVersion {n}"
  | noLayers => "no layers"
  | unevenHistory layers entries => s!"{layers} layers but {entries} history entries"
  | notAnObject => "manifest is not a JSON object"
  | formatLength => "format length exceeds payload"
  | protectedHeader detail => s!"protected header: {detail}"
  | formatTail detail => s!"format tail: {detail}"

/-- Why a signature is not accepted. -/
inductive SignatureFault where
  /-- The algorithm is not the one that is verified here. -/
  | algorithm (name : String)
  /-- The public key is not in its encoding. -/
  | keyEncoding (detail : String)
  /-- The public key has the wrong length. -/
  | keyLength
  /-- The signature is not in its encoding. -/
  | signatureEncoding (detail : String)
  /-- The key or the signature is refused. -/
  | refused (detail : String)
  /-- There is no key to sign with. -/
  | noKey
  deriving DecidableEq, Repr

def SignatureFault.message : SignatureFault → String
  | algorithm name => s!"unsupported signature algorithm {name}"
  | keyEncoding detail => s!"public key: {detail}"
  | keyLength => "public key has the wrong length"
  | signatureEncoding detail => s!"signature: {detail}"
  | refused detail => detail
  | noKey => "no signing key for unsigned schema 1 manifest"

/-- Why a location of foreign content is not accepted. -/
inductive LocationFault where
  /-- The policy does not permit the location. -/
  | denied (url : String)
  /-- The location cannot be parsed. -/
  | unparsable (url : String) (reason : String)
  /-- A foreign layer names no location. -/
  | missing (layer : Digest)
  deriving DecidableEq

def LocationFault.message : LocationFault → String
  | denied url => url
  | unparsable url reason => s!"{url}: {reason}"
  | missing layer => s!"foreign layer {layer} has no urls"

/-- Why a configuration is not accepted. -/
inductive ConfigFault where
  /-- A pattern for locations is not in the syntax of patterns. -/
  | pattern (fault : PatternFault)
  /-- The signing key is not hexadecimal. -/
  | keyEncoding (fault : Hex.Fault)
  /-- The signing key has the wrong number of octets. -/
  | keyLength (octets : Nat)
  /-- No storage was given. -/
  | noStorage
  /-- A configured service does not work. -/
  | service (detail : String)
  deriving DecidableEq

def ConfigFault.message : ConfigFault → String
  | pattern fault => s!"manifest url pattern: {fault.message}"
  | keyEncoding fault => s!"schema1 signing key: {fault.message}"
  | keyLength n => s!"schema1 signing key: expected 32 bytes, got {n}"
  | noStorage => "storage backend must be configured"
  | service detail => detail

/-- What can go wrong in a registry. -/
inductive RegistryError where
  /-- The content is not stored, or not linked into the repository. -/
  | blobUnknown (digest : Digest)
  /-- The repository has no such manifest. -/
  | manifestUnknown (repository reference : String)
  /-- The repository has no such tag. -/
  | tagUnknown (tag : String)
  /-- There is no such upload session. -/
  | uploadUnknown (session : String)
  /-- A text is no digest. -/
  | digestInvalid (text : String)
  /-- A text is no repository name. -/
  | nameInvalid (text : String)
  /-- A text is no tag name. -/
  | tagInvalid (text : String)
  /-- Content has another digest than the stated one. -/
  | digestMismatch (expected actual : Digest)
  /-- A payload is no acceptable manifest. -/
  | manifestInvalid (fault : ManifestFault)
  /-- A manifest names content that the repository lacks. -/
  | manifestBlobUnknown (digest : Digest)
  /-- A manifest names a location that is not acceptable. -/
  | manifestUrlDenied (fault : LocationFault)
  /-- A signature of a manifest is not accepted. -/
  | manifestUnverified (fault : SignatureFault)
  /-- Schema 1 manifests are switched off. -/
  | legacySchemaUnsupported
  /-- An operation is switched off. -/
  | unsupported (operation : String)
  /-- Writing is switched off. -/
  | readOnly
  /-- An upload is not completed as it should be. -/
  | uploadInvalid (detail : String)
  /-- The configuration is not acceptable. -/
  | config (fault : ConfigFault)
  /-- Listing something failed. -/
  | enumeration (what : String) (cause : RegistryError)
  /-- The storage failed. -/
  | storage (error : StorageError)
  deriving DecidableEq

namespace RegistryError

def message : RegistryError → String
  | blobUnknown d => s!"blob unknown to registry: {d}"
  | manifestUnknown name reference => s!"manifest unknown: {name}@{reference}"
  | tagUnknown t => s!"unknown tag: {t}"
  | uploadUnknown id => s!"blob upload unknown: {id}"
  | digestInvalid s => s!"invalid digest: {s}"
  | nameInvalid s => s!"invalid repository name: {s}"
  | tagInvalid s => s!"invalid tag: {s}"
  | digestMismatch expected actual => s!"digest mismatch: expected {expected}, got {actual}"
  | manifestInvalid fault => s!"manifest invalid: {fault.message}"
  | manifestBlobUnknown d => s!"manifest references unknown blob: {d}"
  | manifestUrlDenied fault => s!"manifest references a disallowed url: {fault.message}"
  | manifestUnverified fault => s!"manifest failed signature verification: {fault.message}"
  | legacySchemaUnsupported => "manifest schema v1 unsupported"
  | unsupported operation => s!"operation unsupported: {operation}"
  | readOnly => "registry is in read-only mode"
  | uploadInvalid detail => s!"blob upload invalid: {detail}"
  | config fault => s!"invalid configuration: {fault.message}"
  | enumeration what cause => s!"failed to enumerate {what}: {cause.message}"
  | storage e => s!"storage error: {e.message}"

/-- The wording of the underlying failure, if there is one. -/
def cause? : RegistryError → Option String
  | enumeration _ cause => some cause.message
  | storage e => some e.message
  | _ => none

/-- Whether the error is an expected negative answer, and no fault. -/
def isNotFound : RegistryError → Bool
  | blobUnknown _ | manifestUnknown .. | tagUnknown _ | uploadUnknown _ => true
  | storage e => e.isNotFound
  | _ => false

def status : RegistryError → Nat
  | blobUnknown _ | manifestUnknown .. | tagUnknown _ | uploadUnknown _ => 404
  | digestInvalid _ | nameInvalid _ | tagInvalid _ | digestMismatch .. | manifestInvalid _
  | manifestBlobUnknown _ | manifestUrlDenied _ | manifestUnverified _
  | legacySchemaUnsupported | uploadInvalid _ => 400
  | unsupported _ | readOnly => 405
  | config _ | enumeration .. | storage _ => 500

def code : RegistryError → String
  | blobUnknown _ => "BLOB_UNKNOWN"
  | manifestUnknown .. | tagUnknown _ => "MANIFEST_UNKNOWN"
  | uploadUnknown _ => "BLOB_UPLOAD_UNKNOWN"
  | digestInvalid _ | digestMismatch .. => "DIGEST_INVALID"
  | nameInvalid _ => "NAME_INVALID"
  | tagInvalid _ => "TAG_INVALID"
  | manifestInvalid _ | manifestUrlDenied _ | legacySchemaUnsupported => "MANIFEST_INVALID"
  | manifestBlobUnknown _ => "MANIFEST_BLOB_UNKNOWN"
  | manifestUnverified _ => "MANIFEST_UNVERIFIED"
  | unsupported _ | readOnly => "UNSUPPORTED"
  | uploadInvalid _ => "BLOB_UPLOAD_INVALID"
  | config _ | enumeration .. | storage _ => "UNKNOWN"

end RegistryError
end ImageRegistry
