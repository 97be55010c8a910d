import ImageRegistry.Json.Record

/-! The options of a registry, as configuration files give them. -/

namespace ImageRegistry

/-- Patterns for the locations of foreign content. -/
structure LocationOptions where
  allow : Option String := none
  deny : Option String := none
  deriving DecidableEq, Repr

/-- The options of a registry. -/
structure RegistryOptions where
  redirect : Bool := false
  deleteEnabled : Bool := false
  separateBlobs : Bool := false
  legacyEnabled : Bool := false
  resumable : Bool := true
  readOnly : Bool := false
  locations : LocationOptions := {}
  /-- The hexadecimal seed of the key for schema 1 manifests. -/
  signingKey : Option String := none
  /-- Whether descriptors are cached in memory. -/
  cacheInMemory : Bool := false
  deriving DecidableEq, Repr

def LocationOptions.ofJson? (v : Json) : Option LocationOptions := do
  let fields ← Json.Fields.ofJson? ["allow", "deny"] true v
  some {
    allow := ← fields.optional "allow" Json.text?
    deny := ← fields.optional "deny" Json.text? }

namespace RegistryOptions

def cacheKind? : Json → Option Unit
  | .string word => if word.toText? = some "inmemory" then some () else none
  | .object [(word, .null)] => if word.toText? = some "inmemory" then some () else none
  | _ => none

def names : List String := [
  "redirect", "delete-enabled", "repository-blob-store", "schema1-enabled", "resumable-digest",
  "read-only", "manifest-urls", "schema1-signing-key", "cache"]

def ofJson? (v : Json) : Option RegistryOptions := do
  let fields ← Json.Fields.ofJson? names true v
  some {
    redirect := ← fields.defaulted "redirect" false Json.bool?
    deleteEnabled := ← fields.defaulted "delete-enabled" false Json.bool?
    separateBlobs := ← fields.defaulted "repository-blob-store" false Json.bool?
    legacyEnabled := ← fields.defaulted "schema1-enabled" false Json.bool?
    resumable := ← fields.defaulted "resumable-digest" true Json.bool?
    readOnly := ← fields.defaulted "read-only" false Json.bool?
    locations := ← fields.defaulted "manifest-urls" {} LocationOptions.ofJson?
    signingKey := ← fields.optional "schema1-signing-key" Json.text?
    cacheInMemory := (← fields.optional "cache" cacheKind?).isSome }

end RegistryOptions
end ImageRegistry
