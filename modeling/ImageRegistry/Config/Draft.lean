import ImageRegistry.Config.Options
import ImageRegistry.Location.WebLocation
import ImageRegistry.Pattern.Reader
import ImageRegistry.Registry.Settings
import ImageRegistry.RegistryError
import ImageRegistry.Text.Blank

/-! Drafts of the settings of a registry. A draft becomes settings if its patterns and its key
can be read. -/

namespace ImageRegistry

/-- Which locations two patterns let pass: those that the first matches, if it is given, and the
second does not. -/
structure LocationPolicy where
  allow : Option Pattern := none
  deny : Option Pattern := none

namespace LocationPolicy

def readPattern : Option String → Except ConfigFault (Option Pattern)
  | none => .ok none
  | some s => (some <$> Pattern.read s).mapError .pattern

def ofOptions (options : LocationOptions) : Except ConfigFault LocationPolicy := do
  return { allow := ← readPattern options.allow, deny := ← readPattern options.deny }

def permits (policy : LocationPolicy) (location : String) : Bool :=
  policy.allow.all (fun p => p.occursIn location) &&
    !policy.deny.any fun p => p.occursIn location

end LocationPolicy

/-- What the settings of a registry are made from. -/
structure SettingsDraft where
  options : RegistryOptions := {}
  /-- A key that is used in place of the one in the options. -/
  signingKey : Option Octets := none
  /-- Whether a cache is given besides the one in the options. -/
  cached : Bool := false
  hides : Option (Digest → Bool) := none
  reader : UrlReader := .plain

namespace SettingsDraft

def seedLength : Nat := 32

def readSeed (s : String) : Except ConfigFault Octets := do
  let seed ← (Hex.decode (Octets.ofText (trimBlanks s))).mapError .keyEncoding
  if seed.length = seedLength then return seed else throw (.keyLength seed.length)

def seed (draft : SettingsDraft) : Except ConfigFault (Option Octets) :=
  match draft.signingKey, draft.options.signingKey with
  | some seed, _ => .ok (some seed)
  | none, some s => some <$> readSeed s
  | none, none => .ok none

/-- The settings that a draft makes. A registry that takes schema 1 manifests and has no key
uses the fresh one. -/
def build (draft : SettingsDraft) (scheme : SignatureScheme) (fresh : Octets) :
    Except ConfigFault Settings := do
  let policy ← LocationPolicy.ofOptions draft.options.locations
  let seed ← draft.seed
  return {
    redirect := draft.options.redirect
    deleteEnabled := draft.options.deleteEnabled
    separateBlobs := draft.options.separateBlobs
    legacyEnabled := draft.options.legacyEnabled
    resumable := draft.options.resumable
    readOnly := draft.options.readOnly
    permits := policy.permits
    signingKey := if draft.options.legacyEnabled then some (seed.getD fresh) else seed
    cached := draft.cached || draft.options.cacheInMemory
    hides := draft.hides
    scheme
    reader := draft.reader }

end SettingsDraft
end ImageRegistry
