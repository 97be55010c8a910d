import ImageRegistry.Config.Draft
import ImageRegistry.Program.World
import ImageRegistry.Storage.Choice
import ImageRegistry.Toml.Reader

/-! The configuration of a server: its storage, where it listens, and its registry. -/

namespace ImageRegistry

/-- The configuration of a server. -/
structure ServerConfig where
  storage : StorageChoice := .memory World.defaultBucket
  bucket : String := World.defaultBucket
  /-- The address at which the server listens. -/
  listen : String := "127.0.0.1:5000"
  registry : RegistryOptions := {}

namespace ServerConfig

def ofJson? (v : Json) : Option ServerConfig := do
  let fields ← Json.Fields.ofJson? ["storage", "bucket", "listen", "registry"] true v
  let default : ServerConfig := {}
  some {
    storage := ← fields.defaulted "storage" default.storage StorageChoice.ofJson?
    bucket := ← fields.defaulted "bucket" default.bucket Json.text?
    listen := ← fields.defaulted "listen" default.listen Json.text?
    registry := ← fields.defaulted "registry" default.registry RegistryOptions.ofJson? }

def ofFile? (content : Octets) : Option ServerConfig := (Toml.parse? content).bind ofJson?

def settings (config : ServerConfig) (scheme : SignatureScheme) (fresh : Octets) :
    Except ConfigFault Settings :=
  ({ options := config.registry } : SettingsDraft).build scheme fresh

end ServerConfig
end ImageRegistry
