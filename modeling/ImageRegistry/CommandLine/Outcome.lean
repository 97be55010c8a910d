import ImageRegistry.Collection.Collector
import ImageRegistry.CommandLine.Help
import ImageRegistry.Config.ServerConfig
import ImageRegistry.Crypto.Ed25519
import ImageRegistry.Program.World

/-! What running a command comes to: an exit code and the lines that are printed. -/

namespace ImageRegistry.CommandLine

/-- What running a command comes to. -/
structure Outcome where
  /-- Zero for success, one for a failure, two for a command line that is not taken. -/
  exitCode : Nat
  output : List String := []
  /-- What is said about a failure. -/
  complaint : Option String := none
  deriving DecidableEq, Repr

namespace Outcome

def failure (complaint : String) : Outcome := { exitCode := 1, complaint := some complaint }

/-- The outcome of a command line that gives no command: a help text, or a fault. -/
def ofTopic : Topic ⊕ UsageFault → Outcome
  | .inl topic => { exitCode := 0, output := topic.lines }
  | .inr fault => { exitCode := 2, complaint := some fault.message }

end Outcome

def reportLines (r : CollectionReport) : List String :=
  let manifests := r.manifestsDeleted.map fun deletion =>
    s!"{deletion.repository}: manifest {deletion.digest} eligible for deletion"
  let blobs := r.blobsDeleted.map fun (store, d) =>
    s!"{store.text}: blob {d} eligible for deletion"
  let links := r.linksRemoved.map fun (name, d) => s!"{name}: link {d} eligible for deletion"
  let summary := s!"{r.marked} blobs marked, {r.blobsDeleted.length} blobs and " ++
    s!"{r.manifestsDeleted.length} manifests eligible for deletion"
  manifests ++ blobs ++ links ++ [summary]

/-- Collects garbage in the whole registry, or in the repository with a name. -/
def collect (settings : Settings) (options : CollectionOptions) :
    Option String → Action CollectionReport
  | none => Collector.run options settings
  | some name => do Collector.runRepository options settings (← RepositoryName.read name)

/-- Runs a command over a backend. A fresh seed is used if schema 1 manifests are taken and no
key is configured. -/
def perform (config : ServerConfig) (fresh : Octets) (backend : Backend) (command : Command) :
    Outcome × Backend :=
  match config.settings Ed25519.scheme fresh with
  | .error fault => (.failure (RegistryError.config fault).message, backend)
  | .ok settings =>
    match command with
    | .serve listen => (.failure s!"cannot listen on {listen.getD config.listen}", backend)
    | .collect options repository =>
      let world : World := { backend, bucket := config.bucket }
      match world.run (collect settings options repository) with
      | (.ok report, world) => ({ exitCode := 0, output := reportLines report }, world.backend)
      | (.error e, world) => (.failure e.message, world.backend)

end ImageRegistry.CommandLine
