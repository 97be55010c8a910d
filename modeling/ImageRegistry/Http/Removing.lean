import ImageRegistry.Collection.Collector
import ImageRegistry.Http.Response
import ImageRegistry.Http.Route
import ImageRegistry.Registry.Uploads

/-! Requests that remove: blobs, manifests, upload sessions, and garbage. -/

namespace ImageRegistry.Removing

def blob (r : Repository) (d : Digest) : Action Response := do
  r.settings.checkWritable
  r.blobs.delete d
  return { status := 202 }

/-- Takes a manifest, named by its digest, out of a repository. -/
def manifest (r : Repository) : Reference → Action Response
  | .tag _ => throw (.unsupported "delete by tag")
  | .digest d => do
    r.settings.checkWritable
    Manifests.delete r d
    return { status := 202 }

def upload (r : Repository) (session : String) : Action Response := do
  r.settings.checkWritable
  Uploads.cancel r session
  return { status := 204 }

/-- Collects the garbage of a repository, or of the whole registry. -/
def collect (settings : Settings) : Option RepositoryName → Action CollectionReport
  | some name => Collector.runRepository {} settings name
  | none => Collector.run {} settings

/-- Collects garbage; a failure is told in plain text. -/
def garbage (settings : Settings) (repository : Option RepositoryName) : Action Response :=
  tryCatch (do let _ ← collect settings repository; return { status := 200 }) fun e =>
    return .ofMessage 500 e.message

end ImageRegistry.Removing
