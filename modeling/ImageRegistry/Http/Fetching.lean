import ImageRegistry.Http.Response
import ImageRegistry.Http.Route
import ImageRegistry.Registry.Manifests

/-! Requests that fetch: content of blobs, manifests, and tags. They change nothing. -/

namespace ImageRegistry.Fetching

/-- The content of a blob, or the place where it can be fetched directly. -/
def blob (r : Repository) (d : Digest) : Action Response := do
  match ← r.blobs.location d with
  | some location => return { status := 307, location := some location, digest := some d }
  | none =>
    let content ← r.blobs.get d
    return {
      status := 200, contentType := some MediaType.octets, digest := some d, body := content }

def blobHeaders (r : Repository) (d : Digest) : Action Response := do
  let descriptor ← r.blobs.stat d
  return {
    status := 200, contentType := some MediaType.octets, digest := some d,
    contentLength := some descriptor.size }

def resolve (r : Repository) : Reference → Action Digest
  | .digest d => return d
  | .tag t => do
    match ← Tags.find? r.name t with
    | some d => return d
    | none => throw (.manifestUnknown r.name.text t)

def manifest (r : Repository) (reference : Reference) : Action Response := do
  let d ← resolve r reference
  let m ← Manifests.get r d
  return { status := 200, contentType := some m.mediaType, digest := some d, body := m.payload }

def manifestHeaders (r : Repository) (reference : Reference) : Action Response := do
  let d ← resolve r reference
  let m ← Manifests.get r d
  return {
    status := 200, contentType := some m.mediaType, digest := some d,
    contentLength := some m.payload.length }

def tags (r : Repository) : Action Response := do
  let all ← Tags.all r.name
  return .ofJson 200 (.ofMembers [
    ("name", .text r.name.text), ("tags", .array (all.map Json.text))])

end ImageRegistry.Fetching
