import ImageRegistry.Http.Response
import ImageRegistry.Http.Route
import ImageRegistry.Registry.Manifests
import ImageRegistry.Registry.Uploads

/-! Requests that push: upload sessions, blobs, and manifests. -/

namespace ImageRegistry

/-- What is new about a request. -/
structure Occasion where
  /-- The identifier for a session that is started. -/
  session : UploadId
  /-- The time, as sessions record it. -/
  startTime : String
  /-- The time, as signatures record it. -/
  signTime : String

namespace Pushing

/-- The response that tells how far a session is. -/
def progress (status : Nat) (r : Repository) (p : UploadProgress) : Response where
  status := status
  location := some (Route.upload r.name p.id.text).location
  range := some s!"0-{p.offset - 1}"
  session := some p.id

def blobCreated (r : Repository) (d : Digest) : Response where
  status := 201
  location := some (Route.blob r.name d).location
  digest := some d

def queryDigest? (request : Request) : Except RegistryError (Option Digest) :=
  match Form.value? "digest" request.query with
  | none => return none
  | some s => some <$> Digest.read s

/-- Starts a session, or takes the body as a blob if the query names its digest. -/
def start (r : Repository) (occasion : Occasion) (request : Request) : Action Response := do
  r.settings.checkWritable
  match ← queryDigest? request with
  | some d =>
    let _ ← Uploads.whole r d request.body
    return blobCreated r d
  | none => return progress 202 r (← Uploads.start r occasion.session occasion.startTime)

def status (r : Repository) (session : String) : Action Response := do
  return progress 204 r (← Uploads.status r session)

/-- Takes the body as the next piece of a session. -/
def append (r : Repository) (session : String) (request : Request) : Action Response := do
  r.settings.checkWritable
  return progress 202 r (← Uploads.append r session request.body)

/-- The digest that a request names in its query, or else in a header. -/
def statedDigest (request : Request) : Except RegistryError Digest := do
  match ← queryDigest? request with
  | some d => return d
  | none =>
    match request.header? "digest" with
    | some s => Digest.read s
    | none => throw (.uploadInvalid "missing digest")

/-- Takes the body as the last piece of a session. -/
def complete (r : Repository) (session : String) (request : Request) : Action Response := do
  let d ← statedDigest request
  r.settings.checkWritable
  let _ ← Uploads.commit r session d request.body
  return blobCreated r d

/-- Checks that a manifest has the digest by which it is named, and gives the tag by which it is
named otherwise. -/
def tagFor (m : Manifest) : Reference → Except RegistryError (Option String)
  | .tag t => return some t
  | .digest d => if m.digest = d then return none else throw (.digestMismatch d m.digest)

def manifest (r : Repository) (occasion : Occasion) (reference : Reference)
    (request : Request) : Action Response := do
  let m ← Action.orFail .manifestInvalid
    (Manifest.ofPayload (request.header? "content-type") request.body)
  let tag ← tagFor m reference
  r.settings.checkWritable
  let descriptor ← Manifests.put r occasion.signTime m tag
  return {
    status := 201
    location := some (Route.manifest r.name (.digest descriptor.digest)).location
    digest := some descriptor.digest }

end Pushing
end ImageRegistry
