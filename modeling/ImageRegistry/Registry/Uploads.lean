import ImageRegistry.Registry.Repository

/-! Upload sessions, in which content is collected before it becomes a blob. -/

namespace ImageRegistry

/-- How much was uploaded in a session. -/
structure UploadProgress where
  id : UploadId
  offset : Nat
  deriving DecidableEq

namespace Uploads

def readId (s : String) : Except RegistryError UploadId :=
  match UploadId.ofText? s with
  | some id => .ok id
  | none => .error (.uploadUnknown s)

def known {α : Type} (id : UploadId) (found : Option α) : Action α :=
  match found with
  | some a => pure a
  | none => throw (.uploadUnknown id.text)

def content (r : Repository) (id : UploadId) : Action Octets := do
  known id (← Action.fetch? (Record.uploadContent r.name id).key)

/-- Starts a session with a fresh identifier at some time. -/
def start (r : Repository) (id : UploadId) (time : String) : Action UploadProgress := do
  Action.store (Record.uploadContent r.name id).key []
  Action.store (Record.uploadStart r.name id).key (Octets.ofText time)
  return { id, offset := 0 }

def status (r : Repository) (session : String) : Action UploadProgress := do
  let id ← readId session
  let offset ← known id (← Action.size? (Record.uploadContent r.name id).key)
  return { id, offset }

def append (r : Repository) (session : String) (chunk : Octets) : Action UploadProgress := do
  unless r.settings.resumable do
    throw (.unsupported "chunked upload")
  let id ← readId session
  let whole := (← content r id) ++ chunk
  Action.store (Record.uploadContent r.name id).key whole
  return { id, offset := whole.length }

/-- Removes the records of a session, and says whether there were any. -/
def erase (r : Repository) (id : UploadId) : Action Bool := do
  let keys ← Action.keysBelow (Layout.upload r.name id)
  keys.forM Action.erase
  return !keys.isEmpty

/-- Ends a session with a last piece. What was uploaded becomes a blob, if it has the digest. -/
def commit (r : Repository) (session : String) (d : Digest) (last : Octets) :
    Action Descriptor := do
  let id ← readId session
  let whole := (← content r id) ++ last
  d.verify whole
  let descriptor ← r.blobs.put MediaType.octets whole
  let _ ← erase r id
  return descriptor

def whole (r : Repository) (d : Digest) (content : Octets) : Action Descriptor := do
  d.verify content
  r.blobs.put MediaType.octets content

def cancel (r : Repository) (session : String) : Action Unit := do
  let id ← readId session
  unless ← erase r id do
    throw (.uploadUnknown id.text)

end Uploads
end ImageRegistry
