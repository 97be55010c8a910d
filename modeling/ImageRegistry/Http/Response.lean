import ImageRegistry.Http.Request
import ImageRegistry.Json.Printer
import ImageRegistry.Naming.UploadId
import ImageRegistry.RegistryError

/-! Responses: a status, the headers that registries send, and a body. -/

namespace ImageRegistry

/-- A response. -/
structure Response where
  status : Nat
  location : Option String := none
  /-- What was uploaded so far. -/
  range : Option String := none
  /-- The digest of the content that the response is about. -/
  digest : Option Digest := none
  /-- The upload session that the response is about. -/
  session : Option UploadId := none
  contentType : Option String := none
  /-- The length of the content, if the body does not say. -/
  contentLength : Option Nat := none
  body : Octets := []
  deriving DecidableEq

namespace Response

/-- The content type of documents. -/
def json : String := "application/json"

/-- The content type of messages for people. -/
def plainText : String := "text/plain; charset=utf-8"

def ofJson (status : Nat) (v : Json) : Response where
  status := status
  contentType := some json
  body := v.compact

def ofMessage (status : Nat) (s : String) : Response where
  status := status
  contentType := some plainText
  body := Octets.ofText s

def ofError (e : RegistryError) : Response :=
  ofJson e.status (.ofMembers [("errors", .array [
    .ofMembers [("code", .text e.code), ("message", .text e.message)]])])

def notFound : Response := { status := 404 }

def methodNotAllowed : Response := { status := 405 }

/-- The response as it is sent: with its length, and without a body if only the headers were
asked for. -/
def sent (method : Method) (r : Response) : Response :=
  { r with
    contentLength := some (r.contentLength.getD r.body.length)
    body := if method = .head then [] else r.body }

def headers (r : Response) : List (String × String) :=
  let header (name : String) (value : Option String) : List (String × String) :=
    (value.map fun value => (name, value)).toList
  header "location" r.location ++ header "range" r.range ++
    header "docker-content-digest" (r.digest.map Digest.text) ++
    header "docker-upload-uuid" (r.session.map UploadId.text) ++
    header "content-type" r.contentType ++
    header "content-length" (r.contentLength.map Nat.repr)

end Response
end ImageRegistry
