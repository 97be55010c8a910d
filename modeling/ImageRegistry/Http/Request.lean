import ImageRegistry.Text.Form

/-! Requests: a method, a target that is cut into path and query, headers and a body. -/

namespace ImageRegistry

/-- The method of a request. -/
inductive Method where
  | get
  | head
  | post
  | put
  | patch
  | delete
  | other (name : String)
  deriving DecidableEq, Repr

def Method.ofText (s : String) : Method :=
  if s = "GET" then get
  else if s = "HEAD" then head
  else if s = "POST" then post
  else if s = "PUT" then put
  else if s = "PATCH" then patch
  else if s = "DELETE" then delete
  else other s

/-- A request. -/
structure Request where
  method : Method
  /-- The path as it is written. -/
  path : String
  query : List (String × String) := []
  headers : List (String × Octets) := []
  body : Octets := []

namespace Request

/-- The path and the query of a target; a fragment does not count. -/
def splitTarget (target : List Char) : List Char × List Char :=
  let whole := ((splitFirst? '#' target).map Prod.fst).getD target
  (splitFirst? '?' whole).getD (whole, [])

def ofTarget (method : Method) (target : String) (headers : List (String × Octets))
    (body : Octets) : Request :=
  let (path, query) := splitTarget target.toList
  { method, path := String.ofList path, query := Form.fields query, headers, body }

/-- Whether an octet of a header value can be read: it is a visible character, a blank or a
tab. -/
def isReadable (b : UInt8) : Bool := b == 9 || (32 ≤ b && b < 127)

/-- The value of the first header with a name in lower case, if it can be read. -/
def header? (request : Request) (name : String) : Option String :=
  match request.headers.find? fun h => h.1.toLower == name with
  | some (_, value) => if value.all isReadable then value.toText? else none
  | none => none

/-- The greatest number of octets in a body. -/
def maxBody : Nat := 2 * 1024 * 1024

end Request
end ImageRegistry
