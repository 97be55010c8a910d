/-! Failures of a storage backend: what kind, in which engine, and where. -/

namespace ImageRegistry

/-- What a failure of a backend means to its caller. -/
inductive StorageErrorKind where
  /-- The key, or the bucket that should hold it, does not exist. -/
  | notFound
  /-- The backend refused the operation. -/
  | permissionDenied
  /-- The operation failed while octets were moved. -/
  | io
  /-- The backend could not understand the request. -/
  | invalidRequest
  /-- Anything else. -/
  | other
  deriving DecidableEq, Repr

namespace StorageErrorKind

def message : StorageErrorKind → String
  | notFound => "not found"
  | permissionDenied => "permission denied"
  | io => "I/O error"
  | invalidRequest => "invalid request"
  | other => "other error"

/-- Whether the same operation might succeed on another attempt. -/
def isRetryable (kind : StorageErrorKind) : Bool := kind == io

end StorageErrorKind

/-- The failures of an operating system that are told apart. -/
inductive SystemFault where
  | notFound
  | permissionDenied
  | invalidInput
  | invalidData
  | alreadyExists
  | timedOut
  | unexpectedEnd
  | other
  deriving DecidableEq, Repr

/-- The kind that a failure of the operating system belongs to. -/
def StorageErrorKind.ofSystem : SystemFault → StorageErrorKind
  | .notFound => .notFound
  | .permissionDenied => .permissionDenied
  | .invalidInput | .invalidData => .invalidRequest
  | .alreadyExists | .timedOut | .unexpectedEnd | .other => .io

/-- A failure of a storage backend. -/
structure StorageError where
  kind : StorageErrorKind
  /-- The name of the backend. -/
  engine : String
  bucket : Option String := none
  path : Option String := none
  context : Option String := none
  /-- The wording of the underlying failure. -/
  source : String
  deriving DecidableEq, Repr

namespace StorageError

/-- Whether the key or its bucket was missing. -/
def isNotFound (e : StorageError) : Bool := e.kind == .notFound

def missing (engine bucket path : String) : StorageError where
  kind := .notFound
  engine := engine
  bucket := some bucket
  path := some path
  source := s!"path not found: {path}"

/-- A failure of the operating system, with nothing known about the place. -/
def ofSystem (engine : String) (fault : SystemFault) (source : String) : StorageError where
  kind := .ofSystem fault
  engine := engine
  source := source

def message (e : StorageError) : String :=
  let bucket := e.bucket.elim "" fun b => s!" (bucket: {b})"
  let path := e.path.elim "" fun p => s!" (path: {p})"
  let context := e.context.elim "" fun c => s!" ({c})"
  s!"Storage error [{e.kind.message}] from {e.engine}{bucket}{path}{context}: {e.source}"

end StorageError
end ImageRegistry
