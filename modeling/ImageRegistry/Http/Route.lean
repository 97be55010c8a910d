import ImageRegistry.Reading
import ImageRegistry.Text.Split

/-! Routes: what the paths below the root of the interface stand for. Repository names hold
slashes, so a path is read from its end. -/

namespace ImageRegistry

/-- How a request names a manifest. -/
inductive Reference where
  | tag (text : String)
  | digest (digest : Digest)
  deriving DecidableEq

namespace Reference

def text : Reference → String
  | tag t => t
  | digest d => d.text

/-- Reads a reference: a digest, if there is a colon in it, or else a tag. -/
def read (s : String) : Except RegistryError Reference :=
  if s.toList.contains ':' then digest <$> Digest.read s
  else (fun _ => tag s) <$> TagName.check s

end Reference

/-- What a path stands for. -/
inductive Route where
  /-- The garbage of a repository, or of the whole registry. -/
  | housekeeping (repository : Option RepositoryName)
  /-- The tags of a repository. -/
  | tags (repository : RepositoryName)
  /-- The upload sessions of a repository. -/
  | uploads (repository : RepositoryName)
  /-- One session, by an identifier that may not be one. -/
  | upload (repository : RepositoryName) (session : String)
  | blob (repository : RepositoryName) (digest : Digest)
  | manifest (repository : RepositoryName) (reference : Reference)
  deriving DecidableEq

namespace Route

/-- The path at which the interface begins. -/
def root : String := "/v2/"

def path : Route → String
  | housekeeping none => "_housekeeping"
  | housekeeping (some name) => s!"{name}/_housekeeping"
  | tags name => s!"{name}/tags/list"
  | uploads name => s!"{name}/blobs/uploads/"
  | upload name session => s!"{name}/blobs/uploads/{session}"
  | blob name d => s!"{name}/blobs/{d}"
  | manifest name reference => s!"{name}/manifests/{reference.text}"

def location (route : Route) : String := root ++ route.path

def before? (ending : String) (cs : List Char) : Option (List Char) :=
  List.isSuffixOf? ending.toList cs

def readName (cs : List Char) : Except RegistryError RepositoryName :=
  RepositoryName.read (String.ofList cs)

/-- Reads a path that has a last name after a slash. -/
def ofItem (folder : List Char) (last : String) : Except RegistryError (Option Route) :=
  match before? "/blobs/uploads" folder with
  | some name => (fun n => some (upload n last)) <$> readName name
  | none =>
    match before? "/blobs" folder with
    | some name => do return some (blob (← readName name) (← Digest.read last))
    | none =>
      match before? "/manifests" folder with
      | some name => do return some (manifest (← readName name) (← Reference.read last))
      | none => return none

/-- Reads a path that does not begin with a slash. -/
def ofChars (cs : List Char) : Except RegistryError (Option Route) :=
  if cs = "_housekeeping".toList then return some (housekeeping none)
  else
    match before? "/_housekeeping" cs with
    | some name => (fun n => some (housekeeping (some n))) <$> readName name
    | none =>
      match before? "/tags/list" cs with
      | some name => (fun n => some (tags n)) <$> readName name
      | none =>
        match (before? "/blobs/uploads/" cs).or (before? "/blobs/uploads" cs) with
        | some name => (fun n => some (uploads n)) <$> readName name
        | none =>
          match splitLast? '/' cs with
          | none | some (_, []) => return none
          | some (folder, last) => ofItem folder (String.ofList last)

/-- Reads a path below the root; slashes at its start do not count. There may be nothing at the
path. -/
def ofPath (path : String) : Except RegistryError (Option Route) :=
  ofChars (path.toList.dropWhile (· == '/'))

end Route
end ImageRegistry
