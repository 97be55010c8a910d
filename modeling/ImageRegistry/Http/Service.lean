import ImageRegistry.Http.Fetching
import ImageRegistry.Http.Pushing
import ImageRegistry.Http.Removing
import ImageRegistry.Program.World

/-! The interface of a registry: which requests are taken at which path, and how they are
answered. -/

namespace ImageRegistry.Service

/-- Answers a request at a route of a repository. The repository is opened first. -/
def inRepository (settings : Settings) (name : RepositoryName)
    (answer : Repository → Action Response) : Action Response := do
  answer (← Repository.openNamed settings name)

def atRoute (settings : Settings) (occasion : Occasion) (request : Request) :
    Route → Action Response
  | .blob name d => inRepository settings name fun r =>
    match request.method with
    | .get => Fetching.blob r d
    | .head => Fetching.blobHeaders r d
    | .delete => Removing.blob r d
    | _ => return .methodNotAllowed
  | .uploads name => inRepository settings name fun r =>
    match request.method with
    | .post => Pushing.start r occasion request
    | _ => return .methodNotAllowed
  | .upload name session => inRepository settings name fun r =>
    match request.method with
    | .get => Pushing.status r session
    | .patch => Pushing.append r session request
    | .put => Pushing.complete r session request
    | .delete => Removing.upload r session
    | _ => return .methodNotAllowed
  | .manifest name reference => inRepository settings name fun r =>
    match request.method with
    | .get => Fetching.manifest r reference
    | .head => Fetching.manifestHeaders r reference
    | .put => Pushing.manifest r occasion reference request
    | .delete => Removing.manifest r reference
    | _ => return .methodNotAllowed
  | .tags name => inRepository settings name fun r =>
    match request.method with
    | .get => Fetching.tags r
    | _ => return .methodNotAllowed
  | .housekeeping repository =>
    if request.method = .delete ∧ settings.readOnly = false then
      Removing.garbage settings repository
    else return .methodNotAllowed

def belowRoot (settings : Settings) (occasion : Occasion) (request : Request) (path : String) :
    Action Response := do
  match ← Route.ofPath path with
  | some route => atRoute settings occasion request route
  | none => return .notFound

/-- The response to a request at the root, by which clients find out that there is a registry. -/
def atRoot (method : Method) : Response :=
  match method with
  | .get | .head => .ofJson 200 (.object [])
  | _ => .methodNotAllowed

def respond (a : Action Response) : Program Response := do
  match ← ExceptT.run a with
  | .ok response => return response
  | .error e => return .ofError e

/-- Answers a request, before its length is stated. -/
def handle (settings : Settings) (occasion : Occasion) (request : Request) : Program Response :=
  match Route.root.toList.isPrefixOf? request.path.toList with
  | none => return .notFound
  | some [] => return atRoot request.method
  | some below =>
    match (Percent.decode (Octets.ofText (String.ofList below))).toText? with
    | none => return .ofMessage 400 "the path is not UTF-8"
    | some path =>
      if request.body.length ≤ Request.maxBody then
        respond (belowRoot settings occasion request path)
      else
        return .ofMessage 413 "Failed to buffer the request body: length limit exceeded"

def answer (settings : Settings) (occasion : Occasion) (request : Request) : Program Response :=
  return (← handle settings occasion request).sent request.method

end ImageRegistry.Service

namespace ImageRegistry.World

def serve (w : World) (settings : Settings) (occasion : Occasion) (request : Request) :
    Response × World :=
  (Service.answer settings occasion request).run answer w

end ImageRegistry.World
