import Std.Data.ExtTreeMap
import ImageRegistry.Storage.Path
import ImageRegistry.Storage.StorageError
import ImageRegistry.Text.Octets

/-! A tree of directories and files, and what the calls of a POSIX system do with it. A place
in the tree is the list of names on the way from the root. -/

namespace ImageRegistry

/-- What is at a place. -/
inductive Node where
  | directory
  | file (content : Octets)
  deriving DecidableEq

/-- How long names and paths may be in a system, in octets. -/
structure PathLimits where
  /-- The greatest length of a name. -/
  name : Option Nat
  /-- A length of a whole path that is too great. -/
  path : Option Nat
  deriving DecidableEq

namespace PathLimits

def posix : PathLimits := { name := some 255, path := some 4096 }

def none : PathLimits := { name := .none, path := .none }

def excludesName (limits : PathLimits) (name : String) : Bool :=
  limits.name.any (· < name.utf8ByteSize)

def excludesPath (limits : PathLimits) (p : Path) : Bool :=
  limits.path.any (· ≤ p.text.utf8ByteSize)

end PathLimits

/-- The nodes by their places. The root is a directory that is not listed. -/
structure FileTree where
  nodes : Std.ExtTreeMap (List String) Node
  limits : PathLimits := .posix

namespace FileTree

def empty : FileTree := { nodes := ∅ }

def node? (t : FileTree) : List String → Option Node
  | [] => some .directory
  | place => t.nodes[place]?

def set (t : FileTree) (place : List String) (node : Node) : FileTree :=
  { t with nodes := t.nodes.insert place node }

def unset (t : FileTree) (place : List String) : FileTree :=
  { t with nodes := t.nodes.erase place }

/-- One step along a written path. -/
inductive Step where
  /-- A single dot, or a slash at the end: stay, in a directory. -/
  | stay
  | up
  | down (name : String)
  deriving DecidableEq, Repr

def Step.ofPiece? (piece : List Char) : Option Step :=
  if piece = [] then none
  else if piece = ['.'] then some stay
  else if piece = ['.', '.'] then some up
  else some (down (String.ofList piece))

def steps (p : Path) : List Step :=
  let cs := p.text.toList
  (pieces '/' cs).filterMap Step.ofPiece? ++ (if cs.getLast? = some '/' then [.stay] else [])

def checkPath (t : FileTree) (p : Path) : Except SystemFault Unit :=
  if p.text.toList.contains (Char.ofNat 0) then .error .invalidInput
  else if t.limits.excludesPath p then .error .other
  else .ok ()

/-- Follows steps from a place; each place on the way has to be a directory. -/
def walk (t : FileTree) : List String → List Step → Except SystemFault (List String)
  | place, [] => .ok place
  | place, step :: rest =>
    match t.node? place with
    | none => .error .notFound
    | some (.file _) => .error .other
    | some .directory =>
      match step with
      | .stay => walk t place rest
      | .up => walk t place.dropLast rest
      | .down name =>
        if t.limits.excludesName name then .error .other
        else if (t.node? (place ++ [name])).isSome then walk t (place ++ [name]) rest
        else .error .notFound

/-- The place of an existing node. -/
def find (t : FileTree) (p : Path) : Except SystemFault (List String) := do
  t.checkPath p
  t.walk [] (steps p)

/-- The place that a path names inside an existing directory, and whether anything may be
there but a directory. -/
def findEntry (t : FileTree) (p : Path) : Except SystemFault (List String) := do
  t.checkPath p
  match (steps p).getLast? with
  | some (.down name) =>
    let parent ← t.walk [] (steps p).dropLast
    match t.node? parent with
    | some .directory =>
      if t.limits.excludesName name then .error .other else return parent ++ [name]
    | some (.file _) => .error .other
    | none => .error .notFound
  | _ => .error .other

def look (t : FileTree) (p : Path) : Except SystemFault Node := do
  match t.node? (← t.find p) with
  | some node => return node
  | none => throw .notFound

def isDirectory (t : FileTree) (p : Path) : Bool :=
  match t.look p with
  | .ok .directory => true
  | _ => false

def makeDirectory (t : FileTree) (p : Path) : Except SystemFault FileTree := do
  t.checkPath p
  let wanted := (steps p).reverse.dropWhile (· == .stay)
  match wanted with
  | .down name :: before =>
    let parent ← t.walk [] before.reverse
    match t.node? parent with
    | some .directory =>
      if t.limits.excludesName name then throw .other
      else if (t.node? (parent ++ [name])).isSome then throw .alreadyExists
      else return t.set (parent ++ [name]) .directory
    | some (.file _) => throw .other
    | none => throw .notFound
  | _ =>
    let _ ← t.walk [] wanted.reverse
    throw .alreadyExists

def ancestor (components : List Component) (n : Nat) : Path :=
  match (components.take n).map Component.text with
  | "/" :: names => ⟨"/" ++ String.intercalate "/" names⟩
  | names => ⟨String.intercalate "/" names⟩

/-- Makes a directory and all those on the way to it, and stops at the first that cannot be
made. What was made before stays. -/
def makeDirectories (t : FileTree) (p : Path) : FileTree × Except SystemFault Unit :=
  go t p.components p.components.length
where
  /-- Makes the directory of the first `n` components. -/
  go (t : FileTree) (components : List Component) : Nat → FileTree × Except SystemFault Unit
    | 0 => (t, .ok ())
    | n + 1 =>
      let p := ancestor components (n + 1)
      match t.makeDirectory p with
      | .ok t => (t, .ok ())
      | .error .notFound =>
        match go t components n with
        | (t, .error e) => (t, .error e)
        | (t, .ok ()) =>
          match t.makeDirectory p with
          | .ok t => (t, .ok ())
          | .error e => if t.isDirectory p then (t, .ok ()) else (t, .error e)
      | .error e => if t.isDirectory p then (t, .ok ()) else (t, .error e)

/-- Makes an empty file, or empties the one that is there. -/
def createFile (t : FileTree) (p : Path) : Except SystemFault FileTree := do
  let place ← t.findEntry p
  match t.node? place with
  | some .directory => throw .other
  | _ => return t.set place (.file [])

def write (t : FileTree) (p : Path) (content : Octets) : Except SystemFault FileTree := do
  let place ← t.find p
  match t.node? place with
  | some (.file _) => return t.set place (.file content)
  | _ => throw .other

/-- Moves a file to another path, over a file that may be there. -/
def rename (t : FileTree) (source target : Path) : Except SystemFault FileTree := do
  let place ← t.find source
  let .file content ← t.look source | throw .other
  let goal ← t.findEntry target
  match t.node? goal with
  | some .directory => throw .other
  | _ => return (t.unset place).set goal (.file content)

def removeFile (t : FileTree) (p : Path) : Except SystemFault FileTree := do
  let place ← t.find p
  match t.node? place with
  | some (.file _) => return t.unset place
  | some .directory => throw .other
  | none => throw .notFound

def filesBelow (t : FileTree) (place : List String) : List (List String) :=
  t.nodes.toList.filterMap fun (found, node) =>
    match node, place.isPrefixOf? found with
    | .file _, some names => some names
    | _, _ => none

end FileTree
end ImageRegistry
