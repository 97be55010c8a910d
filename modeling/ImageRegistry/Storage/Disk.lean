import ImageRegistry.Ascending
import ImageRegistry.Storage.FileTree
import ImageRegistry.Text.Hex

/-! Buckets kept in a tree of files. Each bucket is a directory below a root. A content is
written to a staging file beside its target, which then takes the place of the target. -/

namespace ImageRegistry

/-- Paths are ordered as their components are. -/
instance : Ord Path := ⟨compareOn Path.components⟩

/-- A root directory in a tree of files. -/
structure Disk where
  /-- The name under which the storage is known. -/
  name : String
  root : Path
  tree : FileTree
  /-- How many staging files were named so far. -/
  stagings : Nat := 0

namespace Disk

/-- The name that stands in failures of this kind of storage. -/
def engine : String := "local"

def empty (name : String) (root : Path) : Disk := { name, root, tree := .empty }

/-- The directory that holds the keys of a bucket. -/
def base (d : Disk) (bucket : String) : Path := d.root / bucket / "b"

def path (d : Disk) (bucket : String) (key : Path) : Path := (d.base bucket).join key.text

def failure (fault : SystemFault) (context : String) (path : Path) : StorageError where
  kind := .ofSystem fault
  engine := engine
  path := some path.text
  source := context

def metadata (d : Disk) (bucket : String) (key : Path) : Except StorageError Nat :=
  let path := d.path bucket key
  match d.tree.look path with
  | .ok (.file content) => .ok content.length
  | .ok .directory => .error (.missing engine bucket path.text)
  | .error e => .error (failure e "local driver: metadata" path)

def download (d : Disk) (bucket : String) (key : Path) : Except StorageError Octets :=
  let path := d.path bucket key
  match d.tree.look path with
  | .ok (.file content) => .ok content
  | .ok .directory => .error (failure .other "copy" path)
  | .error e => .error (failure e "open remote file" path)

/-- Removes a file, which need not exist. -/
def delete (d : Disk) (bucket : String) (key : Path) : Except StorageError Disk :=
  let path := d.path bucket key
  match d.tree.removeFile path with
  | .ok tree => .ok { d with tree }
  | .error .notFound => .ok d
  | .error e => .error (failure e "remove_file" path)

/-- Twelve hexadecimal digits of a number. -/
def digits (n : Nat) : List Char :=
  (List.range 12).reverse.map fun i => Hex.digit (n >>> (4 * i) % 16)

def stagingExtension (n : Nat) : String :=
  "upload-00000000-0000-4000-8000-" ++ String.ofList (digits n)

/-- The steps of an upload that may fail from outside. -/
inductive UploadFault where
  /-- Only the directories of some components are made. -/
  | makeDirectories (depth : Nat) (fault : SystemFault)
  | createStaging (fault : SystemFault)
  /-- Copying stops after some octets. -/
  | copy (written : Nat) (fault : SystemFault)
  /-- Not all octets have reached the file when it is closed. -/
  | close (written : Nat) (fault : SystemFault)
  | rename (fault : SystemFault)
  deriving DecidableEq, Repr

/-- What is written to a staging file before a failure. -/
def UploadFault.written (content : Octets) : Option UploadFault → Octets
  | some (.copy n _) | some (.close n _) => content.take n
  | _ => content

/-- Writes a content to a file, while the system may fail at one of the steps. What was done
before a failure stays. -/
def uploadWith (d : Disk) (bucket : String) (key : Path) (content : Octets)
    (fault : Option UploadFault) : Disk × Except StorageError Unit :=
  let target := d.path bucket key
  let staging := target.withExtension (stagingExtension d.stagings)
  let d := { d with stagings := d.stagings + 1 }
  if let some (.makeDirectories depth e) := fault then
    ({ d with tree := (FileTree.makeDirectories.go d.tree (parent target).components depth).1 },
      .error (failure e "create_dir_all" (parent target)))
  else
    match d.tree.makeDirectories (parent target) with
    | (tree, .error e) => ({ d with tree }, .error (failure e "create_dir_all" (parent target)))
    | (tree, .ok ()) =>
      let d := { d with tree }
      if let some (.createStaging e) := fault then
        (d, .error (failure e "local: create staging file" staging))
      else
        match d.tree.createFile staging with
        | .error e => (d, .error (failure e "local: create staging file" staging))
        | .ok tree =>
          let d := { d with tree }
          match d.tree.write staging (UploadFault.written content fault) with
          | .error e => (d, .error (failure e "copy" staging))
          | .ok tree =>
            let d := { d with tree }
            match fault with
            | some (.copy _ e) => (d, .error (failure e "copy" staging))
            | some (.close _ e) => (d, .error (failure e "shutdown writer" staging))
            | some (.rename e) => (d, .error (failure e "rename into place" target))
            | _ =>
              match d.tree.rename staging target with
              | .ok tree => ({ d with tree }, .ok ())
              | .error e => (d, .error (failure e "rename into place" target))
where
  /-- The directory of a file. -/
  parent (p : Path) : Path := FileTree.ancestor p.components (p.components.length - 1)

def upload (d : Disk) (bucket : String) (key : Path) (content : Octets) :
    Disk × Except StorageError Unit :=
  d.uploadWith bucket key content none

def holding (name : String) (root : Path) (bucket : String) (files : List (Path × Octets)) :
    Disk :=
  files.foldl (fun d (key, content) => (d.upload bucket key content).1) (empty name root)

/-- The files below a path, or of the whole bucket, in the order of their components. Nothing
is listed below a path that is no directory. -/
def list (d : Disk) (bucket : String) (base : Option Path) : List Path :=
  let root := d.base bucket
  let target := base.elim root fun base => root.join base.text
  match d.tree.isDirectory target, d.tree.find target with
  | true, .ok place =>
    ascending <| (d.tree.filesBelow place).filterMap fun names =>
      (names.foldl Path.join target).textAfter? root
  | _, _ => []

end Disk
end ImageRegistry
