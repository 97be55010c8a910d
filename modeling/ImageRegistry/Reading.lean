import ImageRegistry.Naming.RepositoryName
import ImageRegistry.Naming.TagName
import ImageRegistry.RegistryError

/-! Digests and names as callers hand them in, and content that should have a digest. -/

namespace ImageRegistry

def Digest.read (s : String) : Except RegistryError Digest :=
  match Digest.parse? s with
  | some d => .ok d
  | none => .error (.digestInvalid s)

def Digest.verify (d : Digest) (content : Octets) : Except RegistryError Unit :=
  let actual := Digest.ofContent content
  if actual = d then .ok () else .error (.digestMismatch d actual)

def RepositoryName.read (s : String) : Except RegistryError RepositoryName :=
  match RepositoryName.ofText? s with
  | some n => .ok n
  | none => .error (.nameInvalid s)

def TagName.check (s : String) : Except RegistryError Unit :=
  if TagName.accepts s then .ok () else .error (.tagInvalid s)

end ImageRegistry
