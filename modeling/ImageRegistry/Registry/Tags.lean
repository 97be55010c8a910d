import ImageRegistry.Ascending
import ImageRegistry.Program.Program
import ImageRegistry.Reading
import ImageRegistry.Registry.Layout
import ImageRegistry.Text.Blank

/-! Tags: names in a repository that stand for digests. A tag also remembers every digest that
it stood for since it was last removed. -/

namespace ImageRegistry.Tags

def assign (name : RepositoryName) (tag : String) (d : Digest) : Action Unit := do
  TagName.check tag
  Action.store (Record.tagTarget name tag).key (Octets.ofText d.text)
  Action.store (Record.tagEntry name tag d).key (Octets.ofText d.text)

def find? (name : RepositoryName) (tag : String) : Action (Option Digest) := do
  match ← Action.fetch? (Record.tagTarget name tag).key with
  | none => return none
  | some content => return some (← Digest.read (trimBlanks content.toTextLenient))

def get (name : RepositoryName) (tag : String) : Action Digest := do
  match ← find? name tag with
  | some d => return d
  | none => throw (.tagUnknown tag)

/-- Removes a tag with all that it remembers, and says whether there was anything. -/
def erase (name : RepositoryName) (tag : String) : Action Bool := do
  let keys ← Action.keysBelow (Layout.tag name tag)
  keys.forM Action.erase
  return !keys.isEmpty

def remove (name : RepositoryName) (tag : String) : Action Unit := do
  unless ← erase name tag do
    throw (.tagUnknown tag)

def all (name : RepositoryName) : Action (List String) := do
  let base := Layout.tags name
  return ascending ((← Action.keysBelow base).filterMap (Layout.tagName? base))

def standingFor (name : RepositoryName) (d : Digest) : List String → Action (List String)
  | [] => return []
  | tag :: rest => do
    let current ← find? name tag
    let others ← standingFor name d rest
    return if current = some d then tag :: others else others

def lookup (name : RepositoryName) (d : Digest) : Action (List String) := do
  standingFor name d (← all name)

def history (name : RepositoryName) (tag : String) : Action (List Digest) := do
  let base := Layout.tagEntries name tag
  return ascending ((← Action.keysBelow base).filterMap (Layout.linkedDigest? base))

end ImageRegistry.Tags
