import ImageRegistry.Collection.MarkSet
import ImageRegistry.Registry.Manifests

/-! Marking: finding what is in use. In use is what tags stand for, and what is referred to by
manifests in use; manifests without a tag are in use only if they are kept or referred to. -/

namespace ImageRegistry

/-- How garbage is collected. -/
structure CollectionOptions where
  /-- Whether manifests without a tag are garbage. -/
  removeUntagged : Bool := true
  /-- Whether to report only, and to remove nothing. -/
  dryRun : Bool := false
  deriving DecidableEq, Repr

/-- A manifest to be removed. -/
structure ManifestDeletion where
  repository : RepositoryName
  digest : Digest
  /-- The tags that may remember the manifest. -/
  tags : List String
  deriving DecidableEq

/-- What was found to be in use, and which manifests were not. -/
structure Marking where
  marks : MarkSet := {}
  deletions : List ManifestDeletion := []

namespace Marking

/-- A manifest that is still to be marked. -/
structure Pending where
  digest : Digest
  /-- Whether the manifest may be missing, as it is only referred to. -/
  mayBeMissing : Bool
  deriving DecidableEq

/-- The manifest with a digest, unless it may be missing and is. -/
def load (r : Repository) (p : Pending) : Action (Option Manifest) :=
  tryCatch (some <$> Manifests.get r p.digest) fun
    | e@(.manifestUnknown _ _) => if p.mayBeMissing then return none else throw e
    | e => throw e

def children : Manifest → List Digest
  | .index m => m.children.map Descriptor.digest
  | .legacy _ | .docker _ | .oci _ => []

def parts : Manifest → List Digest
  | .index _ => []
  | m@(.legacy _) | m@(.docker _) | m@(.oci _) => m.references.map Descriptor.digest

/-- Marks the pending manifests and all that they refer to. What was found last comes first,
and no manifest is read twice. -/
def trace (r : Repository) (marks : MarkSet) : List Pending → Action MarkSet
  | [] => return marks
  | p :: rest =>
    if h : marks.containsIn r.name p.digest = true then trace r marks rest
    else do
      match ← load r p with
      | none => trace r (marks.mark r.name p.digest) rest
      | some m =>
        trace r ((marks.mark r.name p.digest).markAll r.name (parts m))
          ((children m).reverse.map (fun d => ⟨d, true⟩) ++ rest)
termination_by pending => (marks.unmarked r.name, pending.length)
decreasing_by
  · exact Prod.Lex.right _ (Nat.lt_succ_self _)
  · exact Prod.Lex.left _ _ (MarkSet.unmarked_mark_lt (Bool.eq_false_iff.2 h))
  · apply Prod.Lex.left
    exact Nat.lt_of_le_of_lt
      (MarkSet.unmarked_le_of_subset fun d hd => MarkSet.containsIn_markAll.2 (.inr hd))
      (MarkSet.unmarked_mark_lt (Bool.eq_false_iff.2 h))

/-- Sorts manifests into those that are pending, the last one first, and those that have no
tag. -/
def sort (options : CollectionOptions) (name : RepositoryName) :
    List Digest → List Pending → Action (List Pending × List ManifestDeletion)
  | [], pending => return (pending, [])
  | d :: rest, pending => do
    if options.removeUntagged then
      let tags ← Action.whileListing s!"tags for {d} in {name}" (Tags.lookup name d)
      if tags.isEmpty then
        let tags ← Action.whileListing s!"tags in {name}" (Tags.all name)
        let (pending, untagged) ← sort options name rest pending
        return (pending, ⟨name, d, tags⟩ :: untagged)
    sort options name rest (⟨d, false⟩ :: pending)

/-- Adds what tags stand for, except manifests that are listed anyway. -/
def addTagged (name : RepositoryName) (listed : List Digest) :
    List String → List Pending → Action (List Pending)
  | [], pending => return pending
  | tag :: rest, pending => do
    match ← Action.whileListing s!"tag {tag} in {name}" (Tags.find? name tag) with
    | none => addTagged name listed rest pending
    | some d =>
      if listed.contains d then addTagged name listed rest pending
      else addTagged name listed rest (⟨d, true⟩ :: pending)

def markRepository (options : CollectionOptions) (r : Repository) (found : Marking) :
    Action Marking := do
  let listed ← Action.whileListing s!"manifests in {r.name}" (Manifests.enumerate r)
  let (pending, untagged) ← sort options r.name listed []
  let tags ← Action.whileListing s!"tags in {r.name}" (Tags.all r.name)
  let pending ← addTagged r.name listed tags pending
  let marks ← trace r found.marks pending
  let garbage := untagged.filter fun deletion => !marks.containsIn r.name deletion.digest
  return { marks, deletions := found.deletions ++ garbage }

/-- Marks what is in use in some repositories, and opens them. -/
def markNamed (options : CollectionOptions) (settings : Settings) :
    List RepositoryName → Marking → Action (List Repository × Marking)
  | [], found => return ([], found)
  | name :: rest, found => do
    let r ← Repository.openNamed settings name
    let found ← markRepository options r found
    let (repositories, found) ← markNamed options settings rest found
    return (r :: repositories, found)

def markAll (options : CollectionOptions) (settings : Settings) :
    Action (List Repository × Marking) := do
  markNamed options settings (← Repository.names) {}

end Marking
end ImageRegistry
