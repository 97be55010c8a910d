import ImageRegistry.Collection.Marking
import ImageRegistry.Collection.Removal

/-! Collecting garbage: marking what is in use, then removing the rest, manifests before blobs
and repositories before the shared store. -/

namespace ImageRegistry

/-- What was removed, or would have been. -/
structure CollectionReport where
  /-- The number of digests in use. -/
  marked : Nat
  manifestsDeleted : List ManifestDeletion := []
  blobsDeleted : List (BlobStore × Digest) := []
  linksRemoved : List (RepositoryName × Digest) := []
  dryRun : Bool
  deriving DecidableEq

namespace Collector

def unlessDry (options : CollectionOptions) (a : Action Unit) : Action Unit := do
  unless options.dryRun do a

def candidates (r : Repository) : Action (List Digest) :=
  Action.whileListing s!"blobs in {r.name}" <|
    if r.settings.separateBlobs then r.blobStore.enumerate else r.blobs.enumerate

/-- Removes what is not in use in a repository, and gives it. -/
def sweepRepository (options : CollectionOptions) (marks : MarkSet) (r : Repository) :
    Action (List Digest) := do
  let garbage := (← candidates r).filter fun d => !marks.containsIn r.name d
  garbage.forM fun d => unlessDry options (Removal.repositoryBlob r.settings r.name d)
  return garbage

def addSwept (report : CollectionReport) (r : Repository) (garbage : List Digest) :
    CollectionReport :=
  if r.settings.separateBlobs then
    { report with blobsDeleted := report.blobsDeleted ++ garbage.map fun d => (r.blobStore, d) }
  else { report with linksRemoved := report.linksRemoved ++ garbage.map fun d => (r.name, d) }

def sweepAll (options : CollectionOptions) (marks : MarkSet) :
    List Repository → CollectionReport → Action CollectionReport
  | [], report => return report
  | r :: rest, report => do
    let garbage ← sweepRepository options marks r
    sweepAll options marks rest (addSwept report r garbage)

/-- Removes the manifests that are not in use, then what else is not in some repositories. -/
def sweep (options : CollectionOptions) (repositories : List Repository) (found : Marking) :
    Action CollectionReport := do
  found.deletions.forM fun deletion =>
    unlessDry options (Removal.manifest deletion.repository deletion.digest deletion.tags)
  sweepAll options found.marks repositories {
    marked := found.marks.size, manifestsDeleted := found.deletions, dryRun := options.dryRun }

/-- Removes what is not in use from the shared store. -/
def sweepShared (options : CollectionOptions) (marks : MarkSet) : Action (List Digest) := do
  let stored ← Action.whileListing "global blobs" (BlobStore.enumerate .shared)
  let garbage := stored.filter fun d => !marks.contains d
  garbage.forM fun d => unlessDry options (Removal.sharedBlob d)
  return garbage

/-- Collects the garbage of the whole registry. -/
def run (options : CollectionOptions) (settings : Settings) : Action CollectionReport := do
  let (repositories, found) ← Marking.markAll options settings
  let report ← sweep options repositories found
  if settings.separateBlobs then return report
  else
    let garbage ← sweepShared options found.marks
    return { report with
      blobsDeleted := report.blobsDeleted ++ garbage.map fun d => (.shared, d) }

def runRepository (options : CollectionOptions) (settings : Settings) (name : RepositoryName) :
    Action CollectionReport := do
  let r ← Repository.openNamed settings name
  let found ← Marking.markRepository options r {}
  sweep options [r] found

end Collector
end ImageRegistry
