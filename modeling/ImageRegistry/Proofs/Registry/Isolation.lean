import ImageRegistry.Proofs.Registry.Integrity
import ImageRegistry.Proofs.Registry.Separation

/-! Where repositories have blob stores of their own they are isolated: what is done in other
repositories can be left out, and nothing that a repository is told or that is stored in it tells
the difference. -/

namespace ImageRegistry

open World

/-- A task in a repository. -/
inductive Task where
  | put (kind : LinkKind) (mediaType : String) (content : Octets)
  | link (kind : LinkKind) (d : Digest)
  | unlink (kind : LinkKind) (d : Digest)
  | delete (kind : LinkKind) (d : Digest)
  | stat (kind : LinkKind) (d : Digest)
  | contains (kind : LinkKind) (d : Digest)
  | get (kind : LinkKind) (d : Digest)
  | locate (kind : LinkKind) (d : Digest)
  | enumerate (kind : LinkKind)
  | putManifest (time : String) (m : Manifest) (tag : Option String)
  | getManifest (d : Digest)
  | deleteManifest (d : Digest)
  | assignTag (tag : String) (d : Digest)
  | getTag (tag : String)
  | removeTag (tag : String)
  | tags
  | lookUpTags (d : Digest)
  | history (tag : String)
  | startUpload (session : UploadId) (time : String)
  | uploadStatus (session : String)
  | appendUpload (session : String) (chunk : Octets)
  | commitUpload (session : String) (d : Digest) (last : Octets)
  | putWhole (d : Digest) (content : Octets)
  | cancelUpload (session : String)
  | collect (options : CollectionOptions)

/-- What a task comes to. -/
inductive TaskResult where
  | done
  | descriptor (descriptor : Descriptor)
  | truth (held : Bool)
  | content (content : Octets)
  | location (location : Option String)
  | digests (digests : List Digest)
  | manifest (m : Manifest)
  | tags (tags : List String)
  | digest (d : Digest)
  | progress (progress : UploadProgress)
  | report (report : CollectionReport)

namespace Task

def perform (r : Repository) : Task → Action TaskResult
  | put kind mediaType content => .descriptor <$> (r.linkStore kind).put mediaType content
  | link kind d => (fun _ => .done) <$> (r.linkStore kind).link d
  | unlink kind d => .truth <$> (r.linkStore kind).unlink d
  | delete kind d => (fun _ => .done) <$> (r.linkStore kind).delete d
  | stat kind d => .descriptor <$> (r.linkStore kind).stat d
  | contains kind d => .truth <$> (r.linkStore kind).contains d
  | get kind d => .content <$> (r.linkStore kind).get d
  | locate kind d => .location <$> (r.linkStore kind).location d
  | enumerate kind => .digests <$> (r.linkStore kind).enumerate
  | putManifest time m tag => .descriptor <$> Manifests.put r time m tag
  | getManifest d => .manifest <$> Manifests.get r d
  | deleteManifest d => (fun _ => .done) <$> Manifests.delete r d
  | assignTag t d => (fun _ => .done) <$> Tags.assign r.name t d
  | getTag t => .digest <$> Tags.get r.name t
  | removeTag t => (fun _ => .done) <$> Tags.remove r.name t
  | tags => .tags <$> Tags.all r.name
  | lookUpTags d => .tags <$> Tags.lookup r.name d
  | history t => .digests <$> Tags.history r.name t
  | startUpload id time => .progress <$> Uploads.start r id time
  | uploadStatus session => .progress <$> Uploads.status r session
  | appendUpload session chunk => .progress <$> Uploads.append r session chunk
  | commitUpload session d last => .descriptor <$> Uploads.commit r session d last
  | putWhole d content => .descriptor <$> Uploads.whole r d content
  | cancelUpload session => (fun _ => .done) <$> Uploads.cancel r session
  | collect options => .report <$> Collector.runRepository options r.settings r.name

/-- Whether a task that does not check the name of a tag is given one that is accepted. -/
def NamesTag : Task → Prop
  | getTag t | removeTag t | history t => TagName.accepts t = true
  | _ => True

/-- What tasks in some repositories come to one after another, and what they leave. Each one opens
its repository. -/
def performAll (settings : Settings) (w : World) : List (RepositoryName × Task) →
    List (RepositoryName × Except RegistryError TaskResult) × World
  | [] => ([], w)
  | (n, task) :: rest =>
    let (x, w) := w.run (do task.perform (← Repository.openNamed settings n))
    let (xs, w) := performAll settings w rest
    ((n, x) :: xs, w)

end Task

/-- What the storage holds under a key. -/
def World.content? (w : World) (key : Path) : Option Octets :=
  (w.backend.download w.bucket key).toOption

/-- The registries that come from an empty bucket by operations of any kind and in any order. How a
registry is set up may change, links need not lead to content, and tags that are removed may have
any name. -/
inductive Written : World → Prop
  | start (bucket : String) (locationBase : Option String) : Written (.fresh bucket locationBase)
  | operation {w : World} (settings : Settings) (op : Operation) (written : Written w) :
      Written (op.perform settings w)
  | task {w : World} (settings : Settings) (n : RepositoryName) {task : Task}
      (named : task.NamesTag) (written : Written w) :
      Written (Operation.within settings w n fun r => task.perform r)
  | removeTag {w : World} (settings : Settings) (n : RepositoryName) (t : String)
      (written : Written w) :
      Written (Operation.within settings w n fun r => Tags.remove r.name t)

variable {settings : Settings} {n : RepositoryName} {w : World} {h h' : Holdings}

lemma Reached.written {Allowed : World → Operation → Prop}
    (reached : Reached settings Allowed w) : Written w := by
  induction reached with
  | start bucket locationBase => exact .start bucket locationBase
  | step op _ _ ih => exact .operation settings op ih

lemma Repository.settings_linkStore (r : Repository) (kind : LinkKind) :
    (r.linkStore kind).settings = r.settings := by cases kind <;> rfl

lemma Repository.repository_linkStore (r : Repository) (kind : LinkKind) :
    (r.linkStore kind).repository = r.name := by cases kind <;> rfl

namespace Task

lemma makes_perform {r : Repository} (same : r.settings = settings) {task : Task}
    (named : task.NamesTag) (links : ∀ kind d, task ≠ link kind d)
    (collects : ∀ options, task ≠ collect options) :
    (task.perform r).Makes settings (fun _ => True) fun _ => True := by
  have sameLinks (kind : LinkKind) : (r.linkStore kind).settings = settings :=
    (r.settings_linkStore kind).trans same
  have mapped {α : Type} {a : Action α} {Q : α → Prop} {f : α → TaskResult}
      (makes : a.Makes settings (fun _ => True) Q) :
      (f <$> a).Makes settings (fun _ => True) fun _ => True := makes.map fun _ _ => trivial
  cases task with
  | put kind mediaType content =>
    exact mapped (LinkStore.makes_put (sameLinks kind) mediaType fun _ => trivial)
  | link kind d => exact absurd rfl (links kind d)
  | unlink kind d => exact mapped (LinkStore.makes_unlink (sameLinks kind) d)
  | delete kind d => exact mapped (LinkStore.makes_delete (sameLinks kind) d)
  | stat kind d => exact mapped (LinkStore.makes_stat (sameLinks kind) d)
  | contains kind d => exact mapped (LinkStore.makes_contains (sameLinks kind) d)
  | get kind d => exact mapped (LinkStore.makes_get (sameLinks kind) d)
  | locate kind d => exact mapped (LinkStore.makes_location (sameLinks kind) d)
  | enumerate kind =>
    exact mapped (.of_run (Q := fun _ => True) fun s h _ =>
      ⟨_, s.run_enumerate h.cache _, fun _ _ => trivial⟩)
  | putManifest time m tag => exact mapped (Manifests.makes_put same time tag fun _ _ => trivial)
  | getManifest d => exact mapped (Manifests.makes_get same d)
  | deleteManifest d => exact mapped (Manifests.makes_delete same d)
  | assignTag t d => exact mapped (Tags.makes_assign r.name t trivial)
  | getTag t =>
    refine mapped (Q := fun _ => True) ((Tags.makes_find? r.name t).bind fun found _ => ?_)
    cases found with
    | none => exact .throw _
    | some d => exact .pure trivial
  | removeTag t =>
    refine mapped (Q := fun _ => True) ((Tags.makes_erase r.name named).bind fun held _ => ?_)
    split_ifs
    · exact .pure trivial
    · exact .throw _
  | tags => exact mapped (Tags.makes_all r.name)
  | lookUpTags d => exact mapped (Tags.makes_lookup r.name d)
  | history t =>
    exact mapped (.of_run (Q := fun _ => True) fun s h _ =>
      ⟨_, s.run_remembered h.cache r.name t, fun _ _ => trivial⟩)
  | startUpload id time => exact mapped (Uploads.makes_start r id time)
  | uploadStatus session => exact mapped (Uploads.makes_status r session)
  | appendUpload session chunk => exact mapped (Uploads.makes_append r session chunk)
  | commitUpload session d last => exact mapped (Uploads.makes_commit same session d last)
  | putWhole d content => exact mapped (Uploads.makes_whole same d content)
  | cancelUpload session => exact mapped (Uploads.makes_cancel r session)
  | collect options => exact absurd rfl (collects options)

lemma isSound_within (settings : Settings) (n : RepositoryName) {task : Task}
    (named : task.NamesTag) (s : Site) (sound : h.IsSound) :
    ∃ h' : Holdings,
      Operation.within settings (s.world h.bucket h.cache) n (fun r => task.perform r) =
      s.world h'.bucket h'.cache ∧ h'.IsSound := by
  by_cases links : ∃ kind d, task = link kind d
  · obtain ⟨kind, d, rfl⟩ := links
    let store := Repository.linkStore ⟨settings, n⟩ kind
    rw [Operation.within_of_opens fun _ => sound.isFaithful.opens n, perform, run_map]
    refine ⟨⟨h.bucket.put (store.key store.current d) (Octets.ofText d.text), h.cache⟩, ?_,
      sound.isLedger.put (r := .link store.current store.repository d) trivial rfl,
      sound.isFaithful⟩
    rw [LinkStore.link, Site.run_store]
  by_cases collects : ∃ options, task = collect options
  · obtain ⟨options, rfl⟩ := collects
    obtain ⟨x, h', gone, ran, sound', -⟩ :=
      Collector.drops_collect s sound options (some n)
    have ran' : (s.world h.bucket h.cache).run (Collector.runRepository options settings n) =
        (x, s.world h'.bucket h'.cache) := ran
    rw [Operation.within_of_opens fun _ => sound.isFaithful.opens n, perform, run_map, ran']
    cases x <;> exact ⟨h', rfl, sound'⟩
  · obtain ⟨h', same, changes⟩ := Operation.changes_within (P := fun _ => True)
      (fun r same => makes_perform same named (fun kind d eq => links ⟨kind, d, eq⟩)
        fun options eq => collects ⟨options, eq⟩) s sound
    exact ⟨h', same, changes.isSound sound⟩

end Task

theorem Written.isSound (written : Written w) :
    ∃ (s : Site) (h : Holdings), w = s.world h.bucket h.cache ∧ h.IsSound := by
  induction written with
  | start bucket locationBase =>
    exact ⟨_, ⟨∅, .empty⟩, World.fresh_eq bucket locationBase, Holdings.isSound_empty⟩
  | operation settings op _ ih =>
    obtain ⟨s, h, rfl, sound⟩ := ih
    have good : op.IsGood settings fun _ => True := by
      cases op <;> simp [Operation.IsGood]
    rcases Operation.perform_cases good s sound with ⟨h', same, changes⟩ | ⟨-, options, scope, same⟩
    · exact ⟨s, h', same, changes.isSound sound⟩
    · obtain ⟨x, h', gone, ran, sound', -⟩ :=
        Collector.drops_collect s sound options scope
      exact ⟨s, h', by rw [same, ran], sound'⟩
  | task settings n named _ ih =>
    obtain ⟨s, h, rfl, sound⟩ := ih
    exact ⟨s, Task.isSound_within settings n named s sound⟩
  | removeTag settings n t _ ih =>
    obtain ⟨s, h, rfl, sound⟩ := ih
    obtain ⟨held, b', gone, ran, drops, -⟩ := Tags.run_erase s sound n t
    rw [Operation.within_of_opens fun _ => sound.isFaithful.opens n, Tags.remove, run_bind, ran]
    cases held <;> exact ⟨s, ⟨b', h.cache⟩, rfl, drops.1, sound.isFaithful⟩

namespace Task

theorem isLocal_perform (separate : settings.separateBlobs = true) {task : Task}
    (named : task.NamesTag) : (task.perform ⟨settings, n⟩).IsLocal settings n := by
  have atLinks {α : Type} {kind : LinkKind} {a : Action α}
      (isLocal : a.IsLocal settings (Repository.linkStore ⟨settings, n⟩ kind).repository) :
      a.IsLocal settings n := by rwa [Repository.repository_linkStore] at isLocal
  have same (kind : LinkKind) : (Repository.linkStore ⟨settings, n⟩ kind).settings = settings :=
    Repository.settings_linkStore ⟨settings, n⟩ kind
  let r : Repository := ⟨settings, n⟩
  cases task with
  | put kind mediaType content =>
    exact (atLinks (LinkStore.isLocal_put _ (same kind) separate mediaType content)).map _
  | link kind d => exact (atLinks (LinkStore.isLocal_link _ separate d)).map _
  | unlink kind d => exact (atLinks (LinkStore.isLocal_unlink _ separate d)).map _
  | delete kind d => exact (atLinks (LinkStore.isLocal_delete _ (same kind) separate d)).map _
  | stat kind d => exact (atLinks (LinkStore.isLocal_stat _ (same kind) d)).map _
  | contains kind d => exact (atLinks (LinkStore.isLocal_contains _ (same kind) d)).map _
  | get kind d => exact (atLinks (LinkStore.isLocal_get _ (same kind) separate d)).map _
  | locate kind d => exact (atLinks (LinkStore.isLocal_location _ (same kind) separate d)).map _
  | enumerate kind => exact (atLinks (LinkStore.agrees_enumerate _)).map _
  | putManifest time m tag =>
    exact (Manifests.isLocal_put (r := r) rfl separate time m tag).map _
  | getManifest d => exact .map _ (Manifests.agrees_get d)
  | deleteManifest d => exact (Manifests.isLocal_delete (r := r) rfl separate d).map _
  | assignTag t d => exact (Tags.isLocal_assign separate t d).map _
  | getTag t =>
    refine (Action.IsLocal.bind (Tags.agrees_find? named) fun found => ?_).map _
    cases found with
    | none => exact Action.Agrees.throw _
    | some d => exact .pure d
  | removeTag t => exact (Tags.isLocal_remove separate named).map _
  | tags => exact .map _ (Tags.agrees_all.weaken fun _ _ listed => listed.1.symm)
  | lookUpTags d => exact .map _ ((Tags.agrees_lookup d).weaken fun _ _ listed => listed.1.symm)
  | history t => exact (Tags.isLocal_history named).map _
  | startUpload id time => exact (Uploads.isLocal_start (r := r) separate id time).map _
  | uploadStatus session => exact (Uploads.isLocal_status (r := r) session).map _
  | appendUpload session chunk =>
    exact (Uploads.isLocal_append (r := r) separate session chunk).map _
  | commitUpload session d last =>
    exact (Uploads.isLocal_commit (r := r) separate rfl session d last).map _
  | putWhole d content => exact (Uploads.isLocal_whole (r := r) separate rfl d content).map _
  | cancelUpload session => exact (Uploads.isLocal_cancel (r := r) separate session).map _
  | collect options => exact (Collector.isLocal_runRepository separate).map _

lemma isLocal_opened (separate : settings.separateBlobs = true) {task : Task}
    (named : task.NamesTag) :
    (do task.perform (← Repository.openNamed settings n) : Action TaskResult).IsLocal settings n :=
  Action.Agrees.bind Repository.agrees_openNamed fun _ _ ⟨opened, same⟩ => by
    subst same opened
    exact isLocal_perform separate named

/-- In registries that look alike to a repository its tasks come to the same, whether or not other
repositories have tasks in between. -/
theorem performAll_alike (separate : settings.separateBlobs = true) (s : Site)
    {tasks : List (RepositoryName × Task)} (named : ∀ task ∈ tasks, task.2.NamesTag)
    (alike : h.Alike settings n h') : ∃ xs xs', ∃ h₁ h₁' : Holdings,
    performAll settings (s.world h.bucket h.cache) tasks = (xs, s.world h₁.bucket h₁.cache) ∧
    performAll settings (s.world h'.bucket h'.cache) (tasks.filter fun task => task.1 = n) =
      (xs', s.world h₁'.bucket h₁'.cache) ∧
    (xs.filter fun x => x.1 = n) = xs' ∧ h₁.Alike settings n h₁' := by
  induction tasks generalizing h h' with
  | nil => exact ⟨[], [], h, h', rfl, rfl, rfl, alike⟩
  | cons task rest ih =>
    obtain ⟨m, task⟩ := task
    have opened : (do task.perform (← Repository.openNamed settings m) :
        Action TaskResult).IsLocal settings m :=
      isLocal_opened separate (named _ List.mem_cons_self)
    have later : ∀ task ∈ rest, task.2.NamesTag := fun task mem =>
      named task (List.mem_cons_of_mem _ mem)
    by_cases own : m = n
    · subst own
      obtain ⟨x, x', g, g', ran, ran', outcome, alike', -⟩ := opened s h h' alike
      obtain ⟨xs, xs', h₁, h₁', rans, rans', same, alike₁⟩ := ih later alike'
      have answered : x = x' := by cases outcome with
        | ok related => exact congrArg _ related
        | error e => rfl
      refine ⟨(m, x) :: xs, (m, x') :: xs', h₁, h₁', ?_, ?_, ?_, alike₁⟩
      · simp only [performAll, ran, rans]
      · simp only [List.filter_cons, decide_true, if_true, performAll, ran', rans']
      · simp only [List.filter_cons, decide_true, if_true, same, answered]
    · -- of the task of another repository this one sees nothing
      obtain ⟨x, _, g, _, ran, -, -, -, unseen⟩ := opened s h h (alike.sound.alike settings m)
      have alike' : g.Alike settings n h' := (unseen n (Ne.symm own)).1.symm.trans alike
      obtain ⟨xs, xs', h₁, h₁', rans, rans', same, alike₁⟩ := ih later alike'
      refine ⟨(m, x) :: xs, xs', h₁, h₁', ?_, ?_, ?_, alike₁⟩
      · simp only [performAll, ran, rans]
      · simp only [List.filter_cons, own, decide_false, Bool.false_eq_true, if_false, rans']
      · simp only [List.filter_cons, own, decide_false, Bool.false_eq_true, if_false, same]

end Task

lemma Site.content?_world (s : Site) (b : Bucket) (cache : DescriptorCache) (key : Path) :
    (s.world b cache).content? key = b.content? key := by
  change ((⟨s.others.insert s.name b⟩ : Memory).download s.name key).toOption = _
  rw [Memory.download, s.bucket_world]
  cases held : b.content? key <;> simp [bind, Except.bind, held] <;> rfl

lemma Holdings.Alike.content?_eq (alike : h.Alike settings n h') {part : String}
    (isPart : part ∈ Layout.partNames) {key : Path}
    (below : key.startsWith (Layout.repository n / part) = true) :
    h.bucket.content? key = h'.bucket.content? key := by
  have held {h h' : Holdings} (alike : h.Alike settings n h') {content : Octets}
      (found : h.bucket.content? key = some content) : h'.bucket.content? key = some content := by
    obtain ⟨stored, at_key, -⟩ := Option.map_eq_some_iff.1 found
    obtain ⟨r, lawful, components, -⟩ := alike.sound.isLedger _ _ at_key
    have belowRecord : r.key.startsWith (Layout.repository n / part) = true := by
      rwa [Path.startsWith, components]
    have owner := Layout.owner?_of_startsWith lawful (Layout.isPart_of_mem isPart)
      (Layout.leads_part n isPart) belowRecord
    have same := alike.records r lawful (.inl owner)
    rw [Bucket.at?, Bucket.at?, Bucket.content?, Bucket.content?, components] at same
    exact same.symm.trans found
  exact Option.ext fun content => ⟨held alike, held alike.symm⟩

/-- Tasks of other repositories can be left out: the tasks of a repository come to the same, and the
same is stored in it, wherever blobs are kept apart. -/
theorem Written.isolated (written : Written w) (separate : settings.separateBlobs = true)
    {cache : DescriptorCache} (kept : cache = w.cache ∨ cache = .empty)
    {tasks : List (RepositoryName × Task)} (named : ∀ task ∈ tasks, task.2.NamesTag)
    (n : RepositoryName) :
    let all := Task.performAll settings { w with cache } tasks
    let own := Task.performAll settings { w with cache } (tasks.filter fun task => task.1 = n)
    (all.1.filter fun x => x.1 = n) = own.1 ∧
    ∀ part ∈ Layout.partNames, ∀ key : Path,
      key.startsWith (Layout.repository n / part) = true →
        all.2.content? key = own.2.content? key := by
  obtain ⟨s, h, rfl, sound⟩ := written.isSound
  have faithful : cache.IsFaithful := by
    rcases kept with rfl | rfl
    · exact sound.isFaithful
    · exact DescriptorCache.isFaithful_empty
  have start : Holdings.IsSound ⟨h.bucket, cache⟩ := ⟨sound.isLedger, faithful⟩
  obtain ⟨xs, xs', h₁, h₁', ran, ran', same, alike⟩ :=
    Task.performAll_alike separate s named (start.alike settings n)
  have begins : { s.world h.bucket h.cache with cache } = s.world h.bucket cache := rfl
  simp only [begins, ran, ran']
  refine ⟨same, fun part isPart key below => ?_⟩
  rw [s.content?_world, s.content?_world, alike.content?_eq isPart below]

/-- A repository is not told that another one, below which it is named, loses the same content. -/
theorem nestedTasks_isolated :
    let outer : RepositoryName := ⟨"library", RepositoryName.accepts_library⟩
    let inner : RepositoryName := ⟨"library/app", RepositoryName.accepts_libraryApp⟩
    let settings : Settings :=
      { scheme := Ed25519.scheme, reader := .plain, separateBlobs := true, deleteEnabled := true
        cached := true }
    let w : World := .fresh "registry" none
    let push : Task := .put .layer MediaType.octets []
    let read : Task := .get .layer (.ofContent [])
    let tasks := [(inner, push), (outer, push), (outer, .delete .layer (.ofContent [])),
      (outer, .collect {}), (inner, read)]
    Written w ∧ (∀ task ∈ tasks, task.2.NamesTag) ∧
    ((Task.performAll settings w tasks).1.filter fun x => x.1 = inner) =
      (Task.performAll settings w [(inner, push), (inner, read)]).1 := by
  intro outer inner settings w push read tasks
  have written : Written w := .start "registry" none
  have named : ∀ task ∈ tasks, task.2.NamesTag := by simp [tasks, Task.NamesTag, push, read]
  have separate : settings.separateBlobs = true := rfl
  have different : outer ≠ inner := by decide +kernel
  have own : (tasks.filter fun task => task.1 = inner) = [(inner, push), (inner, read)] := by
    simp [tasks, different]
  have isolated := (written.isolated separate (.inl rfl) named inner).1
  rw [own] at isolated
  exact ⟨written, named, isolated⟩

end ImageRegistry
