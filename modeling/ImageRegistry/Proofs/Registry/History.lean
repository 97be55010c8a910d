import ImageRegistry.Proofs.Collection.Collecting
import ImageRegistry.Proofs.Http.Serving

/-! Histories: the registries that are reached from an empty bucket by any operations. -/

namespace ImageRegistry

open World

/-- An operation of a registry. -/
inductive Operation where
  /-- A request to the interface. -/
  | request (occasion : Occasion) (request : Request)
  | putBlob (name : RepositoryName) (mediaType : String) (content : Octets)
  | startUpload (name : RepositoryName) (session : UploadId) (time : String)
  | appendUpload (name : RepositoryName) (session : String) (chunk : Octets)
  | commitUpload (name : RepositoryName) (session : String) (digest : Digest) (last : Octets)
  | cancelUpload (name : RepositoryName) (session : String)
  | putManifest (name : RepositoryName) (declared : Option String) (payload : Octets)
      (time : String) (tag : Option String)
  /-- Lets a tag stand for a digest, whatever links to it there are. -/
  | assignTag (name : RepositoryName) (tag : String) (digest : Digest)
  | deleteBlob (name : RepositoryName) (digest : Digest)
  | deleteManifest (name : RepositoryName) (digest : Digest)
  /-- Collects the garbage of one repository, or of the whole registry. -/
  | collect (options : CollectionOptions) (scope : Option RepositoryName)

namespace Operation

def within {α : Type} (settings : Settings) (w : World) (name : RepositoryName)
    (a : Repository → Action α) : World :=
  (w.run (do a (← Repository.openNamed settings name))).2

/-- What an operation leaves of a registry, whether it succeeds or fails. -/
def perform (settings : Settings) (w : World) : Operation → World
  | request occasion q => (w.serve settings occasion q).2
  | putBlob n mediaType content => within settings w n fun r => r.blobs.put mediaType content
  | startUpload n session time => within settings w n fun r => Uploads.start r session time
  | appendUpload n session chunk => within settings w n fun r => Uploads.append r session chunk
  | commitUpload n session d last => within settings w n fun r => Uploads.commit r session d last
  | cancelUpload n session => within settings w n fun r => Uploads.cancel r session
  | putManifest n declared payload time tag => within settings w n fun r => do
    let m ← Action.orFail .manifestInvalid (Manifest.ofPayload declared payload)
    Manifests.put r time m tag
  | assignTag n tag d => within settings w n fun r => Tags.assign r.name tag d
  | deleteBlob n d => within settings w n fun r => r.blobs.delete d
  | deleteManifest n d => within settings w n fun r => Manifests.delete r d
  | collect options scope => (w.run (Collector.collect options settings scope)).2

/-- What an operation makes a manifest, or lets a tag stand for, has a property. -/
def IsGood (settings : Settings) (P : Digest → Prop) : Operation → Prop
  | request occasion q => ∀ name reference, q.route? = some (.manifest name reference) →
    q.method = .put → ∀ m m', Manifest.ofPayload (q.header? "content-type") q.body = .ok m →
      Manifests.PreparesTo settings occasion.signTime m m' → P m'.digest
  | putManifest _ declared payload time _ => ∀ m m', Manifest.ofPayload declared payload = .ok m →
    Manifests.PreparesTo settings time m m' → P m'.digest
  | assignTag _ _ d => P d
  | _ => True

/-- Whether an operation collects garbage. -/
def IsCollection : Operation → Prop
  | collect _ _ => True
  | request _ q => q.method = .delete ∧ ∃ scope, q.route? = some (.housekeeping scope)
  | _ => False

/-- Whether an operation is one that clients can bring about. -/
def UsesInterface : Operation → Prop
  | putManifest _ _ _ _ _ | assignTag _ _ _ => False
  | _ => True

end Operation

/-- A registry with an empty bucket in memory, and with an empty cache. -/
def World.fresh (bucket : String) (locationBase : Option String) : World where
  backend := .memory (.ofBuckets [bucket])
  bucket := bucket
  locationBase := locationBase

/-- The registries that are reached from an empty bucket by operations that are allowed where they
are performed. -/
inductive Reached (settings : Settings) (Allowed : World → Operation → Prop) : World → Prop
  | start (bucket : String) (locationBase : Option String) :
      Reached settings Allowed (.fresh bucket locationBase)
  | step {w : World} (op : Operation) (reached : Reached settings Allowed w)
      (allowed : Allowed w op) : Reached settings Allowed (op.perform settings w)

variable {settings : Settings} {P : Digest → Prop}

lemma Reached.run {w : World} (reached : Reached settings (fun _ _ => True) w)
    (ops : List Operation) :
    Reached settings (fun _ _ => True) (ops.foldl (Operation.perform settings) w) := by
  induction ops generalizing w with
  | nil => exact reached
  | cons op ops ih => exact ih (.step op reached trivial)

lemma World.fresh_eq (bucket : String) (locationBase : Option String) :
    World.fresh bucket locationBase =
      (⟨bucket, ∅, locationBase⟩ : Site).world ∅ .empty := by
  have same : Memory.ofBuckets [bucket] =
      ⟨(∅ : Std.ExtTreeMap String Bucket).insert bucket ∅⟩ := by
    refine congrArg Memory.mk (Std.ExtTreeMap.ext_getElem? fun n => ?_)
    simp [Std.ExtTreeMap.getElem?_insert]
  rw [World.fresh, same]
  rfl

lemma Operation.changes_within {α : Type} {name : RepositoryName} {a : Repository → Action α}
    (makes : ∀ r : Repository, r.settings = settings → (a r).Makes settings P fun _ => True)
    (s : Site) {h : Holdings} (sound : h.IsSound) :
    ∃ h', within settings (s.world h.bucket h.cache) name a = s.world h'.bucket h'.cache ∧
      Changes settings P h h' := by
  have opened : (do a (← Repository.openNamed settings name) : Action α).Makes settings P
      fun _ => True := (Repository.makes_openNamed name).bind fun r opened => makes r opened.1
  obtain ⟨x, h', ran, changes, -⟩ := opened s h sound
  exact ⟨h', by rw [within, ran], changes⟩

lemma Operation.within_of_opens {α : Type} {s : Site} {b : Bucket} {cache : DescriptorCache}
    {n : RepositoryName} (opens : settings.cached = true → cache.openFor n = .ok ())
    (a : Repository → Action α) :
    within settings (s.world b cache) n a = ((s.world b cache).run (a ⟨settings, n⟩)).2 := by
  have opened : (if settings.cached then cache.openFor n else .ok ()) = .ok () := by
    split_ifs with cached
    · exact opens cached
    · rfl
  rw [within, run_bind, Site.run_openNamed, opened]
  rfl

namespace Operation

variable {s : Site} {b : Bucket} {cache : DescriptorCache} {r : Repository}

lemma within_of_uncached {α : Type} (uncached : r.settings.cached = false)
    (a : Repository → Action α) :
    within r.settings (s.world b cache) r.name a = ((s.world b cache).run (a r)).2 :=
  within_of_opens (fun cached => absurd cached (by simp [uncached])) a

lemma noted_of_uncached (links : LinkStore) (uncached : links.settings.cached = false) (d : Digest)
    (descriptor : Descriptor) : links.noted cache d descriptor = cache := by
  rw [LinkStore.noted, if_neg (by simp [uncached])]

lemma perform_putBlob (uncached : r.settings.cached = false) (mediaType : String)
    (content : Octets) : (putBlob r.name mediaType content).perform r.settings (s.world b cache) =
      s.world (r.blobs.pushed b content) cache := by
  rw [perform, within_of_uncached uncached, LinkStore.run_put, noted_of_uncached _ uncached]

lemma perform_putManifest (uncached : r.settings.cached = false) {declared : Option String}
    {payload : Octets} {time : String} {m m' : Manifest}
    (read : Manifest.ofPayload declared payload = .ok m)
    (prepared : (s.world b cache).run (Manifests.prepare r time m) = (.ok m', s.world b cache))
    {t : String} (accepted : TagName.accepts t = true) :
    (putManifest r.name declared payload time (some t)).perform r.settings (s.world b cache) =
      s.world ((r.manifests.pushed b m'.payload).assigned r.name t (.ofContent m'.payload))
        cache := by
  rw [perform, within_of_uncached uncached, run_bind, run_orFail, read]
  change (World.run _ (Manifests.put r time m (some t))).2 = _
  rw [Manifests.put, run_bind, prepared]
  simp only [run_bind, LinkStore.run_put, noted_of_uncached r.manifests uncached,
    Tags.run_assign accepted]
  rfl

end Operation

lemma Operation.run_garbage (w : World) (settings : Settings) (scope : Option RepositoryName) :
    (w.run (Removing.garbage settings scope)).2 =
      (w.run (Collector.collect {} settings scope)).2 := by
  have same : Removing.collect settings scope = Collector.collect {} settings scope := by
    cases scope <;> rfl
  unfold Removing.garbage
  rw [run_tryCatch, run_bind, same]
  generalize w.run (Collector.collect {} settings scope) = p
  obtain ⟨x | x, w'⟩ := p <;> rfl

theorem Operation.perform_cases {op : Operation} (good : op.IsGood settings P) (s : Site)
    {h : Holdings} (sound : h.IsSound) :
    (∃ h', op.perform settings (s.world h.bucket h.cache) = s.world h'.bucket h'.cache ∧
      Changes settings P h h') ∨
    (op.IsCollection ∧ ∃ options scope, op.perform settings (s.world h.bucket h.cache) =
      ((s.world h.bucket h.cache).run (Collector.collect options settings scope)).2) := by
  cases op with
  | putBlob n mediaType content =>
    exact .inl (changes_within (fun r same =>
      (Uploads.makes_putBlob same mediaType content).weaken fun _ _ => trivial) s sound)
  | startUpload n session time =>
    exact .inl (changes_within (fun r _ => Uploads.makes_start r session time) s sound)
  | appendUpload n session chunk =>
    exact .inl (changes_within (fun r _ => Uploads.makes_append r session chunk) s sound)
  | commitUpload n session d last =>
    exact .inl (changes_within (fun r same => Uploads.makes_commit same session d last) s sound)
  | cancelUpload n session =>
    exact .inl (changes_within (fun r _ => Uploads.makes_cancel r session) s sound)
  | putManifest n declared payload time tag =>
    exact .inl (changes_within (fun r same => (Action.Makes.orFail fun m read => read).bind
      fun m read => Manifests.makes_put same time tag fun m' => good m m' read) s sound)
  | assignTag n tag d =>
    exact .inl (changes_within (fun r _ => Tags.makes_assign r.name tag good) s sound)
  | deleteBlob n d =>
    exact .inl (changes_within (fun r same => LinkStore.makes_delete same d) s sound)
  | deleteManifest n d =>
    exact .inl (changes_within (fun r same => Manifests.makes_delete same d) s sound)
  | collect options scope => exact .inr ⟨trivial, options, scope, rfl⟩
  | request occasion q =>
    rcases World.serve_cases (s.world h.bucket h.cache) settings occasion q with
      same | ⟨route, found, -, same, -⟩
    · exact .inl ⟨h, same, .refl⟩
    by_cases garbage : ∃ scope, route = .housekeeping scope
    · obtain ⟨scope, rfl⟩ := garbage
      unfold Service.atRoute at same
      split_ifs at same with allowed
      · refine .inr ⟨⟨allowed.1, scope, found⟩, {}, scope, ?_⟩
        rw [perform, same, run_garbage]
      · exact .inl ⟨h, same, .refl⟩
    · obtain ⟨x, h', ran, changes, -⟩ := Service.makes_atRoute (P := P) occasion q
        (fun scope same => garbage ⟨scope, same⟩)
        (fun name reference same => good name reference (same ▸ found)) s h sound
      exact .inl ⟨h', by rw [perform, same, ran], changes⟩

theorem Reached.isSound {Allowed : World → Operation → Prop} {w : World}
    (reached : Reached settings Allowed w) :
    ∃ (s : Site) (h : Holdings), w = s.world h.bucket h.cache ∧ h.IsSound := by
  induction reached with
  | start bucket locationBase =>
    exact ⟨_, ⟨∅, .empty⟩, World.fresh_eq bucket locationBase, Holdings.isSound_empty⟩
  | step op _ _ ih =>
    obtain ⟨s, h, rfl, sound⟩ := ih
    have good : op.IsGood settings fun _ => True := by
      cases op <;> simp [Operation.IsGood]
    rcases Operation.perform_cases good s sound with ⟨h', same, changes⟩ | ⟨-, options, scope, same⟩
    · exact ⟨s, h', same, changes.isSound sound⟩
    · obtain ⟨x, b', cache', ran, faithful, ledger, -⟩ :=
        Collector.run_collect options (B := fun _ _ => True)
          (K := fun _ _ _ => False) (L := fun _ _ => True) sound.isLedger
          (fun n => Marking.loading_of_isSound (s := s) sound.isLedger ⟨settings, n⟩)
          (fun _ _ _ _ => trivial) (fun _ _ _ => trivial) scope sound.isFaithful
      exact ⟨s, ⟨b', cache'⟩, by rw [same, ran], ledger, faithful⟩

end ImageRegistry
