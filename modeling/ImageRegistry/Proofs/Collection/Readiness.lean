import ImageRegistry.Proofs.Collection.Liveness
import ImageRegistry.Proofs.Manifest.Signing

/-! Why garbage can always be collected. Whatever is linked as a manifest, or has a tag, can be
read, and so can all manifests that it leads to: this holds of every registry to which manifests
were pushed that do not mislead the collector. -/

namespace ImageRegistry

open World

/-- The content of a digest is a manifest with another one as a child. -/
def LeadsTo (contents : Digest → Octets) (d e : Digest) : Prop :=
  ∃ m, Manifest.ofPayload none (contents d) = .ok m ∧ e ∈ Marking.children m

/-- The content of a digest, and of all digests that it leads to, can be read as a manifest. -/
def IsLegible (contents : Digest → Octets) (d : Digest) : Prop :=
  ∀ e, Relation.ReflTransGen (LeadsTo contents) d e →
    ∃ m, Manifest.ofPayload none (contents e) = .ok m

namespace IsLegible

variable {contents : Digest → Octets} {d e : Digest} {m : Manifest}

lemma exists_manifest (h : IsLegible contents d) :
    ∃ m, Manifest.ofPayload none (contents d) = .ok m := h d .refl

lemma of_child (h : IsLegible contents d) (read : Manifest.ofPayload none (contents d) = .ok m)
    (child : e ∈ Marking.children m) : IsLegible contents e :=
  fun c leads => h c (.head ⟨m, read, child⟩ leads)

lemma of_children (read : Manifest.ofPayload none (contents d) = .ok m)
    (children : ∀ e ∈ Marking.children m, IsLegible contents e) : IsLegible contents d := by
  intro c leads
  rcases Relation.ReflTransGen.cases_head leads with rfl | ⟨e, ⟨m', read', child⟩, leads⟩
  · exact ⟨m, read⟩
  · rw [read] at read'
    obtain rfl := Except.ok.inj read'
    exact children e child c leads

end IsLegible

namespace Manifests

variable {settings : Settings} {time : String} {m m' : Manifest}

lemma PreparesTo.children_eq (prepares : PreparesTo settings time m m') :
    Marking.children m' = Marking.children m := by
  cases m with
  | legacy l =>
    rw [PreparesTo] at prepares
    split_ifs at prepares
    · rw [prepares]
    · obtain ⟨_, _, _, _, rfl⟩ := prepares
      rfl
  | docker | oci | index => rw [prepares]

/-- What is stored of a manifest is read back: it was not declared to be an OCI image while it
passes for an index, and it was not signed beside a member for signatures. -/
lemma PreparesTo.ofPayload_none (prepares : PreparesTo settings time m m')
    {declared : Option String} {payload : Octets}
    (read : Manifest.ofPayload declared payload = .ok m)
    (clear : ¬(declared = some MediaType.ociImage ∧ Manifest.passesForIndex payload = true))
    (unsigned : ∀ l, m = .legacy l → l.isSigned = false →
      LegacyManifest.mentionsSignatures payload = false)
    (small : payload.length ≤ Request.maxBody) :
    Manifest.ofPayload none m'.payload = .ok m' := by
  have plain (same : m' = m) : Manifest.ofPayload none m'.payload = .ok m' := by
    rw [same, Manifest.payload_of_ofPayload read]
    exact Manifest.ofPayload_none read clear
  cases m with
  | docker | oci | index => exact plain prepares
  | legacy l =>
    rw [PreparesTo] at prepares
    split_ifs at prepares with signed
    · exact plain prepares
    · obtain ⟨seed, signature, _, signs, rfl⟩ := prepares
      have unsigned' : l.isSigned = false := Bool.eq_false_iff.2 signed
      refine Manifest.ofPayload_sign read unsigned' (unsigned l rfl unsigned') ?_ signs
      exact Nat.lt_of_le_of_lt small (by decide)

end Manifests

/-- What is linked is stored; what is linked as a manifest, or has a tag, has a property. -/
structure Bucket.IsReady (settings : Settings) (P : Digest → Prop) (b : Bucket) : Prop where
  anchored : ∀ kind n d, b.Has (.link kind n d) → b.Has (.blob (settings.blobStore n) d)
  linked : ∀ n d, b.Has (.link .revision n d) → P d
  tagged : ∀ n t d, TagName.accepts t = true →
    b.at? (.tagTarget n t) = some (Octets.ofText d.text) → P d

namespace Bucket.IsReady

variable {settings : Settings} {P : Digest → Prop} {b b' : Bucket}

lemma empty : IsReady settings P ∅ where
  anchored _ _ _ h := by simp [Has, at?, content?] at h
  linked _ _ h := by simp [Has, at?, content?] at h
  tagged _ _ _ _ h := by simp [at?, content?] at h

lemma drops (ready : b.IsReady settings P) {C : Record → Prop} (drops : b.Drops b' C)
    (dragged : ∀ kind n d, b.Has (.link kind n d) → b.Has (.blob (settings.blobStore n) d) →
      C (.blob (settings.blobStore n) d) → C (.link kind n d)) : b'.IsReady settings P where
  anchored kind n d h := by
    obtain ⟨linked, spared⟩ := (drops.has (r := .link kind n d) trivial).1 h
    have stored := ready.anchored kind n d linked
    exact (drops.has (r := .blob _ d) trivial).2
      ⟨stored, fun condemned => spared (dragged kind n d linked stored condemned)⟩
  linked n d h := ready.linked n d ((drops.has (r := .link .revision n d) trivial).1 h).1
  tagged n t d accepted h := by
    by_cases condemned : C (.tagTarget n t)
    · rw [(drops.2 (.tagTarget n t) accepted).1 condemned] at h
      cases h
    · rw [(drops.2 (.tagTarget n t) accepted).2 condemned] at h
      exact ready.tagged n t d accepted h

/-- A bucket stays ready if it keeps its blobs, and whatever is linked or has a tag either was so
before or is as it has to be. -/
lemma extend (ready : b.IsReady settings P)
    (blobs : ∀ store d, b.Has (.blob store d) → b'.Has (.blob store d))
    (links : ∀ kind n d, b'.Has (.link kind n d) → b.Has (.link kind n d) ∨
      b'.Has (.blob (settings.blobStore n) d) ∧ (kind = .revision → P d))
    (tags : ∀ n t d, TagName.accepts t = true →
      b'.at? (.tagTarget n t) = some (Octets.ofText d.text) →
        b.at? (.tagTarget n t) = some (Octets.ofText d.text) ∨ P d) : b'.IsReady settings P where
  anchored kind n d linked := (links kind n d linked).elim
    (fun before => blobs _ d (ready.anchored kind n d before)) And.left
  linked n d linked := (links .revision n d linked).elim (ready.linked n d) fun new => new.2 rfl
  tagged n t d accepted found := (tags n t d accepted found).elim (ready.tagged n t d accepted) id

variable {r : Record} {content : Octets} {links : LinkStore} {d : Digest}

/-- What a tag is made to stand for has to have the property; of other loose records nothing is
asked. -/
lemma put_loose (ready : b.IsReady settings P) (lawful : r.IsLawful) (loose : r.IsLoose)
    (target : ∀ n t d, r = .tagTarget n t → content = Octets.ofText d.text → P d) :
    (b.put r.key content).IsReady settings P := by
  refine ready.extend (fun _ _ stored => stored.put _ _) (fun kind n d linked => .inl ?_)
    fun n t d accepted found => ?_
  · rw [Has, at?_put (q := .link kind n d) lawful trivial, if_neg] at linked
    · exact linked
    · rintro rfl
      exact loose
  · rw [at?_put (q := .tagTarget n t) lawful accepted] at found
    split_ifs at found with same
    · exact .inr (target n t d same (Option.some.inj found))
    · exact .inl found

lemma pushed (ready : b.IsReady settings P) (same : links.settings = settings)
    (manifest : links.current = .revision → P (.ofContent content)) :
    (links.pushed b content).IsReady settings P := by
  refine ready.extend (fun _ _ stored => stored.pushed _ _) (fun kind n d linked => ?_)
    fun n t d accepted found => .inl ?_
  · rw [Has, at?_pushed (r := .link kind n d) trivial] at linked
    split_ifs at linked with isLinked isStored
    · obtain ⟨rfl, rfl, rfl⟩ := Record.link.inj isLinked
      rw [← same]
      exact .inr ⟨(has_pushed b links content).2, manifest⟩
    · cases isStored.1
    · exact .inl linked
  · rwa [at?_pushed (r := .tagTarget n t) accepted, if_neg (by simp), if_neg (by simp)] at found

lemma attached (ready : b.IsReady settings P) (same : links.settings = settings)
    (stored : b.Has (.blob links.blobs d)) (manifest : links.current = .revision → P d) :
    (b.put (links.key links.current d) (Octets.ofText d.text)).IsReady settings P := by
  rw [LinkStore.key]
  refine ready.extend (fun _ _ stored => stored.put _ _) (fun kind n e linked => ?_)
    fun n t e accepted found => .inl ?_
  · rw [Has, at?_put (r := .link _ _ _) (q := .link kind n e) trivial trivial] at linked
    split_ifs at linked with isLinked
    · obtain ⟨rfl, rfl, rfl⟩ := Record.link.inj isLinked
      rw [← same]
      exact .inr ⟨stored.put _ _, manifest⟩
    · exact .inl linked
  · rwa [at?_put (r := .link _ _ _) (q := .tagTarget n t) trivial accepted, if_neg (by simp)]
      at found

lemma unlinked (ready : b.IsReady settings P) (links : LinkStore) (d : Digest) :
    (links.unlinked b d).IsReady settings P := by
  refine ready.extend (fun _ _ stored => stored.unlinked trivial (by simp))
    (fun kind n e linked => .inl ?_) fun n t e accepted found => .inl ?_
  · rw [Has, at?_unlinked (r := .link kind n e) trivial] at linked
    split_ifs at linked
    · cases linked
    · exact linked
  · rwa [at?_unlinked (r := .tagTarget n t) accepted, if_neg (by simp)] at found

end Bucket.IsReady

theorem Change.isReady {settings : Settings} {P : Digest → Prop} {h h' : Holdings}
    (change : Change settings P h h') (ready : h.bucket.IsReady settings P) :
    h'.bucket.IsReady settings P := by
  cases change with
  | write lawful loose holds target stands => exact ready.put_loose lawful loose target
  | discard drops loose whole =>
    exact ready.drops drops fun _ _ _ _ _ condemned => (loose _ condemned).elim
  | push same named manifest => exact ready.pushed same manifest
  | attach same stored manifest => exact ready.attached same stored manifest
  | unlink d same => exact ready.unlinked _ d
  | note same found => exact ready

theorem Changes.isReady {settings : Settings} {P : Digest → Prop} {h h' : Holdings}
    (changes : Changes settings P h h') (ready : h.bucket.IsReady settings P) :
    h'.bucket.IsReady settings P := by
  induction changes with
  | refl => exact ready
  | tail _ change ih => exact change.isReady ih

/-- A digest that the collector can deal with wherever it is linked as a manifest. -/
def IsCollectable (settings : Settings) (contents : Digest → Octets) (d : Digest) : Prop :=
  IsLegible contents d ∧ settings.isHidden d = false

/-- Whether every blob has the content that its digest stands for. -/
def Bucket.Stores (b : Bucket) (contents : Digest → Octets) : Prop :=
  ∀ store d content, b.at? (.blob store d) = some content → content = contents d

namespace Collector

variable {s : Site} {b : Bucket} {cache : DescriptorCache} {settings : Settings}
  {contents : Digest → Octets}

/-- Whether a pending manifest can be read, and has to be there unless it may be missing. -/
def IsFeasible (settings : Settings) (contents : Digest → Octets) (b : Bucket)
    (n : RepositoryName) (p : Marking.Pending) : Prop :=
  IsLegible contents p.digest ∧ (p.mayBeMissing = false →
    b.Has (.link .revision n p.digest) ∧ settings.isHidden p.digest = false)

lemma loads_of_isReady (ledger : b.IsLedger)
    (ready : b.IsReady settings (IsCollectable settings contents)) (stores : b.Stores contents)
    (n : RepositoryName) : Marking.Loads s b ⟨settings, n⟩ DescriptorCache.IsFaithful
      (IsFeasible settings contents b n) := by
  intro cache faithful p ⟨legible, present⟩
  obtain ⟨x, cache', ran, -, known, shown⟩ :=
    Manifests.run_get (s := s) ledger faithful ⟨settings, n⟩ p.digest
  rw [Marking.run_load ran]
  rcases known with rfl | ⟨content, stored, rfl⟩
  · cases missing : p.mayBeMissing with
    | true => simp [Marking.loaded, Manifests.unknown, missing, Except.isOk, Except.toBool]
    | false =>
      obtain ⟨linked, visible⟩ := present missing
      obtain ⟨content, stored⟩ := Bucket.has_iff.1 (ready.anchored _ n _ linked)
      refine absurd rfl (shown visible ?_)
      rw [Bucket.descriptor?, if_pos ⟨.revision, List.mem_cons_self, linked⟩]
      change (b.at? (.blob (settings.blobStore n) p.digest)).map _ ≠ none
      rw [stored]
      exact Option.some_ne_none _
  · obtain ⟨m, read⟩ := legible.exists_manifest
    rw [stores _ _ _ stored, read]
    rfl

theorem run_collect_of_isReady (ledger : b.IsLedger) (faithful : cache.IsFaithful)
    (ready : b.IsReady settings (IsCollectable settings contents)) (stores : b.Stores contents)
    (options : CollectionOptions) (scope : Option RepositoryName) :
    ∃ report b' cache', (s.world b cache).run (collect options settings scope) =
        (.ok report, s.world b' cache') ∧ cache'.IsFaithful ∧ b'.IsLedger ∧
      b'.IsReady settings (IsCollectable settings contents) := by
  obtain ⟨x, b', cache', ran, faithful', ledger', -, good, ok⟩ := run_collect (s := s) options
    (L := IsFeasible settings contents b) (B := fun _ _ => True) (K := fun _ _ _ => False) ledger
    (fun n => Marking.loading_of_faithful ledger ⟨settings, n⟩
      fun p live content m stored read d child =>
        ⟨live.1.of_child (stores _ _ _ stored ▸ read) child, nofun⟩)
    (fun n d linked _ => ⟨(ready.linked n d linked).1, fun _ =>
      ⟨linked, (ready.linked n d linked).2⟩⟩)
    (fun n d ⟨t, accepted, target⟩ => ⟨(ready.tagged n t d accepted
      ((ledger.target?_eq_some_iff accepted).1 target)).1, nofun⟩)
    scope faithful
  have isOk := ok (loads_of_isReady ledger ready stores) fun _ n cache faithful => faithful.opens n
  cases x with
  | error e => cases isOk
  | ok report =>
    obtain ⟨names, found, swept, settled, drops⟩ := good report rfl
    exact ⟨report, b', cache', ran, faithful', ledger', ready.drops drops fun kind n d linked
      stored condemned => condemned_link_of_blob settled swept linked stored condemned⟩

end Collector

/-- A manifest that does not mislead the collector: it was not declared to be an OCI image while it
passes for an index, it is not signed beside a member for signatures, and what it lists is linked
as a manifest. -/
structure Manifest.IsCandid (w : World) (name : RepositoryName) (declared : Option String)
    (payload : Octets) (m : Manifest) : Prop where
  clear : ¬(declared = some MediaType.ociImage ∧ passesForIndex payload = true)
  unsigned : ∀ l, m = .legacy l → l.isSigned = false →
    LegacyManifest.mentionsSignatures payload = false
  children : ∀ d ∈ Marking.children m, (w.record? (.link .revision name d)).isSome = true

/-- An operation of the interface by which no misleading manifest is accepted, unless it can be read
anyway. No two contents with one digest are met, and no access controller hides a manifest. -/
structure Operation.IsCandid (settings : Settings) (contents : Digest → Octets) (w : World)
    (op : Operation) : Prop where
  indirect : op.UsesInterface
  stores : ∀ store d content, (op.perform settings w).record? (.blob store d) = some content →
    content = contents d
  pushes : ∀ occasion q, op = .request occasion q → ∀ name reference,
    q.route? = some (.manifest name reference) → q.method = .put →
    (w.serve settings occasion q).1.status = 201 → ∀ m m',
    Manifest.ofPayload (q.header? "content-type") q.body = .ok m →
    Manifests.PreparesTo settings occasion.signTime m m' →
      contents m'.digest = m'.payload ∧ settings.isHidden m'.digest = false ∧
      (m.IsCandid w name (q.header? "content-type") q.body ∨ IsLegible contents m'.digest)

section

variable {s : Site} {h : Holdings} {settings : Settings} {contents : Digest → Octets}

lemma Manifest.IsCandid.isLegible {name : RepositoryName} {declared : Option String}
    {payload : Octets} {m m' : Manifest} {time : String}
    (candid : m.IsCandid (s.world h.bucket h.cache) name declared payload)
    (ready : h.bucket.IsReady settings (IsCollectable settings contents))
    (read : ofPayload declared payload = .ok m) (small : payload.length ≤ Request.maxBody)
    (prepares : Manifests.PreparesTo settings time m m')
    (named : contents m'.digest = m'.payload) : IsLegible contents m'.digest := by
  have again := prepares.ofPayload_none read candid.clear candid.unsigned small
  rw [← named] at again
  refine .of_children again fun d child => ?_
  rw [prepares.children_eq] at child
  have linked := candid.children d child
  rw [Site.record?_world] at linked
  exact (ready.linked name d linked).1

theorem Operation.isReady_perform {op : Operation} (sound : h.IsSound)
    (ready : h.bucket.IsReady settings (IsCollectable settings contents))
    (stores : h.bucket.Stores contents)
    (candid : op.IsCandid settings contents (s.world h.bucket h.cache)) :
    ∃ h' : Holdings, op.perform settings (s.world h.bucket h.cache) =
        s.world h'.bucket h'.cache ∧ h'.IsSound ∧
      h'.bucket.IsReady settings (IsCollectable settings contents) ∧ h'.bucket.Stores contents := by
  obtain ⟨h', same, sound', ready'⟩ : ∃ h' : Holdings,
      op.perform settings (s.world h.bucket h.cache) = s.world h'.bucket h'.cache ∧ h'.IsSound ∧
        h'.bucket.IsReady settings (IsCollectable settings contents) := by
    by_cases push : ∃ occasion q name reference, op = .request occasion q ∧
        q.route? = some (.manifest name reference) ∧ q.method = .put
    · obtain ⟨occasion, q, name, reference, rfl, found, put⟩ := push
      obtain ⟨h', same, rejected | ⟨created, small, m, m', read, prepares, accepted⟩⟩ :=
        World.push_cases s sound settings occasion found put
      · have changes := rejected.mono (Q := IsCollectable settings contents) fun _ => False.elim
        exact ⟨h', same, changes.isSound sound, changes.isReady ready⟩
      · obtain ⟨named, shown, plain⟩ :=
          candid.pushes occasion q rfl name reference found put created m m' read prepares
        have legible := plain.elim (·.isLegible ready read small prepares named) id
        have changes := accepted (IsCollectable settings contents) ⟨legible, shown⟩
        exact ⟨h', same, changes.isSound sound, changes.isReady ready⟩
    · have good : op.IsGood settings (IsCollectable settings contents) := by
        cases op with
        | request occasion q =>
          exact fun name reference found put =>
            absurd ⟨occasion, q, name, reference, rfl, found, put⟩ push
        | putManifest | assignTag => exact candid.indirect.elim
        | _ => trivial
      rcases perform_cases good s sound with ⟨h', same, changes⟩ | ⟨-, options, scope, same⟩
      · exact ⟨h', same, changes.isSound sound, changes.isReady ready⟩
      · obtain ⟨report, b', cache', ran, faithful, ledger, ready'⟩ :=
          Collector.run_collect_of_isReady (s := s) sound.isLedger sound.isFaithful ready stores
            options scope
        exact ⟨⟨b', cache'⟩, by rw [same, ran], ⟨ledger, faithful⟩, ready'⟩
  refine ⟨h', same, sound', ready', fun store d content stored => candid.stores store d content ?_⟩
  rw [same, Site.record?_world]
  exact stored

theorem Reached.isReady {w : World}
    (reached : Reached settings (fun w op => op.IsCandid settings contents w) w) :
    ∃ (s : Site) (h : Holdings), w = s.world h.bucket h.cache ∧ h.IsSound ∧
      h.bucket.IsReady settings (IsCollectable settings contents) ∧ h.bucket.Stores contents := by
  induction reached with
  | start bucket locationBase =>
    refine ⟨_, ⟨∅, .empty⟩, World.fresh_eq bucket locationBase, Holdings.isSound_empty, .empty, ?_⟩
    intro store d content stored
    simp at stored
  | step op _ candid ih =>
    obtain ⟨s, h, rfl, sound, ready, stores⟩ := ih
    obtain ⟨h', same, facts⟩ := op.isReady_perform sound ready stores candid
    exact ⟨s, h', same, facts⟩

end

namespace Collector

/-- The garbage of a registry can be collected at any time, with any options, unless a manifest was
accepted that misleads the collector. -/
theorem collect_ok {settings : Settings} {contents : Digest → Octets} {w : World}
    (reached : Reached settings (fun w op => op.IsCandid settings contents w) w)
    (options : CollectionOptions) (scope : Option RepositoryName) :
    (w.run (collect options settings scope)).1.isOk = true := by
  obtain ⟨s, h, rfl, sound, ready, stores⟩ := reached.isReady
  obtain ⟨report, b', cache', ran, -⟩ :=
    run_collect_of_isReady (s := s) sound.isLedger sound.isFaithful ready stores options scope
  rw [ran]
  rfl

/-- A request that pushes the list of no manifests under a tag. -/
def exampleRequest : Request where
  method := .put
  path := "/v2/library/app/manifests/latest"
  body := emptyIndex

def exampleOccasion : Occasion where
  session := ⟨List.replicate 32 '0', by decide, by decide⟩
  startTime := ""
  signTime := ""

def taggedBucket : Bucket :=
  (exampleBucket.put (Record.tagTarget exampleRepository.name "latest").key
    (Octets.ofText (Digest.ofContent emptyIndex).text)).put
      (Record.tagEntry exampleRepository.name "latest" (.ofContent emptyIndex)).key
      (Octets.ofText (Digest.ofContent emptyIndex).text)

lemma exists_put_emptyIndex : ∃ i descriptor,
    Manifest.ofPayload none emptyIndex = .ok (.index i) ∧
      ((⟨"registry", ∅, none⟩ : Site).world ∅ .empty).run
        (Manifests.put exampleRepository "" (.index i) (some "latest")) =
          (.ok descriptor, (⟨"registry", ∅, none⟩ : Site).world taggedBucket .empty) := by
  obtain ⟨i, read, childless, payload⟩ := exists_ofPayload_emptyIndex
  have prepared (w : World) : w.run (Manifests.prepare exampleRepository "" (.index i)) =
      (.ok (.index i), w) := by
    rw [Manifests.prepare, childless]
    rfl
  refine ⟨i, ?_⟩
  simp only [Manifests.put, run_bind, prepared, LinkStore.run_put, Tags.run_assign accepts_latest,
    Manifest.payload, payload]
  exact ⟨_, read, rfl⟩

lemma route?_exampleRequest : exampleRequest.route? =
    some (.manifest exampleRepository.name (.tag "latest")) := by decide +kernel

lemma serve_exampleRequest {w : World}
    (served : ((World.fresh "registry" none).serve exampleRepository.settings exampleOccasion
      exampleRequest).2 = w) :
    ∃ b, w = (⟨"registry", ∅, none⟩ : Site).world b .empty ∧ (b = ∅ ∨ b = taggedBucket) := by
  subst served
  rw [World.fresh_eq]
  rcases serve_cases ((⟨"registry", ∅, none⟩ : Site).world ∅ .empty) exampleRepository.settings
    exampleOccasion exampleRequest with same | ⟨route, found, -, same, -⟩
  · exact ⟨∅, same, .inl rfl⟩
  obtain rfl := Option.some.inj (route?_exampleRequest.symm.trans found)
  obtain ⟨i, descriptor, read, ran⟩ := exists_put_emptyIndex
  refine ⟨taggedBucket, same.trans ?_, .inr rfl⟩
  rw [Service.atRoute, Service.inRepository, run_bind, Site.run_openNamed]
  change (World.run _ (Pushing.manifest exampleRepository exampleOccasion (.tag "latest") _)).2 = _
  have read' : Manifest.ofPayload (exampleRequest.header? "content-type") exampleRequest.body =
      .ok (.index i) := read
  have writable (w : World) : w.run exampleRepository.settings.checkWritable = (.ok (), w) := rfl
  simp only [Pushing.manifest, run_bind, run_orFail, read', Except.mapError, Pushing.tagFor,
    run_liftExcept, pure, Except.pure, writable, exampleOccasion, ran]
  rfl

def exampleContents (d : Digest) : Octets := if d = .ofContent emptyIndex then emptyIndex else []

lemma isCandid_exampleRequest : (Operation.request exampleOccasion exampleRequest).IsCandid
    exampleRepository.settings exampleContents (.fresh "registry" none) where
  indirect := trivial
  stores store d content stored := by
    obtain ⟨b, same, rfl | rfl⟩ := serve_exampleRequest rfl
    · rw [Operation.perform, same, Site.record?_world] at stored
      simp at stored
    · rw [Operation.perform, same, Site.record?_world, taggedBucket,
        Bucket.at?_put (r := .tagEntry _ _ _) (q := .blob store d) accepts_latest trivial,
        if_neg (by simp),
        Bucket.at?_put (r := .tagTarget _ _) (q := .blob store d) accepts_latest trivial,
        if_neg (by simp), at?_exampleBucket (r := .blob store d) trivial,
        if_neg (by simp)] at stored
      split_ifs at stored with isList
      obtain ⟨-, rfl⟩ := Record.blob.inj isList
      rw [exampleContents, if_pos rfl]
      exact (Option.some.inj stored).symm
  pushes occasion q same name reference _ _ _ m m' read prepares := by
    obtain ⟨rfl, rfl⟩ := Operation.request.inj same
    obtain ⟨i, read', childless, payload⟩ := exists_ofPayload_emptyIndex
    obtain rfl := Except.ok.inj (read'.symm.trans read)
    obtain rfl : m' = .index i := prepares
    have digest : (Manifest.index i).digest = .ofContent emptyIndex :=
      congrArg Digest.ofContent payload
    rw [digest, exampleContents, if_pos rfl]
    have undeclared (t : String) : exampleRequest.header? "content-type" ≠ some t :=
      (Option.some_ne_none t).symm
    exact ⟨payload.symm, rfl, .inl ⟨fun declared => undeclared _ declared.1, by simp,
      by simp [Marking.children, childless]⟩⟩

/-- After the request the garbage can be collected. -/
theorem exampleRequest_collects : ∃ contents w,
    Reached exampleRepository.settings
      (fun w op => op.IsCandid exampleRepository.settings contents w) w ∧
    w = ((World.fresh "registry" none).serve exampleRepository.settings exampleOccasion
      exampleRequest).2 ∧
    (w.run (collect {} exampleRepository.settings none)).1.isOk = true := by
  have reached : Reached exampleRepository.settings
      (fun w op => op.IsCandid exampleRepository.settings exampleContents w) _ :=
    .step (.request exampleOccasion exampleRequest) (.start "registry" none) isCandid_exampleRequest
  exact ⟨exampleContents, _, reached, rfl, collect_ok reached {} none⟩

end Collector
end ImageRegistry
