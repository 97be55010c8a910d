import ImageRegistry.Proofs.Manifest.Verifying
import ImageRegistry.Proofs.Registry.Admission
import ImageRegistry.Proofs.Registry.Integrity

/-! A manifest that was pushed is fetched. What is fetched under a digest is what was stored under
it, and that may differ from what was sent: a schema 1 manifest without signatures is signed first,
and then has another digest. -/

namespace ImageRegistry

open World

variable {settings : Settings} {s : Site} {h : Holdings}

/-- A registry in which a manifest was stored that was prepared, and in which a tag stands for it if
it got one. Under its digest there is its payload, unless there was something before. -/
structure Manifests.HasStored (r : Repository) (b : Bucket) (m : Manifest) (tag : Option String)
    (h : Holdings) : Prop where
  sound : h.IsSound
  linked : h.bucket.Has (.link .revision r.name m.digest)
  stored : ∃ content, h.bucket.at? (.blob r.blobStore m.digest) = some content ∧
    (content = m.payload ∨ b.at? (.blob r.blobStore m.digest) = some content)
  tagged : ∀ t, tag = some t → h.bucket.target? r.name t = some m.digest

lemma Bucket.exists_at?_pushed (b : Bucket) (links : LinkStore) (content : Octets) :
    ∃ found, (links.pushed b content).at? (.blob links.blobs (.ofContent content)) = some found ∧
      (found = content ∨ b.at? (.blob links.blobs (.ofContent content)) = some found) := by
  rw [at?_pushed (r := .blob _ _) trivial, if_neg nofun]
  split_ifs with missing
  · exact ⟨content, rfl, .inl rfl⟩
  · have has : b.Has (.blob links.blobs (.ofContent content)) := by
      by_contra absent
      exact missing ⟨rfl, absent⟩
    obtain ⟨found, same⟩ := has_iff.1 has
    exact ⟨found, same, .inr same⟩

namespace Manifests

lemma hasStored_pushed {r : Repository} (sound : h.IsSound) (m : Manifest)
    {descriptor : Descriptor} (named : descriptor.digest = m.digest) :
    HasStored r h.bucket m none
      ⟨r.manifests.pushed h.bucket m.payload, r.manifests.noted h.cache m.digest descriptor⟩ := by
  have change : Change r.settings (fun _ => True) h
      ⟨r.manifests.pushed h.bucket m.payload, r.manifests.noted h.cache m.digest descriptor⟩ :=
    .push rfl named fun _ => trivial
  exact {
    sound := change.isSound sound
    linked := (Bucket.has_pushed h.bucket r.manifests m.payload).1
    stored := h.bucket.exists_at?_pushed r.manifests m.payload
    tagged := fun _ => nofun }

lemma HasStored.assign {r : Repository} {b : Bucket} {m : Manifest} {t : String}
    (stored : HasStored r b m none h) (accepted : TagName.accepts t = true) :
    HasStored r b m (some t)
      ⟨h.bucket.assigned r.name t m.digest, h.cache⟩ := by
  have changes : Changes r.settings (fun _ => True) h _ :=
    Tags.changes_assign accepted h.bucket h.cache r.name (d := m.digest) trivial
  have sound := changes.isSound stored.sound
  refine ⟨sound, stored.linked.assigned _ _ _, ?_, ?_⟩
  · obtain ⟨content, found, origin⟩ := stored.stored
    refine ⟨content, ?_, origin⟩
    rw [Bucket.at?_assigned (r := .blob _ _) accepted trivial, if_neg (by simp)]
    exact found
  · rintro _ ⟨⟩
    rw [sound.isLedger.target?_eq_some_iff accepted,
      Bucket.at?_assigned (r := .tagTarget _ _) accepted accepted, if_pos (.inl rfl)]

theorem hasStored_of_put {r : Repository} (same : r.settings = settings)
    (sound : h.IsSound) {time : String} {m : Manifest} {tag : Option String}
    (accepted : ∀ t, tag = some t → TagName.accepts t = true) {descriptor : Descriptor}
    {w' : World} (ran : (s.world h.bucket h.cache).run (put r time m tag) = (.ok descriptor, w')) :
    ∃ m' h', PreparesTo settings time m m' ∧ descriptor.digest = m'.digest ∧
      w' = s.world h'.bucket h'.cache ∧ HasStored r h.bucket m' tag h' := by
  obtain ⟨m', w₁, prepared, ran⟩ := exists_of_run_bind ran
  obtain ⟨x, h₁, prepared', changes, good⟩ :=
    makes_prepare (P := fun _ => True) same time m s h sound
  obtain ⟨rfl, rfl⟩ := Prod.mk.inj (prepared.symm.trans prepared')
  obtain ⟨⟨cache', sameWorld⟩, -, -⟩ := known_of_prepare sound.isLedger prepared
  have sameBucket := (Site.eq_of_world_eq sameWorld).1
  let described : Descriptor :=
    { mediaType := m'.mediaType, size := m'.payload.length, digest := .ofContent m'.payload }
  have named : described.digest = m'.digest := rfl
  have pushed := hasStored_pushed (r := r) (changes.isSound sound) m' named
  rw [run_bind, LinkStore.run_put] at ran
  rw [← sameBucket]
  cases tag with
  | none =>
    cases ran
    exact ⟨m', _, good m' rfl, rfl, rfl, pushed⟩
  | some t =>
    simp only [run_bind, Tags.run_assign (accepted t rfl)] at ran
    cases ran
    exact ⟨m', _, good m' rfl, rfl, rfl, pushed.assign (accepted t rfl)⟩

end Manifests

/-- The reference under which a manifest is fetched that was pushed under a reference: in place of a
digest there is the one of what is stored. -/
def Reference.settled : Reference → Digest → Reference
  | tag t, _ => tag t
  | digest _, d => digest d

namespace Fetching

variable {r : Repository} {b : Bucket} {m : Manifest} {tag : Option String}

def found (m : Manifest) : Response where
  status := 200
  contentType := some m.mediaType
  digest := some m.digest
  body := m.payload

lemma run_resolve_settled (stored : Manifests.HasStored r b m tag h) {reference : Reference}
    (named : ∀ t, reference = .tag t → TagName.accepts t = true ∧ tag = some t) :
    (s.world h.bucket h.cache).run (resolve r (reference.settled m.digest)) =
      (.ok m.digest, s.world h.bucket h.cache) := by
  cases reference with
  | digest d => rfl
  | tag t =>
    obtain ⟨accepted, isTag⟩ := named t rfl
    rw [Reference.settled, resolve, run_bind, s.run_find? h.cache stored.sound.isLedger _ accepted,
      stored.tagged t isTag]
    rfl

lemma run_manifest_hidden (stored : Manifests.HasStored r b m tag h) {reference : Reference}
    (resolved : (s.world h.bucket h.cache).run (resolve r reference) =
      (.ok m.digest, s.world h.bucket h.cache))
    (hidden : r.settings.isHidden m.digest = true) :
    ((s.world h.bucket h.cache).run (manifest r reference)).1 =
      .error (Manifests.unknown r m.digest) := by
  have told : r.manifests.told? h.bucket h.cache m.digest = none := if_pos hidden
  rw [manifest, run_bind, resolved]
  dsimp only
  rw [run_bind, Manifests.run_get_told stored.sound.isLedger (by simp [told]), told]
  rfl

lemma run_manifest_found (stored : Manifests.HasStored r b m tag h) {reference : Reference}
    (resolved : (s.world h.bucket h.cache).run (resolve r reference) =
      (.ok m.digest, s.world h.bucket h.cache))
    (shown : r.settings.isHidden m.digest = false)
    (unmixed : ∀ content, b.at? (.blob r.blobStore m.digest) = some content → content = m.payload)
    (legible : Manifest.ofPayload none m.payload = .ok m) :
    ((s.world h.bucket h.cache).run (manifest r reference)).1 = .ok (found m) := by
  obtain ⟨content, held, origin⟩ := stored.stored
  obtain rfl : content = m.payload := origin.elim id (unmixed content)
  have linked : ∃ kind ∈ r.manifests.kinds,
      h.bucket.Has (.link kind r.manifests.repository m.digest) :=
    ⟨.revision, List.mem_cons_self, stored.linked⟩
  have described : h.bucket.descriptor? r.manifests m.digest ≠ none := by
    rw [Bucket.descriptor?, if_pos linked]
    change (h.bucket.at? (.blob r.blobStore m.digest)).map _ ≠ none
    rw [held]
    exact Option.some_ne_none _
  obtain ⟨descriptor, told⟩ := Option.isSome_iff_exists.1
    ((LinkStore.isSome_told?_iff r.manifests).2 ⟨shown, .inr described⟩)
  rw [manifest, run_bind, resolved]
  dsimp only
  rw [run_bind, Manifests.run_get_told stored.sound.isLedger fun _ =>
    r.manifests.digest_of_told? stored.sound.isFaithful, told, Option.bind_some, held,
    Option.elim_some, legible]
  rfl

end Fetching

namespace World

lemma run_inRepository (sound : h.IsSound) (n : RepositoryName)
    (answer : Repository → Action Response) :
    (s.world h.bucket h.cache).run (Service.inRepository settings n answer) =
      (s.world h.bucket h.cache).run (answer ⟨settings, n⟩) := by
  rw [Service.inRepository, run_bind, sound.isFaithful.run_openNamed]

lemma run_atManifest (sound : h.IsSound) (occasion : Occasion) (q : Request) (n : RepositoryName)
    (reference : Reference) :
    (s.world h.bucket h.cache).run (Service.atRoute settings occasion q (.manifest n reference)) =
      (s.world h.bucket h.cache).run (match q.method with
        | .get => Fetching.manifest ⟨settings, n⟩ reference
        | .head => Fetching.manifestHeaders ⟨settings, n⟩ reference
        | .put => Pushing.manifest ⟨settings, n⟩ occasion reference q
        | .delete => Removing.manifest ⟨settings, n⟩ reference
        | _ => return .methodNotAllowed) :=
  run_inRepository sound n _

lemma status_ofError_ne (e : RegistryError) : (Response.ofError e).status ≠ 201 := by
  cases e <;> exact nofun

theorem exists_of_created (sound : h.IsSound) {occasion : Occasion} {q : Request}
    {n : RepositoryName} {reference : Reference} (put : q.method = .put)
    (found : q.route? = some (.manifest n reference))
    (created : ((s.world h.bucket h.cache).serve settings occasion q).1.status = 201) :
    ∃ m m' tag h', Manifest.ofPayload (q.header? "content-type") q.body = .ok m ∧
      Manifests.PreparesTo settings occasion.signTime m m' ∧
      Pushing.tagFor m reference = .ok tag ∧ q.body.length ≤ Request.maxBody ∧
      ((s.world h.bucket h.cache).serve settings occasion q).1.digest = some m'.digest ∧
      ((s.world h.bucket h.cache).serve settings occasion q).2 = s.world h'.bucket h'.cache ∧
      Manifests.HasStored ⟨settings, n⟩ h.bucket m' tag h' := by
  have accepts (t : String) (isTag : reference = .tag t) : TagName.accepts t = true :=
    Request.accepts_of_route? (isTag ▸ found)
  rw [serve_of_route? _ _ _ found] at created ⊢
  split_ifs at created ⊢ with small
  · rw [run_atManifest sound, put] at created ⊢
    cases ran : (s.world h.bucket h.cache).run
      (Pushing.manifest ⟨settings, n⟩ occasion reference q) with
    | mk reply w' =>
      simp only [ran] at created ⊢
      cases reply with
      | error e => exact absurd created (status_ofError_ne e)
      | ok response =>
        rcases Pushing.run_manifest_cases (s.world h.bucket h.cache) ⟨settings, n⟩ occasion
          reference q with ⟨e, failed⟩ | ⟨m, tag, read, named, goesOn⟩
        · cases failed.symm.trans ran
        rw [goesOn, map_eq_pure_bind] at ran
        obtain ⟨descriptor, _, stored, ran⟩ := exists_of_run_bind ran
        cases ran
        obtain ⟨m', h', prepared, digest, rfl, left⟩ := Manifests.hasStored_of_put
          (r := ⟨settings, n⟩) rfl sound (Pushing.accepts_of_tagFor accepts named) stored
        exact ⟨m, m', tag, h', read, prepared, named, small, congrArg some digest, rfl, left⟩
  · cases created

/-- What a request gets for a manifest that was stored under its reference: that there is none, if
it is hidden, or else the manifest, if what is stored is its payload and can be read. -/
lemma get_of_hasStored {r : Repository} {b : Bucket} {m : Manifest} {tag : Option String}
    (stored : Manifests.HasStored r b m tag h) (occasion : Occasion) {q : Request}
    {reference : Reference} (get : q.method = .get)
    (found : q.route? = some (.manifest r.name (reference.settled m.digest)))
    (small : q.body.length ≤ Request.maxBody) (isTag : ∀ t, reference = .tag t → tag = some t) :
    (r.settings.isHidden m.digest = true →
      ((s.world h.bucket h.cache).serve r.settings occasion q).1.status = 404) ∧
    (r.settings.isHidden m.digest = false →
      (∀ content, b.at? (.blob r.blobStore m.digest) = some content → content = m.payload) →
      Manifest.ofPayload none m.payload = .ok m →
      ((s.world h.bucket h.cache).serve r.settings occasion q).1 =
        (Fetching.found m).sent .get) := by
  have resolved : (s.world h.bucket h.cache).run (Fetching.resolve r (reference.settled m.digest)) =
      (.ok m.digest, s.world h.bucket h.cache) :=
    Fetching.run_resolve_settled stored fun t same =>
      ⟨Request.accepts_of_route? (same ▸ found), isTag t same⟩
  have served : ((s.world h.bucket h.cache).serve r.settings occasion q).1 =
      (Response.ofReply ((s.world h.bucket h.cache).run
        (Fetching.manifest r (reference.settled m.digest))).1).sent .get := by
    rw [serve_of_route? _ _ _ found, if_pos small, run_atManifest stored.sound, get]
  rw [served]
  constructor
  · intro hidden
    rw [Fetching.run_manifest_hidden stored resolved hidden]
    rfl
  · intro shown unmixed legible
    rw [Fetching.run_manifest_found stored resolved shown unmixed legible]
    rfl

end World

/-- A payload that is read in the same way when it is not declared, and that is read back when it
was signed. -/
structure Manifest.IsPlain (declared : Option String) (payload : Octets) (m : Manifest) : Prop where
  clear : ¬(declared = some MediaType.ociImage ∧ passesForIndex payload = true)
  unsigned : ∀ l, m = .legacy l → l.isSigned = false →
    LegacyManifest.mentionsSignatures payload = false

/-- A response with content of a media type that has a digest. -/
structure Response.Carries (mediaType : String) (d : Digest) (response : Response) : Prop where
  status : response.status = 200
  contentType : response.contentType = some mediaType
  digest : response.digest = some d
  body : Digest.ofContent response.body = d

lemma Manifests.PreparesTo.mediaType_eq {time : String} {m m' : Manifest}
    (prepares : PreparesTo settings time m m') : m'.mediaType = m.mediaType := by
  cases m with
  | legacy l =>
    rw [PreparesTo] at prepares
    split_ifs at prepares
    · rw [prepares]
    · obtain ⟨_, _, _, _, rfl⟩ := prepares
      rfl
  | docker | oci | index => rw [prepares]

lemma Manifests.PreparesTo.eq_or_unsigned {time : String} {m m' : Manifest}
    (prepares : PreparesTo settings time m m') :
    m' = m ∨ ∃ l, m = .legacy l ∧ l.isSigned = false := by
  cases m with
  | legacy l =>
    rw [PreparesTo] at prepares
    split_ifs at prepares with signed
    · exact .inl prepares
    · exact .inr ⟨l, rfl, Bool.eq_false_iff.2 signed⟩
  | docker | oci | index => exact .inl prepares

/-- Once a push was answered with success, what was pushed is fetched under the same reference, with
the digest that the answer to the push gave; in place of a digest it is that one. It is a different
one only if the manifest had no signatures. A manifest that is hidden is not found. -/
theorem Evolved.get_of_put {w : World} (evolved : Evolved settings w) {occasion : Occasion}
    {q : Request} {n : RepositoryName} {reference : Reference} (put : q.method = .put)
    (found : q.route? = some (.manifest n reference))
    (created : (w.serve settings occasion q).1.status = 201) :
    ∃ m m' : Manifest, Manifest.ofPayload (q.header? "content-type") q.body = .ok m ∧
      (w.serve settings occasion q).1.digest = some m'.digest ∧
      (m' = m ∨ ∃ l, m = .legacy l ∧ l.isSigned = false) ∧
      (∀ d, reference = .digest d → m.digest = d) ∧
      ∀ occasion' q', q'.method = .get →
        q'.route? = some (.manifest n (reference.settled m'.digest)) →
        q'.body.length ≤ Request.maxBody →
        (settings.isHidden m'.digest = true →
          ((w.serve settings occasion q).2.serve settings occasion' q').1.status = 404) ∧
        (settings.isHidden m'.digest = false →
          (∀ content, w.record? (.blob (settings.blobStore n) m'.digest) = some content →
            content = m'.payload) →
          m.IsPlain (q.header? "content-type") q.body →
          ((w.serve settings occasion q).2.serve settings occasion' q').1.Carries
            m.mediaType m'.digest) := by
  obtain ⟨s, h, rfl, intact⟩ := evolved.isIntact
  obtain ⟨m, m', tag, h', read, prepared, named, small, digest, same, stored⟩ :=
    World.exists_of_created intact.sound put found created
  refine ⟨m, m', read, digest, prepared.eq_or_unsigned, ?_,
    fun occasion' q' get found' small' => ?_⟩
  · rintro d rfl
    rw [Pushing.tagFor] at named
    split_ifs at named with isDigest
    exact isDigest
  · have isTag : ∀ t, reference = .tag t → tag = some t := by
      rintro t rfl
      exact (Except.ok.inj named).symm
    obtain ⟨hidden, shown⟩ :=
      World.get_of_hasStored (s := s) stored occasion' get found' small' isTag
    rw [same]
    refine ⟨hidden, fun isShown unmixed plain => ?_⟩
    have legible := prepared.ofPayload_none read plain.clear plain.unsigned small
    have answered := shown isShown (fun content held => unmixed content ?_) legible
    · rw [answered]
      exact ⟨rfl, congrArg some prepared.mediaType_eq, rfl, rfl⟩
    · rw [Site.record?_world]
      exact held

open Collector

/-- The settings of the example, with an access controller. -/
def Settings.hiding (hides : Option (Digest → Bool)) : Settings :=
  { exampleRepository.settings with hides }

def exampleFetch : Request := { exampleRequest with method := .get, body := [] }

lemma route?_exampleFetch : exampleFetch.route? =
    some (.manifest exampleRepository.name (.tag "latest")) := by decide +kernel

lemma status_exampleRequest (hides : Option (Digest → Bool)) :
    ((World.fresh "registry" none).serve (.hiding hides) exampleOccasion exampleRequest).1.status =
      201 := by
  obtain ⟨i, read, childless, payload⟩ := exists_ofPayload_emptyIndex
  have read' : Manifest.ofPayload (exampleRequest.header? "content-type") exampleRequest.body =
      .ok (.index i) := read
  let r : Repository := ⟨.hiding hides, exampleRepository.name⟩
  have writable (w : World) : w.run r.settings.checkWritable = (.ok (), w) := rfl
  have prepared (w : World) : w.run (Manifests.prepare r "" (.index i)) = (.ok (.index i), w) := by
    rw [Manifests.prepare, childless]
    rfl
  rw [World.fresh_eq, World.serve_of_route? _ _ _ route?_exampleRequest, if_pos (by decide),
    World.run_atManifest Holdings.isSound_empty]
  change (Response.ofReply (World.run _ (Pushing.manifest r exampleOccasion _ _)).1).status = 201
  simp only [Pushing.manifest, run_bind, run_orFail, read', Except.mapError, Pushing.tagFor,
    run_liftExcept, pure, Except.pure, writable, exampleOccasion, Manifests.put, prepared,
    LinkStore.run_put, Tags.run_assign accepts_latest]
  rfl

/-- The list of no manifests is fetched under the tag under which it was pushed. -/
theorem exampleRequest_fetched : ∃ m d,
    let served := (World.fresh "registry" none).serve (.hiding none) exampleOccasion exampleRequest
    Manifest.ofPayload none emptyIndex = .ok m ∧
      served.1.status = 201 ∧ served.1.digest = some d ∧
      (served.2.serve (.hiding none) exampleOccasion exampleFetch).1.Carries m.mediaType d := by
  have created := status_exampleRequest none
  have evolved : Evolved (.hiding none) (World.fresh "registry" none) := .start "registry" none
  obtain ⟨i, isIndex, -, -⟩ := exists_ofPayload_emptyIndex
  obtain ⟨m, m', read, digest, -, -, fetched⟩ :=
    evolved.get_of_put rfl route?_exampleRequest created
  have plain : m.IsPlain (exampleRequest.header? "content-type") exampleRequest.body := by
    obtain rfl : .index i = m := Except.ok.inj (isIndex.symm.trans read)
    exact ⟨nofun, nofun⟩
  obtain ⟨-, carried⟩ := fetched exampleOccasion exampleFetch rfl route?_exampleFetch (by decide)
  refine ⟨m, m'.digest, read, created, digest, carried rfl (fun content held => ?_) plain⟩
  rw [World.fresh_eq, Site.record?_world] at held
  cases held.symm.trans (Bucket.at?_empty _)

lemma hiddenManifest_lost : ∃ settings : Settings,
    let served := (World.fresh "registry" none).serve settings exampleOccasion exampleRequest
    settings.readOnly = false ∧ served.1.status = 201 ∧
      (served.2.serve settings exampleOccasion exampleFetch).1.status = 404 := by
  have created := status_exampleRequest (some fun _ => true)
  rw [World.fresh_eq] at created
  obtain ⟨m, m', tag, h', -, -, named, -, -, same, stored⟩ :=
    World.exists_of_created Holdings.isSound_empty rfl route?_exampleRequest created
  have isTag (t : String) (isTag : Reference.tag "latest" = .tag t) : tag = some t := by
    cases isTag
    exact (Except.ok.inj named).symm
  have found : exampleFetch.route? =
      some (.manifest exampleRepository.name (Reference.settled (.tag "latest") m'.digest)) :=
    route?_exampleFetch
  obtain ⟨hidden, -⟩ := World.get_of_hasStored (s := ⟨"registry", ∅, none⟩) stored exampleOccasion
    rfl found (by decide) isTag
  rw [← same] at hidden
  refine ⟨.hiding (some fun _ => true), rfl, ?_⟩
  rw [World.fresh_eq]
  exact ⟨created, hidden rfl⟩

lemma Fetching.run_manifest_unknown {b : Bucket} {cache : DescriptorCache} {r : Repository}
    (ledger : b.IsLedger) (uncached : r.settings.cached = false)
    (unhidden : r.settings.hides = none) {d : Digest}
    (unlinked : ∀ kind, ¬b.Has (.link kind r.name d)) :
    ((s.world b cache).run (manifest r (.digest d))).1 = .error (Manifests.unknown r d) := by
  have resolved : (s.world b cache).run (resolve r (.digest d)) = (.ok d, s.world b cache) := rfl
  have missing : b.manifest r d = .error (Manifests.unknown r d) := by
    rw [Bucket.manifest, Bucket.descriptor?,
      if_neg (not_exists.2 fun kind linked => unlinked kind linked.2)]
    rfl
  rw [manifest, run_bind, resolved]
  dsimp only
  rw [run_bind, Manifests.run_get_plain ledger uncached unhidden, missing]

lemma Pushing.run_manifest_prepared {b : Bucket} {cache : DescriptorCache} {r : Repository}
    (uncached : r.settings.cached = false) (writable : r.settings.readOnly = false)
    {occasion : Occasion} {q : Request} {m m' : Manifest}
    (read : Manifest.ofPayload (q.header? "content-type") q.body = .ok m)
    (prepared : (s.world b cache).run (Manifests.prepare r occasion.signTime m) =
      (.ok m', s.world b cache)) :
    ∃ response, (s.world b cache).run (manifest r occasion (.digest m.digest) q) =
        (.ok response, s.world (r.manifests.pushed b m'.payload) cache) ∧
      response.status = 201 := by
  have checked (w : World) : w.run r.settings.checkWritable = (.ok (), w) := by
    rw [Settings.checkWritable, writable]
    rfl
  have noted (d : Digest) (descriptor : Descriptor) :
      r.manifests.noted cache d descriptor = cache :=
    Operation.noted_of_uncached r.manifests uncached d descriptor
  simp only [manifest, run_bind, run_orFail, read, Except.mapError, tagFor, if_true, run_liftExcept,
    pure, Except.pure, checked, Manifests.put, prepared, LinkStore.run_put, noted]
  exact ⟨_, rfl, rfl⟩

/-- A manifest that is prepared as another one is pushed with success under its digest, and is not
found there. -/
lemma World.lost_of_renamed {b : Bucket} {cache : DescriptorCache} {r : Repository}
    (sound : Holdings.IsSound ⟨b, cache⟩) (uncached : r.settings.cached = false)
    (unhidden : r.settings.hides = none) (writable : r.settings.readOnly = false)
    (occasion occasion' : Occasion) {q : Request} (q' : Request) {m m' : Manifest}
    (put : q.method = .put) (found : q.route? = some (.manifest r.name (.digest m.digest)))
    (small : q.body.length ≤ Request.maxBody)
    (read : Manifest.ofPayload (q.header? "content-type") q.body = .ok m)
    (prepared : (s.world b cache).run (Manifests.prepare r occasion.signTime m) =
      (.ok m', s.world b cache))
    (renamed : m'.digest ≠ m.digest) (fresh : ∀ kind, ¬b.Has (.link kind r.name m.digest))
    (get : q'.method = .get) (found' : q'.route? = q.route?)
    (small' : q'.body.length ≤ Request.maxBody) :
    let served := (s.world b cache).serve r.settings occasion q
    served.1.status = 201 ∧ (served.2.serve r.settings occasion' q').1.status = 404 := by
  obtain ⟨response, pushed, created⟩ :=
    Pushing.run_manifest_prepared (s := s) uncached writable read prepared
  have unlinked (kind : LinkKind) :
      ¬(r.manifests.pushed b m'.payload).Has (.link kind r.name m.digest) := by
    rw [Bucket.has_pushed_iff (r := .link _ _ _) trivial]
    rintro (same | same | has)
    · exact renamed (Record.link.inj same).2.2.symm
    · cases same
    · exact fresh kind has
  have ledger := LinkStore.isLedger_pushed sound.isLedger r.manifests m'.payload
  have sound' : Holdings.IsSound ⟨r.manifests.pushed b m'.payload, cache⟩ :=
    ⟨ledger, sound.isFaithful⟩
  have served : (s.world b cache).serve r.settings occasion q =
      (response.sent q.method, s.world (r.manifests.pushed b m'.payload) cache) := by
    rw [serve_of_route? _ _ _ found, if_pos small, run_atManifest sound, put, pushed]
    rfl
  simp only [served]
  refine ⟨created, ?_⟩
  rw [serve_of_route? _ _ _ (found'.trans found), if_pos small', run_atManifest sound', get]
  dsimp only
  rw [Fetching.run_manifest_unknown ledger uncached unhidden unlinked]
  rfl

/-- The repository of the example, where schema 1 manifests are taken and signed. -/
def signingRepository : Repository where
  settings :=
    { exampleRepository.settings with
      legacyEnabled := true, signingKey := some LegacyManifest.exampleSeed }
  name := exampleRepository.name

/-- A schema 1 manifest with one layer, and without signatures. -/
def unsignedExample : LegacyManifest := .unsigned {
  schemaVersion := 1
  name := ""
  tag := ""
  architecture := ""
  layers := [.ofContent exampleLayer]
  history := [""] }

/-- A request that pushes the manifest under its digest. -/
def unsignedRequest : Request where
  method := .put
  path := "/v2/library/app/manifests/" ++
    "sha256:1c839974a882cedd9a3037be411404651c757d84b91002c7ea703dc30004bb29"
  body := unsignedExample.payload

/-- Whether the manifest has the digest, and its layer does not, nor what is signed of it. -/
def isRenamed (d : Digest) : Bool :=
  Digest.ofContent unsignedExample.payload = d ∧ Digest.ofContent exampleLayer ≠ d ∧
    (unsignedExample.sign Ed25519.scheme LegacyManifest.exampleSeed "").toOption.any fun signed =>
      Digest.ofContent signed.payload ≠ d

lemma exists_route?_unsignedRequest : ∃ d,
    unsignedRequest.route? = some (.manifest exampleRepository.name (.digest d)) ∧
      isRenamed d = true :=
  ⟨⟨"1c839974a882cedd9a3037be411404651c757d84b91002c7ea703dc30004bb29", by decide +kernel⟩,
    by decide +kernel, by decide +kernel⟩

/-- What was pushed with success may not be found: an access controller may hide it, and a schema 1
manifest that was pushed under its digest has another one once it is signed. -/
theorem pushedManifest_lost :
    (∃ settings : Settings,
      let served := (World.fresh "registry" none).serve settings exampleOccasion exampleRequest
      settings.readOnly = false ∧ served.1.status = 201 ∧
        (served.2.serve settings exampleOccasion exampleFetch).1.status = 404) ∧
    ∃ (settings : Settings) (w : World) (q : Request) (d : Digest),
      let served := w.serve settings exampleOccasion q
      Evolved settings w ∧ settings.readOnly = false ∧ settings.hides = none ∧
        q.method = .put ∧ q.route? = some (.manifest exampleRepository.name (.digest d)) ∧
        served.1.status = 201 ∧
        (served.2.serve settings exampleOccasion { q with method := .get, body := [] }).1.status =
          404 := by
  refine ⟨hiddenManifest_lost, ?_⟩
  let s : Site := ⟨"registry", ∅, none⟩
  let r := signingRepository
  let b := r.blobs.pushed ∅ exampleLayer
  obtain ⟨d, found, renamed⟩ := exists_route?_unsignedRequest
  simp only [isRenamed, Bool.decide_and, Bool.and_eq_true, decide_eq_true_eq,
    Option.any_eq_true] at renamed
  obtain ⟨rfl, notLayer, signed, signs, other⟩ := renamed
  replace signs :
      unsignedExample.sign Ed25519.scheme LegacyManifest.exampleSeed "" = .ok signed := by
    cases result : unsignedExample.sign Ed25519.scheme LegacyManifest.exampleSeed "" with
    | error e => rw [result] at signs; cases signs
    | ok x => rw [result] at signs; exact congrArg Except.ok (Option.some.inj signs)
  -- the layer was pushed before
  have performed : (Operation.putBlob r.name "" exampleLayer).perform r.settings
      (.fresh "registry" none) = s.world b .empty := by
    rw [World.fresh_eq]
    exact Operation.perform_putBlob rfl "" exampleLayer
  have evolved : Evolved r.settings (s.world b .empty) := by
    rw [← performed]
    exact .perform _ (.start "registry" none)
  have sound : Holdings.IsSound ⟨b, .empty⟩ :=
    ⟨LinkStore.isLedger_pushed Bucket.isLedger_empty _ _, DescriptorCache.isFaithful_empty⟩
  obtain ⟨linked, stored⟩ := Bucket.has_pushed ∅ r.blobs exampleLayer
  have fresh (kind : LinkKind) :
      ¬b.Has (.link kind r.name (.ofContent unsignedExample.payload)) := by
    rw [Bucket.has_pushed_iff (r := .link _ _ _) trivial]
    rintro (same | same | has)
    · exact notLayer (Record.link.inj same).2.2.symm
    · cases same
    · simp [Bucket.Has] at has
  have prepared : (s.world b .empty).run (Manifests.prepare r "" (.legacy unsignedExample)) =
      (.ok (.legacy signed), s.world b .empty) := by
    refine Manifests.run_prepare_unsigned rfl rfl rfl rfl rfl (fun layer mem => ?_) signs
    rw [List.mem_singleton.1 mem]
    exact Manifests.run_requireBlob_plain sound.isLedger rfl rfl linked stored
  have read : Manifest.ofPayload none unsignedExample.payload = .ok (.legacy unsignedExample) :=
    Manifest.isReread_legacy rfl none List.mem_cons_self
  obtain ⟨created, lost⟩ := World.lost_of_renamed (s := s) (r := r) (m := .legacy unsignedExample)
    sound rfl rfl rfl exampleOccasion exampleOccasion
    { unsignedRequest with method := .get, body := [] } rfl found (by decide +kernel) read prepared
    other fresh rfl rfl (by decide)
  exact ⟨r.settings, s.world b .empty, unsignedRequest, _, evolved, rfl, rfl, rfl, found, created,
    lost⟩

end ImageRegistry
