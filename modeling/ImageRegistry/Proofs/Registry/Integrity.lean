import ImageRegistry.Proofs.Registry.Upkeep

/-! Whatever becomes of a registry, its contents are what their digests say, and no link is without
content. Content goes only when garbage is collected, and its links go with it. -/

namespace ImageRegistry

open World

/-- The registries that evolve from an empty bucket by operations of any kind. What names a tag to
be removed need not be accepted as a name, and a manifest to be stored need not have been read. -/
inductive Evolved (settings : Settings) : World → Prop
  | start (bucket : String) (locationBase : Option String) :
      Evolved settings (.fresh bucket locationBase)
  | perform {w : World} (op : Operation) (evolved : Evolved settings w) :
      Evolved settings (op.perform settings w)
  | removeTag {w : World} (n : RepositoryName) (t : String) (evolved : Evolved settings w) :
      Evolved settings (Operation.within settings w n fun r => Tags.remove r.name t)
  | putWhole {w : World} (n : RepositoryName) (d : Digest) (content : Octets)
      (evolved : Evolved settings w) :
      Evolved settings (Operation.within settings w n fun r => Uploads.whole r d content)
  | storeManifest {w : World} (n : RepositoryName) (time : String) (m : Manifest)
      (tag : Option String) (evolved : Evolved settings w) :
      Evolved settings (Operation.within settings w n fun r => Manifests.put r time m tag)
  /-- Only what is stored may be linked. -/
  | link {w : World} (n : RepositoryName) (kind : LinkKind) {d : Digest}
      (stored : (w.record? (.blob (settings.blobStore n) d)).isSome = true)
      (evolved : Evolved settings w) :
      Evolved settings (Operation.within settings w n fun r => (r.linkStore kind).link d)
  | unlink {w : World} (n : RepositoryName) (kind : LinkKind) (d : Digest)
      (evolved : Evolved settings w) :
      Evolved settings (Operation.within settings w n fun r => (r.linkStore kind).unlink d)

variable {settings : Settings} {w : World}

lemma Reached.evolved {Allowed : World → Operation → Prop}
    (reached : Reached settings Allowed w) : Evolved settings w := by
  induction reached with
  | start bucket locationBase => exact .start bucket locationBase
  | step op _ _ ih => exact .perform op ih

lemma Record.isLoose_of_tag {r : Record} (lawful : r.IsLawful) {n : RepositoryName} {t : String}
    (below : r.key.startsWith (Layout.tag n t) = true) : r.IsLoose := by
  obtain ⟨-, steps, told, -⟩ := (Layout.startsWith_tagText_iff lawful n t).1 below
  cases r with
  | blob | link => cases told
  | tagTarget | tagEntry | uploadContent | uploadStart => trivial

lemma Tags.run_erase (s : Site) {h : Holdings} (sound : h.IsSound) (n : RepositoryName)
    (t : String) : ∃ held b' gone, (s.world h.bucket h.cache).run (erase n t) =
        (.ok held, s.world b' h.cache) ∧
      h.bucket.Drops b' gone ∧ ∀ r, r.IsLawful → gone r → r.IsLoose := by
  exact ⟨_, _, _, s.run_eraseBelow h.bucket h.cache (Layout.tag n t),
    Bucket.Drops.removeBelow sound.isLedger _,
    fun r lawful gone => Record.isLoose_of_tag lawful gone.2⟩

/-- A registry that is sound, and in which links lead to content. -/
structure Holdings.IsIntact (settings : Settings) (h : Holdings) : Prop where
  sound : h.IsSound
  ready : h.bucket.IsReady settings fun _ => True

lemma Changes.isIntact {h h' : Holdings} (changes : Changes settings (fun _ => True) h h')
    (intact : h.IsIntact settings) : h'.IsIntact settings :=
  ⟨changes.isSound intact.sound, changes.isReady intact.ready⟩

lemma Collector.isIntact_collect (s : Site) {h : Holdings} (intact : h.IsIntact settings)
    (options : CollectionOptions) (scope : Option RepositoryName) :
    ∃ x, ∃ h' : Holdings, (s.world h.bucket h.cache).run (collect options settings scope) =
      (x, s.world h'.bucket h'.cache) ∧ h'.IsIntact settings := by
  obtain ⟨x, h', gone, ran, sound', drops, dragged, -⟩ :=
    drops_collect s intact.sound options scope
  exact ⟨x, h', ran, sound', intact.ready.drops drops dragged⟩

lemma Tags.isIntact_remove (s : Site) {h : Holdings} (intact : h.IsIntact settings)
    (n : RepositoryName) (t : String) :
    ∃ x, ∃ h' : Holdings, (s.world h.bucket h.cache).run (remove n t) =
      (x, s.world h'.bucket h'.cache) ∧ h'.IsIntact settings := by
  obtain ⟨held, b', gone, ran, drops, loose⟩ := run_erase s intact.sound n t
  have intact' : Holdings.IsIntact settings ⟨b', h.cache⟩ := by
    refine ⟨⟨drops.1, intact.sound.isFaithful⟩, ?_⟩
    exact intact.ready.drops drops fun _ n d _ _ condemned =>
      (loose (.blob (settings.blobStore n) d) trivial condemned).elim
  rw [remove, run_bind, ran]
  cases held with
  | true => exact ⟨_, ⟨b', h.cache⟩, rfl, intact'⟩
  | false => exact ⟨_, ⟨b', h.cache⟩, rfl, intact'⟩

theorem Evolved.isIntact (evolved : Evolved settings w) :
    ∃ (s : Site) (h : Holdings), w = s.world h.bucket h.cache ∧ h.IsIntact settings := by
  have within {α : Type} {n : RepositoryName} {a : Repository → Action α}
      (makes : ∀ r : Repository, r.settings = settings →
        (a r).Makes settings (fun _ => True) fun _ => True)
      (s : Site) {h : Holdings} (intact : h.IsIntact settings) : ∃ (s' : Site) (h' : Holdings),
      Operation.within settings (s.world h.bucket h.cache) n a = s'.world h'.bucket h'.cache ∧
        h'.IsIntact settings := by
    obtain ⟨h', same, changes⟩ := Operation.changes_within makes s intact.sound
    exact ⟨s, h', same, changes.isIntact intact⟩
  induction evolved with
  | start bucket locationBase =>
    exact ⟨_, ⟨∅, .empty⟩, World.fresh_eq bucket locationBase, Holdings.isSound_empty, .empty⟩
  | perform op _ ih =>
    obtain ⟨s, h, rfl, intact⟩ := ih
    have good : op.IsGood settings fun _ => True := by
      cases op <;> simp [Operation.IsGood]
    rcases Operation.perform_cases good s intact.sound with
      ⟨h', same, changes⟩ | ⟨-, options, scope, same⟩
    · exact ⟨s, h', same, changes.isIntact intact⟩
    · obtain ⟨x, h', ran, intact'⟩ := Collector.isIntact_collect s intact options scope
      exact ⟨s, h', by rw [same, ran], intact'⟩
  | removeTag n t _ ih =>
    obtain ⟨s, h, rfl, intact⟩ := ih
    obtain ⟨x, h', ran, intact'⟩ := Tags.isIntact_remove s intact n t
    rw [Operation.within_of_opens fun _ => intact.sound.isFaithful.opens n]
    exact ⟨s, h', congrArg Prod.snd ran, intact'⟩
  | putWhole n d content _ ih =>
    obtain ⟨s, h, rfl, intact⟩ := ih
    exact within (fun r same => Uploads.makes_whole same d content) s intact
  | storeManifest n time m tag _ ih =>
    obtain ⟨s, h, rfl, intact⟩ := ih
    exact within (fun r same => Manifests.makes_put same time tag fun _ _ => trivial) s intact
  | @link w n kind d stored _ ih =>
    obtain ⟨s, h, rfl, intact⟩ := ih
    rw [Site.record?_world] at stored
    rw [Operation.within_of_opens fun _ => intact.sound.isFaithful.opens n]
    let links := Repository.linkStore ⟨settings, n⟩ kind
    have same : links.settings = settings := by cases kind <;> rfl
    have held : h.bucket.Has (.blob links.blobs d) := by cases kind <;> exact stored
    obtain ⟨h', ran, changes⟩ := links.changes_link same s held
    exact ⟨s, h', congrArg Prod.snd ran, changes.isIntact intact⟩
  | unlink n kind d _ ih =>
    obtain ⟨s, h, rfl, intact⟩ := ih
    refine within (fun r same => LinkStore.makes_unlink ?_ d) s intact
    cases kind <;> exact same

/-- Contents are what their digests say. A link names its digest, and its content is stored. -/
structure World.IsGenuine (settings : Settings) (w : World) : Prop where
  blobs : ∀ store d content, w.record? (.blob store d) = some content →
    Digest.ofContent content = d
  links : ∀ kind n d content, w.record? (.link kind n d) = some content →
    content = Octets.ofText d.text ∧ (w.record? (.blob (settings.blobStore n) d)).isSome = true

namespace LinkStore

variable (links : LinkStore)

/-- Whether a digest is linked as the link store asks for, and not hidden. -/
def Shows (w : World) (d : Digest) : Prop :=
  links.settings.isHidden d = false ∧
    ∃ kind ∈ links.kinds, (w.record? (.link kind links.repository d)).isSome = true

/-- Without a cache, what is linked and not hidden is contained, and its content and its size are
answered. -/
structure AnswersAll (w : World) (d : Digest) : Prop where
  contained : ∃ held, w.run (links.contains d) = (.ok held, w) ∧ (held = true ↔ links.Shows w d)
  read : (w.run (links.contains d)).1 = .ok true → ∃ content, Digest.ofContent content = d ∧
    w.run (links.get d) = (.ok content, w) ∧
    w.run (links.stat d) =
      (.ok { mediaType := MediaType.octets, size := content.length, digest := d }, w)

variable {links} {s : Site} {b : Bucket} {cache : DescriptorCache}

lemma told?_uncached (uncached : links.settings.cached = false) (b : Bucket)
    (cache : DescriptorCache) (d : Digest) :
    links.told? b cache d = (if links.settings.isHidden d then none else b.descriptor? links d) ∧
      links.asked b cache d = cache := by
  refine ⟨by simp [told?, uncached], ?_⟩
  rcases links.asked_cases b cache d with same | ⟨descriptor, -, same⟩
  · exact same
  · rw [same, noted, uncached]
    rfl

lemma answersAll_of_isIntact (uncached : links.settings.cached = false)
    (intact : Holdings.IsIntact links.settings ⟨b, cache⟩) (d : Digest) :
    links.AnswersAll (s.world b cache) d := by
  have ledger : b.IsLedger := intact.sound.isLedger
  obtain ⟨told, asked⟩ := told?_uncached uncached b cache d
  have contained : (s.world b cache).run (links.contains d) =
      (.ok (links.told? b cache d).isSome, s.world b cache) := by
    rw [links.run_contains_told ledger, asked]
  have shows : (links.told? b cache d).isSome = true ↔ links.Shows (s.world b cache) d := by
    simp only [told, Shows, Site.record?_world]
    cases hidden : links.settings.isHidden d with
    | true => simp
    | false =>
      rw [if_neg Bool.false_ne_true, Bucket.descriptor?, and_iff_right rfl]
      by_cases linked : ∃ kind ∈ links.kinds, b.Has (.link kind links.repository d)
      · obtain ⟨kind, mem, has⟩ := linked
        have stored := intact.ready.anchored kind links.repository d has
        rw [if_pos ⟨kind, mem, has⟩, Option.isSome_map]
        exact iff_of_true stored ⟨kind, mem, has⟩
      · rw [if_neg linked]
        exact iff_of_false Bool.false_ne_true linked
  refine ⟨⟨_, contained, shows⟩, fun held => ?_⟩
  rw [contained] at held
  obtain ⟨descriptor, found⟩ := Option.isSome_iff_exists.1 (Except.ok.inj held)
  obtain ⟨content, stored, rfl⟩ : ∃ content, b.at? (.blob links.blobs d) = some content ∧
      descriptor = { mediaType := MediaType.octets, size := content.length, digest := d } := by
    rw [told] at found
    unfold Bucket.descriptor? at found
    split_ifs at found
    obtain ⟨content, stored, rfl⟩ := Option.map_eq_some_iff.1 found
    exact ⟨content, stored, rfl⟩
  have genuine : Digest.ofContent content = d :=
    ledger.mayHold (r := .blob links.blobs d) trivial stored
  refine ⟨content, genuine, ?_, ?_⟩
  · rw [links.run_get_told ledger intact.sound.isFaithful, asked, found, Option.bind_some, stored]
    rfl
  · rw [links.run_stat s cache ledger, asked, found]
    rfl

end LinkStore

/-- Whatever becomes of a registry, its contents are what their digests say, and its links lead to
them. Without a cache everything that a link store contains is answered, with its size. -/
theorem Evolved.isGenuine (evolved : Evolved settings w) :
    w.IsGenuine settings ∧ (settings.cached = false → ∀ n kind d,
      (Repository.linkStore ⟨settings, n⟩ kind).AnswersAll w d) := by
  obtain ⟨s, h, rfl, intact⟩ := evolved.isIntact
  have ledger := intact.sound.isLedger
  refine ⟨⟨fun store d content stored => ?_, fun kind n d content linked => ?_⟩,
    fun uncached n kind d => ?_⟩
  · rw [Site.record?_world] at stored
    exact ledger.mayHold (r := .blob store d) trivial stored
  · rw [Site.record?_world] at linked ⊢
    exact ⟨ledger.at?_link linked, intact.ready.anchored kind n d (Bucket.has_iff.2 ⟨_, linked⟩)⟩
  · cases kind <;> exact LinkStore.answersAll_of_isIntact uncached intact d

open Collector

/-- The list of no manifests is read where it was stored. -/
theorem exampleBucket_isGenuine :
    let w := (⟨"registry", ∅, none⟩ : Site).world exampleBucket .empty
    Evolved exampleRepository.settings w ∧ w.IsGenuine exampleRepository.settings ∧
    w.run (exampleRepository.manifests.contains (.ofContent emptyIndex)) = (.ok true, w) ∧
    ∃ content, Digest.ofContent content = .ofContent emptyIndex ∧
      w.run (exampleRepository.manifests.get (.ofContent emptyIndex)) = (.ok content, w) := by
  intro w
  have reached : Reached exampleRepository.settings (fun _ _ => True) w :=
    reached_exampleBucket fun _ => trivial
  have evolved : Evolved exampleRepository.settings w := reached.evolved
  obtain ⟨genuine, answers⟩ := evolved.isGenuine
  obtain ⟨⟨held, contained, shows⟩, read⟩ :=
    answers rfl exampleRepository.name .revision (.ofContent emptyIndex)
  obtain rfl : held = true := by
    refine shows.2 ⟨rfl, .revision, List.mem_cons_self, ?_⟩
    rw [Site.record?_world, at?_exampleBucket (r := .link _ _ _) trivial]
    exact congrArg Option.isSome (if_pos rfl)
  obtain ⟨content, named, got, -⟩ := read (congrArg Prod.fst contained)
  exact ⟨evolved, genuine, contained, content, named, got⟩

end ImageRegistry
