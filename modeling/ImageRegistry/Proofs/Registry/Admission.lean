import ImageRegistry.Proofs.Collection.Liveness

/-! What a manifest is admitted for. A manifest is taken if what it requires is known, which is
true of what is held, but also of what the descriptor cache still tells of. -/

namespace ImageRegistry

open World Collector

namespace Manifests

/-- The blobs that a manifest requires. Foreign layers are not required, and layers of an OCI image
only if they cannot be fetched from elsewhere. -/
def requiredBlobs : Manifest → List Digest
  | .legacy m => m.body.layers
  | .docker m =>
    m.config.digest :: (m.layers.filter fun layer =>
      layer.mediaType ≠ MediaType.foreignLayer).map Descriptor.digest
  | .oci m =>
    m.config.digest :: (m.layers.filter fun layer =>
      !(MediaType.isRestricted layer.mediaType && !layer.urls.isEmpty)).map Descriptor.digest
  | .index _ => []

/-- The manifests that a manifest requires. -/
def requiredManifests : Manifest → List Digest
  | .index m => m.children.map Descriptor.digest
  | .legacy _ | .docker _ | .oci _ => []

end Manifests

/-- What a digest stands for is known: the cache tells it, or it is linked and stored. -/
def LinkStore.Knows (links : LinkStore) (b : Bucket) (cache : DescriptorCache) (d : Digest) :
    Prop :=
  (links.settings.cached = true ∧ ∃ descriptor,
    cache.lookUp (some links.repository) d = .ok descriptor) ∨ b.descriptor? links d ≠ none

/-- The action only looks things up by some links, and if it succeeds some digests were known. -/
def Action.Verifies {α : Type} (links : LinkStore) (D : Digest → Prop) (a : Action α) : Prop :=
  ∀ (s : Site) (b : Bucket) (cache : DescriptorCache), b.IsLedger → ∃ x cache',
    (s.world b cache).run a = (x, s.world b cache') ∧
      (∀ d, links.Knows b cache' d → links.Knows b cache d) ∧
      ∀ y, x = .ok y → ∀ d, D d → links.Knows b cache d

namespace Action.Verifies

variable {α β : Type} {links : LinkStore} {D E : Digest → Prop}

lemma of_run {a : Action α} (nothing : ∀ d, ¬D d)
    (reads : ∀ w : World, ∃ x, w.run a = (x, w)) : a.Verifies links D := by
  intro s b cache _
  obtain ⟨x, ran⟩ := reads (s.world b cache)
  exact ⟨x, cache, ran, fun _ => id, fun _ _ d required => absurd required (nothing d)⟩

lemma fails (e : RegistryError) : (throw e : Action α).Verifies links D :=
  fun _ _ cache _ => ⟨.error e, cache, rfl, fun _ => id, fun _ => nofun⟩

lemma bind {a : Action α} {f : α → Action β} (ha : a.Verifies links D)
    (hf : ∀ x, (f x).Verifies links E) : (a >>= f).Verifies links fun d => D d ∨ E d := by
  intro s b cache ledger
  obtain ⟨x, cache', ran, back, known⟩ := ha s b cache ledger
  rw [run_bind, ran]
  cases x with
  | error e => exact ⟨_, cache', rfl, back, fun _ => nofun⟩
  | ok x =>
    obtain ⟨y, cache'', ran', back', known'⟩ := hf x s b cache' ledger
    exact ⟨y, cache'', ran', fun d h => back d (back' d h), fun z same d required =>
      required.elim (known x rfl d) fun later => back d (known' z same d later)⟩

lemma weaken {a : Action α} (ha : a.Verifies links D) (weaker : ∀ d, E d → D d) :
    a.Verifies links E := by
  intro s b cache ledger
  obtain ⟨x, cache', ran, back, known⟩ := ha s b cache ledger
  exact ⟨x, cache', ran, back, fun y same d required => known y same d (weaker d required)⟩

lemma forM {xs : List α} {f : α → Action PUnit} {D : α → Digest → Prop}
    (hf : ∀ x ∈ xs, (f x).Verifies links (D x)) :
    (xs.forM f).Verifies links fun d => ∃ x ∈ xs, D x d := by
  induction xs with
  | nil => exact .of_run (by simp) fun w => ⟨_, rfl⟩
  | cons x xs ih =>
    have rest : (f x >>= fun _ => xs.forM f).Verifies links _ :=
      (hf x List.mem_cons_self).bind fun _ => ih fun y mem => hf y (List.mem_cons_of_mem x mem)
    exact rest.weaken fun d => by simp

lemma tryCatch {a : Action α} {handle : RegistryError → Action α} (ha : a.Verifies links D)
    (fails : ∀ (e : RegistryError) (w : World), ∃ e', w.run (handle e) = (.error e', w)) :
    (tryCatch a handle).Verifies links D := by
  intro s b cache ledger
  obtain ⟨x, cache', ran, back, known⟩ := ha s b cache ledger
  rw [run_tryCatch, ran]
  cases x with
  | ok x => exact ⟨_, cache', rfl, back, known⟩
  | error e =>
    obtain ⟨e', failed⟩ := fails e (s.world b cache')
    exact ⟨.error e', cache', failed, back, fun _ => nofun⟩

end Action.Verifies

namespace LinkStore

variable {links : LinkStore} {b : Bucket} {cache : DescriptorCache} {d : Digest}

lemma isSome_told?_iff (links : LinkStore) : (links.told? b cache d).isSome = true ↔
    links.settings.isHidden d = false ∧ links.Knows b cache d := by
  unfold told? Knows
  cases links.settings.isHidden d <;> cases links.settings.cached <;>
    cases cache.lookUp (some links.repository) d <;> cases b.descriptor? links d <;>
    simp [Except.toOption]

lemma Knows.of_asked {links' : LinkStore} {e : Digest}
    (same : links.repository = links'.repository → links = links')
    (known : links'.Knows b (links.asked b cache d) e) : links'.Knows b cache e := by
  rcases links.asked_cases b cache d with kept | ⟨descriptor, found, kept⟩ <;> rw [kept] at known
  · exact known
  rcases known with ⟨cached, other, told⟩ | stored
  · rcases lookUp_noted told with ⟨repository, rfl⟩ | before
    · obtain rfl := same repository
      exact .inr (by rw [found]; exact Option.some_ne_none _)
    · exact .inl ⟨cached, other, before⟩
  · exact .inr stored

lemma verifies_stat (links : LinkStore) (d : Digest) :
    (links.stat d).Verifies links fun e => e = d := by
  intro s b cache ledger
  refine ⟨_, _, run_stat links s cache ledger d, fun e known => known.of_asked fun _ => rfl, ?_⟩
  rintro y told e rfl
  refine ((isSome_told?_iff links).1 ?_).2
  cases found : links.told? b cache e with
  | none => simp [found] at told
  | some descriptor => rfl

end LinkStore

namespace Manifests

variable {r : Repository}

lemma verifies_orFail {α ε : Type} {links : LinkStore} (error : ε → RegistryError)
    (x : Except ε α) : (Action.orFail error x).Verifies links fun _ => False :=
  .of_run (fun _ => id) fun w => ⟨_, run_orFail w error x⟩

lemma verifies_requireBlob (d : Digest) : (requireBlob r d).Verifies r.blobs fun e => e = d := by
  have looked : (whenBlobUnknown (.manifestBlobUnknown d) (r.blobs.stat d)).Verifies r.blobs
      fun e => e = d :=
    (r.blobs.verifies_stat d).tryCatch fun e w => by cases e <;> exact ⟨_, rfl⟩
  exact (looked.bind fun _ => .of_run (fun _ => id) fun w => ⟨_, rfl⟩).weaken fun _ => .inl

lemma verifies_requireManifest (d : Digest) :
    (requireManifest r d).Verifies r.manifests fun e => e = d := by
  intro s b cache ledger
  obtain ⟨x, cache', ran, back, known⟩ := r.manifests.verifies_stat d s b cache ledger
  rw [requireManifest, run_bind, contains, LinkStore.contains, run_tryCatch, run_bind, ran]
  cases x with
  | ok descriptor => exact ⟨.ok (), cache', rfl, back, fun _ _ => known descriptor rfl⟩
  | error e =>
    cases missing : e.isNotFound with
    | true =>
      exact ⟨.error (.manifestBlobUnknown d), cache', by simp [missing], back, by simp⟩
    | false => exact ⟨.error e, cache', by simp [missing], back, by simp⟩

lemma verifies_prepareLegacy (time : String) (m : LegacyManifest) :
    (prepareLegacy r time m).Verifies r.blobs fun d => d ∈ m.body.layers := by
  have layers : (m.body.references.forM fun layer => requireBlob r layer.digest).Verifies r.blobs
      fun d => ∃ layer ∈ m.body.references, d = layer.digest :=
    .forM fun layer _ => verifies_requireBlob layer.digest
  have required (d : Digest) (hd : d ∈ m.body.layers) :
      ∃ layer ∈ m.body.references, d = layer.digest := by
    simp only [LegacyBody.references, List.mem_map, List.mem_reverse]
    exact ⟨_, ⟨d, hd, rfl⟩, rfl⟩
  unfold prepareLegacy
  dsimp only
  split
  · split
    · exact .fails _
    · split
      · exact .fails _
      · refine (layers.bind (E := fun _ => False) fun _ => ?_).weaken
          fun d hd => .inl (required d hd)
        split_ifs
        · exact ((verifies_orFail _ _).bind fun _ => .of_run (fun _ => id) fun w => ⟨_, rfl⟩).weaken
            fun _ => .inl
        · split
          · exact verifies_orFail _ _
          · exact .fails _
  · exact .fails _

lemma verifies_checkDockerLayer (layer : Descriptor) :
    (checkDockerLayer r layer).Verifies r.blobs fun d =>
      layer.mediaType ≠ MediaType.foreignLayer ∧ d = layer.digest := by
  unfold checkDockerLayer
  split_ifs with foreign
  · exact .fails _
  · exact (verifies_orFail _ _).weaken fun d required => required.1 foreign
  · exact (verifies_requireBlob _).weaken fun _ => And.right

lemma verifies_checkOciLayer (layer : Descriptor) :
    (checkOciLayer r layer).Verifies r.blobs fun d =>
      (!(MediaType.isRestricted layer.mediaType && !layer.urls.isEmpty)) = true ∧
        d = layer.digest := by
  unfold checkOciLayer
  split_ifs with elsewhere
  · exact (verifies_orFail _ _).weaken fun d required => by simp [elsewhere] at required
  · exact (verifies_requireBlob _).weaken fun _ => And.right

lemma verifies_prepare_blobs (time : String) {m : Manifest} (single : ∀ list, m ≠ .index list) :
    (prepare r time m).Verifies r.blobs fun d => d ∈ requiredBlobs m := by
  have nothing {α : Type} (x : α) : (Pure.pure x : Action α).Verifies r.blobs fun _ => False :=
    .of_run (fun _ => id) fun w => ⟨_, rfl⟩
  cases m with
  | index list => exact absurd rfl (single list)
  | legacy m =>
    rw [prepare, map_eq_pure_bind]
    exact ((verifies_prepareLegacy time m).bind fun _ => nothing _).weaken fun _ => .inl
  | docker m =>
    refine ((verifies_requireBlob _).bind fun _ => (Action.Verifies.forM fun layer _ =>
      verifies_checkDockerLayer layer).bind fun _ => nothing _).weaken fun d required => ?_
    rcases List.mem_cons.1 required with rfl | required
    · exact .inl rfl
    · obtain ⟨layer, mem, rfl⟩ := List.mem_map.1 required
      obtain ⟨mem, local'⟩ := List.mem_filter.1 mem
      exact .inr (.inl ⟨layer, mem, by simpa using local', rfl⟩)
  | oci m =>
    refine ((verifies_requireBlob _).bind fun _ => (Action.Verifies.forM fun layer _ =>
      verifies_checkOciLayer layer).bind fun _ => nothing _).weaken fun d required => ?_
    rcases List.mem_cons.1 required with rfl | required
    · exact .inl rfl
    · obtain ⟨layer, mem, rfl⟩ := List.mem_map.1 required
      obtain ⟨mem, local'⟩ := List.mem_filter.1 mem
      exact .inr (.inl ⟨layer, mem, local', rfl⟩)

lemma verifies_prepare_manifests (time : String) (list : ImageIndex) :
    (prepare r time (.index list)).Verifies r.manifests fun d =>
      d ∈ requiredManifests (.index list) := by
  have children : (list.children.forM fun child => requireManifest r child.digest).Verifies
      r.manifests fun d => ∃ child ∈ list.children, d = child.digest :=
    .forM fun child _ => verifies_requireManifest child.digest
  refine (children.bind (E := fun _ => False)
    fun _ => .of_run (fun _ => id) fun w => ⟨_, rfl⟩).weaken fun d required => ?_
  obtain ⟨child, mem, rfl⟩ := List.mem_map.1 required
  exact .inl ⟨child, mem, rfl⟩

end Manifests

namespace Bucket

lemma holds_of_descriptor? {b : Bucket} {r : Repository} {d : Digest}
    (found : b.descriptor? r.blobs d ≠ none) :
    b.Has (.link .layer r.name d) ∧ b.Has (.blob r.blobStore d) := by
  obtain ⟨descriptor, found⟩ := Option.ne_none_iff_exists'.1 found
  obtain ⟨⟨kind, mem, linked⟩, stored, _⟩ := descriptor?_eq_some found
  obtain rfl : kind = .layer := by simpa [LinkStore.kinds, Repository.blobs] using mem
  exact ⟨linked, stored⟩

end Bucket

lemma Tags.assign_keeps {s : Site} {b : Bucket} {cache : DescriptorCache} {n : RepositoryName}
    {t : String} {d : Digest} {w' : World}
    (ran : (s.world b cache).run (assign n t d) = (.ok (), w')) :
    ∃ b', w' = s.world b' cache ∧ ∀ record, b.Has record → b'.Has record := by
  by_cases accepted : TagName.accepts t = true
  · rw [run_assign accepted] at ran
    obtain ⟨_, rfl⟩ := Prod.mk.inj ran
    exact ⟨_, rfl, fun record has => (has.put _ _).put _ _⟩
  · rw [assign, run_bind, run_liftExcept, TagName.check, if_neg accepted] at ran
    cases ran

lemma Manifests.put_keeps {s : Site} {b : Bucket} {cache : DescriptorCache} {r : Repository}
    {m : Manifest} {tag : Option String} {descriptor : Descriptor} {w' : World}
    (ran : (s.world b cache).run (do
      let descriptor ← r.manifests.put m.mediaType m.payload
      if let some tag := tag then Tags.assign r.name tag descriptor.digest
      return descriptor) = (.ok descriptor, w')) :
    ∃ b' cache', w' = s.world b' cache' ∧ ∀ record, b.Has record → b'.Has record := by
  rw [run_bind, LinkStore.run_put] at ran
  cases tag with
  | none =>
    obtain ⟨_, rfl⟩ := Prod.mk.inj ran
    exact ⟨_, _, rfl, fun record has => has.pushed _ _⟩
  | some t =>
    simp only [run_bind] at ran
    split at ran
    next u w'' assigned =>
      obtain ⟨_, rfl⟩ := Prod.mk.inj ran
      obtain ⟨b', rfl, keeps⟩ := Tags.assign_keeps assigned
      exact ⟨b', _, rfl, fun record has => keeps record (has.pushed _ _)⟩
    next => cases ran

lemma Manifests.known_of_prepare {s : Site} {b : Bucket} {cache : DescriptorCache} {r : Repository}
    {time : String} {m m' : Manifest} {w' : World} (ledger : b.IsLedger)
    (ran : (s.world b cache).run (prepare r time m) = (.ok m', w')) :
    (∃ cache', w' = s.world b cache') ∧
      (∀ d ∈ requiredBlobs m, r.blobs.Knows b cache d) ∧
      ∀ d ∈ requiredManifests m, r.manifests.Knows b cache d := by
  by_cases single : ∀ list, m ≠ .index list
  · obtain ⟨x, cache', ran', _, known⟩ := verifies_prepare_blobs time single s b cache ledger
    rw [ran] at ran'
    obtain ⟨rfl, rfl⟩ := Prod.mk.inj ran'
    refine ⟨⟨cache', rfl⟩, known m' rfl, fun d required => ?_⟩
    cases m with
    | index list => exact absurd rfl (single list)
    | legacy | docker | oci => cases required
  · rw [not_forall] at single
    obtain ⟨list, same⟩ := single
    rw [not_not] at same
    subst same
    obtain ⟨x, cache', ran', _, known⟩ := verifies_prepare_manifests time list s b cache ledger
    rw [ran] at ran'
    obtain ⟨rfl, rfl⟩ := Prod.mk.inj ran'
    exact ⟨⟨cache', rfl⟩, fun d required => (nomatch required), known m' rfl⟩

/-- What the cache tells of is linked and stored. -/
def Holdings.CacheHolds (settings : Settings) (h : Holdings) : Prop :=
  ∀ n d descriptor, h.cache.lookUp (some n) d = .ok descriptor →
    (∃ kind, h.bucket.Has (.link kind n d)) ∧ h.bucket.Has (.blob (settings.blobStore n) d)

theorem Change.cacheHolds {settings : Settings} {P : Digest → Prop} {h h' : Holdings}
    (cached : settings.cached = true) (change : Change settings P h h')
    (holds : h.CacheHolds settings) : h'.CacheHolds settings := by
  intro n d descriptor kept
  cases change with
  | write lawful loose mayHold target stands =>
    obtain ⟨⟨kind, linked⟩, stored⟩ := holds n d descriptor kept
    exact ⟨⟨kind, linked.put _ _⟩, stored.put _ _⟩
  | discard drops loose whole =>
    obtain ⟨⟨kind, linked⟩, stored⟩ := holds n d descriptor kept
    exact ⟨⟨kind, (drops.has (r := .link kind n d) trivial).2 ⟨linked, loose _⟩⟩,
      (drops.has (r := .blob _ d) trivial).2 ⟨stored, loose _⟩⟩
  | @push b c links content descriptor' same named manifest =>
    rcases LinkStore.lookUp_noted kept with ⟨rfl, rfl⟩ | before
    · obtain ⟨linked, stored⟩ := Bucket.has_pushed b links content
      exact ⟨⟨links.current, linked⟩, by rw [← same]; exact stored⟩
    · obtain ⟨⟨kind, linked⟩, stored⟩ := holds n d descriptor before
      exact ⟨⟨kind, linked.pushed _ _⟩, stored.pushed _ _⟩
  | attach same stored manifest =>
    obtain ⟨⟨kind, linked⟩, stored⟩ := holds n d descriptor kept
    exact ⟨⟨kind, linked.put _ _⟩, stored.put _ _⟩
  | @unlink b c links e same =>
    simp only [LinkStore.dropped, same, cached, if_true] at kept
    obtain ⟨other, before⟩ := DescriptorCache.lookUp_forget kept
    obtain ⟨⟨kind, linked⟩, stored⟩ := holds n d descriptor before
    refine ⟨⟨kind, linked.unlinked trivial fun kind' same => ?_⟩,
      stored.unlinked trivial (by simp)⟩
    cases same
    exact other ⟨rfl, rfl⟩
  | @note b c links e descriptor' same found =>
    rcases LinkStore.lookUp_noted kept with ⟨rfl, rfl⟩ | before
    · obtain ⟨⟨kind, _, linked⟩, stored, _⟩ := Bucket.descriptor?_eq_some found
      exact ⟨⟨kind, linked⟩, by rw [← same]; exact stored⟩
    · exact holds n d descriptor before

lemma Reached.cacheHolds {settings : Settings} (cached : settings.cached = true) {w : World}
    (reached : Reached settings (fun _ op => ¬op.IsCollection) w) :
    ∃ (s : Site) (h : Holdings), w = s.world h.bucket h.cache ∧ h.IsSound ∧
      h.CacheHolds settings := by
  induction reached with
  | start bucket locationBase =>
    refine ⟨_, ⟨∅, .empty⟩, World.fresh_eq bucket locationBase, Holdings.isSound_empty, ?_⟩
    intro n d descriptor kept
    simp [DescriptorCache.empty, DescriptorCache.lookUp] at kept
  | step op _ collectsNothing ih =>
    obtain ⟨s, h, rfl, sound, holds⟩ := ih
    have good : op.IsGood settings fun _ => True := by
      cases op <;> simp [Operation.IsGood]
    rcases Operation.perform_cases good s sound with ⟨h', same, changes⟩ | ⟨collects, -⟩
    · refine ⟨s, h', same, changes.isSound sound, ?_⟩
      clear same
      induction changes with
      | refl => exact holds
      | tail _ change ih => exact change.cacheHolds cached ih
    · exact absurd collects collectsNothing

namespace World

/-- Whether a digest is linked as a layer in a repository and its content is stored. -/
def HoldsBlob (w : World) (r : Repository) (d : Digest) : Prop :=
  (w.record? (.link .layer r.name d)).isSome = true ∧
    (w.record? (.blob r.blobStore d)).isSome = true

/-- Whether the descriptor cache tells what a digest stands for in a repository. -/
def Caches (w : World) (r : Repository) (d : Digest) : Prop :=
  r.settings.cached = true ∧ ∃ descriptor, w.cache.lookUp (some r.name) d = .ok descriptor

end World

section

variable {s : Site} {b b' : Bucket} {cache' : DescriptorCache}

lemma Manifests.known_of_put {cache : DescriptorCache} (ledger : b.IsLedger) {r : Repository}
    {time : String} {m : Manifest} {tag : Option String} {descriptor : Descriptor} {w' : World}
    (ran : (s.world b cache).run (Manifests.put r time m tag) = (.ok descriptor, w')) :
    ∃ b' cache', w' = s.world b' cache' ∧ (∀ record, b.Has record → b'.Has record) ∧
      (∀ d ∈ requiredBlobs m, r.blobs.Knows b cache d) ∧
      ∀ d ∈ requiredManifests m, r.manifests.Knows b cache d := by
  rw [put, run_bind] at ran
  split at ran
  next m' w'' prepared =>
    obtain ⟨⟨cache', rfl⟩, blobs, manifests⟩ := known_of_prepare ledger prepared
    obtain ⟨b', cache'', rfl, keeps⟩ := put_keeps ran
    exact ⟨b', cache'', rfl, keeps, blobs, manifests⟩
  next => cases ran

lemma Site.holdsBlob_of_descriptor? (keeps : ∀ record, b.Has record → b'.Has record)
    {r : Repository} {d : Digest} (found : b.descriptor? r.blobs d ≠ none) :
    (s.world b' cache').HoldsBlob r d := by
  obtain ⟨linked, stored⟩ := Bucket.holds_of_descriptor? found
  simp only [HoldsBlob, Site.record?_world]
  exact ⟨keeps _ linked, keeps _ stored⟩

lemma Site.holds_of_descriptor? (keeps : ∀ record, b.Has record → b'.Has record)
    {links : LinkStore} {d : Digest} (found : b.descriptor? links d ≠ none) :
    (s.world b' cache').Holds ⟨links.settings, links.repository⟩ d := by
  obtain ⟨⟨kind, _, linked⟩, stored⟩ := Bucket.descriptor?_ne_none_iff.1 found
  rw [Site.holds_world_iff]
  exact ⟨⟨kind, keeps _ linked⟩, keeps _ stored⟩

lemma Reached.holds_of_knows {cache : DescriptorCache} (links : LinkStore)
    (untouched : Reached links.settings (fun _ op => ¬op.IsCollection) (s.world b cache))
    (keeps : ∀ record, b.Has record → b'.Has record) {d : Digest}
    (known : links.Knows b cache d) :
    (s.world b' cache').Holds ⟨links.settings, links.repository⟩ d := by
  rcases known with ⟨cached, descriptor, kept⟩ | found
  · obtain ⟨s', h, same, _, holds⟩ := Reached.cacheHolds cached untouched
    have records (r : Record) : b.at? r = h.bucket.at? r := by
      rw [← s.record?_world _ cache, same, Site.record?_world]
    have sameCache : cache = h.cache := congrArg World.cache same
    rw [sameCache] at kept
    obtain ⟨⟨kind, linked⟩, stored⟩ := holds links.repository d descriptor kept
    rw [Site.holds_world_iff]
    rw [Bucket.Has, ← records] at linked stored
    exact ⟨⟨kind, keeps _ linked⟩, keeps _ stored⟩
  · exact s.holds_of_descriptor? keeps found

end

/-- If a manifest is stored, everything that it requires is held at that moment, exactly if all of
it is that the cache told of before. Where no garbage was collected, everything that it requires is
linked and stored, though a blob perhaps as a manifest only. -/
theorem Manifests.put_holds_iff {settings : Settings} {w : World}
    (reached : Reached settings (fun _ _ => True) w) {n : RepositoryName} {time : String}
    {m : Manifest} {tag : Option String} {descriptor : Descriptor} {w' : World}
    (ran : w.run (Manifests.put ⟨settings, n⟩ time m tag) = (.ok descriptor, w')) :
    (((∀ d ∈ requiredBlobs m, w'.HoldsBlob ⟨settings, n⟩ d) ∧
        ∀ d ∈ requiredManifests m, w'.Holds ⟨settings, n⟩ d) ↔
      ((∀ d ∈ requiredBlobs m, w.Caches ⟨settings, n⟩ d → w'.HoldsBlob ⟨settings, n⟩ d) ∧
        ∀ d ∈ requiredManifests m, w.Caches ⟨settings, n⟩ d → w'.Holds ⟨settings, n⟩ d)) ∧
    (Reached settings (fun _ op => ¬op.IsCollection) w →
      ∀ d ∈ requiredBlobs m ++ requiredManifests m, w'.Holds ⟨settings, n⟩ d) := by
  obtain ⟨s, h, rfl, sound⟩ := reached.isSound
  obtain ⟨b', cache', rfl, keeps, blobs, manifests⟩ := known_of_put sound.isLedger ran
  refine ⟨⟨fun all => ⟨fun d required _ => all.1 d required, fun d required _ => all.2 d required⟩,
    fun told => ⟨fun d required => ?_, fun d required => ?_⟩⟩, fun untouched d required => ?_⟩
  · exact (blobs d required).elim (told.1 d required) (Site.holdsBlob_of_descriptor? keeps)
  · exact (manifests d required).elim (told.2 d required) (Site.holds_of_descriptor? keeps)
  · rcases List.mem_append.1 required with required | required
    · exact Reached.holds_of_knows (Repository.blobs ⟨settings, n⟩) untouched keeps
        (blobs d required)
    · exact Reached.holds_of_knows (Repository.manifests ⟨settings, n⟩) untouched keeps
        (manifests d required)

namespace Manifests

lemma run_contains_plain {s : Site} {b : Bucket} {cache : DescriptorCache} (ledger : b.IsLedger)
    {r : Repository} (uncached : r.settings.cached = false) (unhidden : r.settings.hides = none)
    {d : Digest} {descriptor : Descriptor}
    (found : b.descriptor? r.manifests d = some descriptor) :
    (s.world b cache).run (contains r d) = (.ok true, s.world b cache) := by
  have shown : ¬r.manifests.settings.isHidden d = true := by
    simp [Settings.isHidden, Repository.manifests, unhidden]
  have plain : ¬r.manifests.settings.cached = true := by
    simp [Repository.manifests, uncached]
  rw [contains, LinkStore.contains, run_tryCatch, run_bind, LinkStore.stat, if_neg shown,
    LinkStore.lookUp, if_neg plain, s.run_resolve cache ledger, found]
  rfl

lemma run_prepare_index {w : World} {r : Repository} {m : ImageIndex} (time : String)
    (contained : ∀ child ∈ m.children, w.run (contains r child.digest) = (.ok true, w)) :
    w.run (prepare r time (.index m)) = (.ok (.index m), w) := by
  have all : w.run (m.children.forM fun child => requireManifest r child.digest) = (.ok ⟨⟩, w) :=
    run_forM_of_same fun child mem => by
      rw [requireManifest, run_bind, contained child mem]
      rfl
  rw [prepare, run_bind, all]
  rfl

lemma exists_run_put {s : Site} {b : Bucket} {cache : DescriptorCache} {r : Repository}
    {time : String} {m m' : Manifest}
    (prepared : (s.world b cache).run (prepare r time m) = (.ok m', s.world b cache)) :
    ∃ descriptor cache', (s.world b cache).run (put r time m none) =
      (.ok descriptor, s.world (r.manifests.pushed b m'.payload) cache') := by
  rw [put, run_bind, prepared]
  simp only [run_bind, LinkStore.run_put]
  exact ⟨_, _, rfl⟩

/-- A list with the list of no manifests as its only child. -/
def outerIndex : ImageIndex := .build .oci
  [{ mediaType := MediaType.ociIndex, size := emptyIndex.length, digest := .ofContent emptyIndex }]

/-- The child of the list is held once the list is stored. -/
theorem outerIndex_holds : ∃ w w' descriptor,
    Reached exampleRepository.settings (fun _ _ => True) w ∧
    w.run (put exampleRepository "" (.index outerIndex) none) = (.ok descriptor, w') ∧
    w'.Holds exampleRepository (.ofContent emptyIndex) := by
  obtain ⟨_, found, -⟩ := exists_descriptor?_exampleBucket
  let w := (⟨"registry", ∅, none⟩ : Site).world exampleBucket .empty
  have prepared : w.run (prepare exampleRepository "" (.index outerIndex)) = _ :=
    run_prepare_index "" fun child mem => by
      rw [List.mem_singleton.1 mem]
      exact run_contains_plain isLedger_exampleBucket rfl rfl found
  obtain ⟨descriptor, cache', ran⟩ := exists_run_put prepared
  have reached : Reached exampleRepository.settings (fun _ _ => True) w :=
    reached_exampleBucket fun _ => trivial
  have required : Digest.ofContent emptyIndex ∈
      requiredBlobs (.index outerIndex) ++ requiredManifests (.index outerIndex) :=
    List.mem_singleton_self _
  exact ⟨w, _, descriptor, reached, ran, (put_holds_iff reached ran).2
    (reached_exampleBucket fun _ => id) _ required⟩

/-- The repository of the example, with a cache, and with deleting enabled. -/
def cachingRepository : Repository where
  settings := { exampleRepository.settings with deleteEnabled := true, cached := true }
  name := exampleRepository.name

lemma reached_cachedBucket (Allowed : World → Operation → Prop)
    (allowed : ∀ w, Allowed w (.putManifest cachingRepository.name none emptyIndex "" none)) :
    ∃ descriptor : Descriptor, descriptor.digest = .ofContent emptyIndex ∧
      Reached cachingRepository.settings Allowed ((⟨"registry", ∅, none⟩ : Site).world exampleBucket
        (cachingRepository.manifests.noted .empty (.ofContent emptyIndex) descriptor)) := by
  obtain ⟨descriptor, named, performed⟩ := exists_perform_emptyIndex cachingRepository
  have same : (⟨"registry", ∅, none⟩ : Site).world exampleBucket _ = _ := performed.symm
  refine ⟨descriptor, named, ?_⟩
  rw [same]
  exact .step _ (.start "registry" none) (allowed _)

lemma lookUp_cachedBucket (d : Digest) (descriptor : Descriptor) :
    (cachingRepository.manifests.noted .empty d descriptor).lookUp (some cachingRepository.name) d =
      .ok descriptor := by
  have isTable : DescriptorCache.empty.IsTable := ⟨_, rfl⟩
  exact isTable.lookUp_remember cachingRepository.name d descriptor

/-- The list of no manifests is stored as a manifest, and no garbage is collected. An image with the
list as its configuration is stored all the same, since the cache tells of the list, but the list is
not held as a blob. -/
theorem manifestConfig_admitted : ∃ w w' descriptor config,
    Reached cachingRepository.settings (fun _ op => ¬op.IsCollection) w ∧
    w.run (put cachingRepository "" (.docker (.build config [])) none) = (.ok descriptor, w') ∧
    config.digest ∈ requiredBlobs (.docker (.build config [])) ∧
    ¬w'.HoldsBlob cachingRepository config.digest := by
  obtain ⟨descriptor, named, reached⟩ :=
    reached_cachedBucket (fun _ op => ¬op.IsCollection) fun _ => id
  let s : Site := ⟨"registry", ∅, none⟩
  let cache := cachingRepository.manifests.noted .empty (.ofContent emptyIndex) descriptor
  have kept : cache.lookUp (some cachingRepository.name) descriptor.digest = .ok descriptor := by
    rw [named]
    exact lookUp_cachedBucket _ descriptor
  obtain ⟨_, told⟩ := Option.isSome_iff_exists.1
    ((LinkStore.isSome_told?_iff cachingRepository.blobs (b := exampleBucket)).2
      ⟨rfl, .inl ⟨rfl, descriptor, kept⟩⟩)
  have asked := LinkStore.asked_of_lookUp cachingRepository.blobs kept exampleBucket
  have held : (s.world exampleBucket cache).run (requireBlob cachingRepository
      (DockerImage.build descriptor []).config.digest) = (.ok (), s.world exampleBucket cache) :=
    (run_requireBlob isLedger_exampleBucket told).trans (by rw [asked])
  have prepared : (s.world exampleBucket cache).run
      (prepare cachingRepository "" (.docker (.build descriptor []))) =
        (.ok (.docker (.build descriptor [])), s.world exampleBucket cache) := by
    rw [prepare, run_bind, held]
    rfl
  obtain ⟨stored, cache', ran⟩ := exists_run_put prepared
  refine ⟨_, _, stored, descriptor, reached, ran, List.mem_cons_self, ?_⟩
  rintro ⟨linked, -⟩
  rw [Site.record?_world, Bucket.at?_pushed (r := .link _ _ _) trivial,
    if_neg (by simp [Repository.manifests]), if_neg (by simp),
    at?_exampleBucket (r := .link _ _ _) trivial] at linked
  simp at linked

end Manifests
end ImageRegistry
