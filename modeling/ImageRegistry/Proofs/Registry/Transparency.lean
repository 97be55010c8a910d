import ImageRegistry.Proofs.Registry.Admission
import ImageRegistry.Proofs.Registry.Upkeep

/-! What the descriptor cache makes a difference to. The blobs and the manifests of a repository
share a cache in which a digest is kept for no kind of link. What it keeps is linked in some way and
stored; but a digest that is linked as a manifest only passes for a layer. -/

namespace ImageRegistry

open World

/-- A call of a link store. -/
inductive LinkCall where
  | put (mediaType : String) (content : Octets)
  | link (d : Digest)
  | unlink (d : Digest)
  | delete (d : Digest)
  | stat (d : Digest)
  | contains (d : Digest)
  | get (d : Digest)

/-- What a call is answered. Media types are left out. -/
inductive LinkAnswer where
  | described (size : Nat) (digest : Digest)
  | done
  | held (held : Bool)
  | content (content : Octets)

def LinkAnswer.ofDescriptor (descriptor : Descriptor) : LinkAnswer :=
  described descriptor.size descriptor.digest

def LinkStore.perform (links : LinkStore) : LinkCall → Action LinkAnswer
  | .put mediaType content => .ofDescriptor <$> links.put mediaType content
  | .link d => (fun _ => .done) <$> links.link d
  | .unlink d => .held <$> links.unlink d
  | .delete d => (fun _ => .done) <$> links.delete d
  | .stat d => .ofDescriptor <$> links.stat d
  | .contains d => .held <$> links.contains d
  | .get d => .content <$> links.get d

namespace Repository

def cachedAs (r : Repository) (cached : Bool) : Repository :=
  { r with settings := { r.settings with cached } }

/-- What some calls of the two link stores of a repository are answered one after another, and what
they leave of the registry. -/
def answers (r : Repository) (w : World) :
    List (LinkKind × LinkCall) → List (Except RegistryError LinkAnswer) × World
  | [] => ([], w)
  | (kind, call) :: rest =>
    let (x, w) := w.run ((r.linkStore kind).perform call)
    let (xs, w) := r.answers w rest
    (x :: xs, w)

/-- Whether a digest is no layer where one is asked for. -/
def IsAlien (r : Repository) (w : World) (kind : LinkKind) (d : Digest) : Prop :=
  kind = .layer ∧ w.record? (.link .layer r.name d) = none

/-- Whether a call is misled by what the cache tells: it tells of a digest that is no layer where
one is asked for, or of another size than that of the content. -/
def IsMisled (r : Repository) (w : World) (kind : LinkKind) : LinkCall → Prop
  | .stat d => r.settings.isHidden d = false ∧ ∃ descriptor,
    w.cache.lookUp (some r.name) d = .ok descriptor ∧ (r.IsAlien w kind d ∨
      (w.record? (.blob r.blobStore d)).map List.length ≠ some descriptor.size)
  | .contains d | .get d => r.settings.isHidden d = false ∧
    (∃ descriptor, w.cache.lookUp (some r.name) d = .ok descriptor) ∧ r.IsAlien w kind d
  | .put _ _ | .link _ | .unlink _ | .delete _ => False

/-- Whether the cache misleads any of some calls that are made one after another. -/
def AnyIsMisled (r : Repository) (w : World) : List (LinkKind × LinkCall) → Prop
  | [] => False
  | (kind, call) :: rest => r.IsMisled w kind call ∨
    r.AnyIsMisled (w.run ((r.linkStore kind).perform call)).2 rest

end Repository

namespace LinkStore

variable (links : LinkStore) {s : Site} {b : Bucket} {cache : DescriptorCache}

def reply (b : Bucket) (cache : DescriptorCache) : LinkCall → Except RegistryError LinkAnswer
  | .put _ content => .ok (.described content.length (.ofContent content))
  | .link _ => .ok .done
  | .unlink d => .ok (.held (links.isLinked b d))
  | .delete d =>
    if links.settings.deleteEnabled then
      if (links.told? b cache d).isSome ∧ links.isLinked b d then .ok .done
      else .error (.blobUnknown d)
    else .error (.unsupported "delete")
  | .stat d => (links.told? b cache d).elim (.error (.blobUnknown d)) fun descriptor =>
    .ok (.ofDescriptor descriptor)
  | .contains d => .ok (.held (links.told? b cache d).isSome)
  | .get d => ((links.told? b cache d).bind fun _ => b.at? (.blob links.blobs d)).elim
    (.error (.blobUnknown d)) fun content => .ok (.content content)

def left (b : Bucket) (cache : DescriptorCache) : LinkCall → Bucket
  | .put _ content => links.pushed b content
  | .link d => b.put (links.key links.current d) (Octets.ofText d.text)
  | .unlink d => links.unlinked b d
  | .delete d =>
    if links.settings.deleteEnabled ∧ (links.told? b cache d).isSome then links.unlinked b d else b
  | .stat _ | .contains _ | .get _ => b

lemma isTable_noted (table : cache.IsTable) (d : Digest) (descriptor : Descriptor) :
    (links.noted cache d descriptor).IsTable := by
  unfold noted
  split_ifs
  · exact table.remember _ _ _
  · exact table

lemma isTable_dropped (table : cache.IsTable) (d : Digest) : (links.dropped cache d).IsTable := by
  unfold dropped
  split_ifs
  · exact table.forget _ _
  · exact table

lemma isTable_asked (table : cache.IsTable) (b : Bucket) (d : Digest) :
    (links.asked b cache d).IsTable := by
  rcases links.asked_cases b cache d with same | ⟨descriptor, -, same⟩ <;> rw [same]
  · exact table
  · exact links.isTable_noted table d descriptor

lemma run_delete_told (ledger : b.IsLedger) (table : cache.IsTable) (d : Digest) : ∃ cache',
    (s.world b cache).run ((fun _ => LinkAnswer.done) <$> links.delete d) =
      (links.reply b cache (.delete d), s.world (links.left b cache (.delete d)) cache') ∧
        cache'.IsTable := by
  unfold delete reply left
  dsimp only
  by_cases enabled : links.settings.deleteEnabled = true
  · have table' := links.isTable_asked table b d
    obtain ⟨x, ran', ok⟩ := run_unlink links s b (links.asked b cache d) d
    obtain rfl := ok fun _ => table'
    simp only [enabled, if_true, run_map, run_bind, run_stat links s cache ledger, true_and]
    cases links.told? b cache d with
    | none => exact ⟨_, rfl, table'⟩
    | some descriptor =>
      simp only [Option.elim_some, ran', Option.isSome_some, true_and]
      refine ⟨_, ?_, links.isTable_dropped table' d⟩
      cases links.isLinked b d <;> rfl
  · simp only [enabled]
    exact ⟨cache, rfl, table⟩

theorem run_perform (ledger : b.IsLedger) (faithful : cache.IsFaithful) (table : cache.IsTable)
    (call : LinkCall) : ∃ cache', (s.world b cache).run (links.perform call) =
      (links.reply b cache call, s.world (links.left b cache call) cache') ∧ cache'.IsTable := by
  cases call with
  | put mediaType content =>
    let descriptor : Descriptor :=
      { mediaType, size := content.length, digest := .ofContent content }
    refine ⟨_, ?_, links.isTable_noted table (.ofContent content) descriptor⟩
    rw [perform, run_map, run_put]
    rfl
  | link d =>
    refine ⟨cache, ?_, table⟩
    rw [perform, run_map, link, Site.run_store]
    rfl
  | unlink d =>
    obtain ⟨x, ran, ok⟩ := run_unlink links s b cache d
    obtain rfl := ok fun _ => table
    refine ⟨_, ?_, links.isTable_dropped table d⟩
    rw [perform, run_map, ran]
    rfl
  | delete d => exact links.run_delete_told ledger table d
  | stat d =>
    refine ⟨_, ?_, links.isTable_asked table b d⟩
    rw [perform, run_map, run_stat links s cache ledger, reply]
    cases links.told? b cache d <;> rfl
  | contains d =>
    refine ⟨_, ?_, links.isTable_asked table b d⟩
    rw [perform, run_map, links.run_contains_told ledger]
    rfl
  | get d =>
    refine ⟨_, ?_, links.isTable_asked table b d⟩
    rw [perform, run_map, links.run_get_told ledger faithful, reply]
    generalize (links.told? b cache d).bind _ = found
    cases found <;> rfl

end LinkStore

/-- A registry that is sound and has its cache in memory. What a cache that is in use tells of is
linked and stored. -/
structure Holdings.IsServing (settings : Settings) (h : Holdings) : Prop where
  sound : h.IsSound
  table : h.cache.IsTable
  holds : settings.cached = true → h.CacheHolds settings

lemma Changes.cacheHolds {settings : Settings} {P : Digest → Prop} {h h' : Holdings}
    (cached : settings.cached = true) (changes : Changes settings P h h')
    (holds : h.CacheHolds settings) : h'.CacheHolds settings := by
  induction changes with
  | refl => exact holds
  | tail _ change ih => exact change.cacheHolds cached ih

namespace LinkStore

variable {links : LinkStore}

lemma makes_perform {call : LinkCall} (stores : ∀ d, call ≠ .link d) :
    (links.perform call).Makes links.settings (fun _ => True) fun _ => True := by
  cases call with
  | put mediaType content =>
    exact (makes_put rfl mediaType fun _ => trivial).map fun _ _ => trivial
  | link d => exact absurd rfl (stores d)
  | unlink d => exact (makes_unlink rfl d).map fun _ _ => trivial
  | delete d => exact (makes_delete rfl d).map fun _ _ => trivial
  | stat d => exact (makes_stat rfl d).map fun _ _ => trivial
  | contains d => exact (makes_contains rfl d).map fun _ _ => trivial
  | get d => exact (makes_get rfl d).map fun _ _ => trivial

theorem isServing_perform (links : LinkStore) (s : Site) {h : Holdings}
    (serving : h.IsServing links.settings) (call : LinkCall) : ∃ cache',
    (s.world h.bucket h.cache).run (links.perform call) =
      (links.reply h.bucket h.cache call, s.world (links.left h.bucket h.cache call) cache') ∧
    Holdings.IsServing links.settings ⟨links.left h.bucket h.cache call, cache'⟩ := by
  obtain ⟨⟨ledger, faithful⟩, table, holds⟩ := serving
  obtain ⟨cache', ran, table'⟩ := links.run_perform (s := s) ledger faithful table call
  refine ⟨cache', ran, ?_⟩
  by_cases bare : ∃ d, call = .link d
  · obtain ⟨d, rfl⟩ := bare
    -- a link that is made on its own adds a record, and tells the cache nothing
    have linked := s.run_store h.bucket h.cache (links.key links.current d) (Octets.ofText d.text)
    rw [perform, run_map, link, linked] at ran
    obtain ⟨-, rfl⟩ := Site.eq_of_world_eq (Prod.mk.inj ran).2
    refine ⟨⟨ledger.put (r := .link _ _ _) trivial rfl, faithful⟩, table,
      fun cached n e kept told => ?_⟩
    obtain ⟨⟨kind, has⟩, stored⟩ := holds cached n e kept told
    exact ⟨⟨kind, has.put _ _⟩, stored.put _ _⟩
  · obtain ⟨x, h', ran', changes, -⟩ :=
      makes_perform (fun d same => bare ⟨d, same⟩) s h ⟨ledger, faithful⟩
    obtain ⟨bucket, cache⟩ := Site.eq_of_world_eq (Prod.mk.inj (ran.symm.trans ran')).2
    rw [bucket, cache]
    exact ⟨changes.isSound ⟨ledger, faithful⟩, cache ▸ table',
      fun cached => changes.cacheHolds cached (holds cached)⟩

end LinkStore

namespace Repository

variable (r : Repository) {s : Site} {b : Bucket} {cache : DescriptorCache} {kind : LinkKind}
  {d : Digest}

lemma descriptor?_of_held {content : Octets} (held : ∃ kind, b.Has (.link kind r.name d))
    (stored : b.at? (.blob r.blobStore d) = some content) :
    (b.descriptor? (r.linkStore kind) d = none ∧ r.IsAlien (s.world b cache) kind d) ∨
    (b.descriptor? (r.linkStore kind) d = some
      { mediaType := MediaType.octets, size := content.length, digest := d } ∧
      ¬r.IsAlien (s.world b cache) kind d) := by
  have alien : r.IsAlien (s.world b cache) kind d ↔
      ¬∃ kind' ∈ (r.linkStore kind).kinds, b.Has (.link kind' (r.linkStore kind).repository d) := by
    rw [IsAlien, Site.record?_world]
    cases kind with
    | layer => simp [linkStore, blobs, LinkStore.kinds, Bucket.Has]
    | revision =>
      obtain ⟨kind', has⟩ := held
      exact iff_of_false (fun revision => absurd revision.1 (by decide))
        fun none => none ⟨kind', r.mem_kinds_manifests kind', has⟩
  have same : (r.linkStore kind).blobs = r.blobStore := by cases kind <;> rfl
  rw [Bucket.descriptor?, same, stored, alien]
  split_ifs with linked
  · exact .inr ⟨rfl, not_not.2 linked⟩
  · exact .inl ⟨rfl, linked⟩

lemma told?_plain : ((r.cachedAs false).linkStore kind).told? b cache d =
    if r.settings.isHidden d then none else b.descriptor? (r.linkStore kind) d := by
  cases kind <;> rfl

lemma told?_cached : ((r.cachedAs true).linkStore kind).told? b cache d =
    if r.settings.isHidden d then none
    else (cache.lookUp (some r.name) d).toOption.or (b.descriptor? (r.linkStore kind) d) := by
  cases kind <;> rfl

lemma told?_cases (serving : Holdings.IsServing (r.cachedAs true).settings ⟨b, cache⟩)
    (cache₀ : DescriptorCache) (kind : LinkKind) (d : Digest) :
    let told := ((r.cachedAs true).linkStore kind).told? b cache d
    let plain := ((r.cachedAs false).linkStore kind).told? b cache₀ d
    (told = plain ∧ ¬(r.settings.isHidden d = false ∧
      ∃ descriptor, cache.lookUp (some r.name) d = .ok descriptor)) ∨
    ∃ descriptor content, r.settings.isHidden d = false ∧
      cache.lookUp (some r.name) d = .ok descriptor ∧ told = some descriptor ∧
      descriptor.digest = d ∧ b.at? (.blob r.blobStore d) = some content ∧
      ((plain = none ∧ r.IsAlien (s.world b cache) kind d) ∨
        (plain = some { mediaType := MediaType.octets, size := content.length, digest := d } ∧
          ¬r.IsAlien (s.world b cache) kind d)) := by
  intro told plain
  simp only [told, plain, told?_plain, told?_cached]
  by_cases hidden : r.settings.isHidden d = true
  · simp [hidden]
  have shown : r.settings.isHidden d = false := Bool.eq_false_iff.2 hidden
  simp only [shown, Bool.false_eq_true, if_false]
  cases kept : cache.lookUp (some r.name) d with
  | error e => exact .inl ⟨rfl, fun ⟨_, _, same⟩ => nomatch same⟩
  | ok descriptor =>
    obtain ⟨held, stored⟩ := serving.holds rfl r.name d descriptor kept
    obtain ⟨content, stored⟩ := Bucket.has_iff.1 stored
    exact .inr ⟨descriptor, content, trivial, rfl, rfl,
      serving.sound.isFaithful.named _ _ _ kept, stored, r.descriptor?_of_held held stored⟩

lemma links_of_isAlien {cached : Bool} (alien : r.IsAlien (s.world b cache) kind d) :
    ((r.cachedAs cached).linkStore kind).isLinked b d = false ∧
      ((r.cachedAs cached).linkStore kind).unlinked b d = b := by
  obtain ⟨rfl, missing⟩ := alien
  rw [Site.record?_world] at missing
  refine ⟨?_, Bucket.remove_of_content?_eq_none missing⟩
  simp [LinkStore.isLinked, LinkStore.kinds, linkStore, blobs, cachedAs, missing]

theorem left_cached (serving : Holdings.IsServing (r.cachedAs true).settings ⟨b, cache⟩)
    (cache₀ : DescriptorCache) (kind : LinkKind) (call : LinkCall) :
    ((r.cachedAs true).linkStore kind).left b cache call =
      ((r.cachedAs false).linkStore kind).left b cache₀ call := by
  have unlinked (d : Digest) : ((r.cachedAs true).linkStore kind).unlinked b d =
      ((r.cachedAs false).linkStore kind).unlinked b d := by cases kind <;> rfl
  have enabled (cached : Bool) : ((r.cachedAs cached).linkStore kind).settings.deleteEnabled =
      r.settings.deleteEnabled := by cases kind <;> rfl
  cases call with
  | put | link => cases kind <;> rfl
  | stat | contains | get => rfl
  | unlink d => exact unlinked d
  | delete d =>
    simp only [LinkStore.left, enabled]
    rcases r.told?_cases (s := ⟨"", ∅, none⟩) serving cache₀ kind d with ⟨same, -⟩ |
      ⟨_, _, -, -, told, -, -, ⟨plain, alien⟩ | ⟨plain, -⟩⟩
    · rw [same, unlinked]
    · simp [told, plain, (r.links_of_isAlien alien).2]
    · simp [told, plain, unlinked]

variable {r} in
lemma reply_stat_iff (s : Site)
    (serving : Holdings.IsServing (r.cachedAs true).settings ⟨b, cache⟩)
    (cache₀ : DescriptorCache) (kind : LinkKind) (d : Digest) :
    ((r.cachedAs true).linkStore kind).reply b cache (.stat d) =
        ((r.cachedAs false).linkStore kind).reply b cache₀ (.stat d) ↔
      ¬(r.cachedAs true).IsMisled (s.world b cache) kind (.stat d) := by
  rcases r.told?_cases (s := s) serving cache₀ kind d with ⟨same, nothing⟩ |
    ⟨descriptor, content, shown, kept, told, named, stored, ⟨plain, alien⟩ | ⟨plain, isLayer⟩⟩
  · refine iff_of_true ?_ fun ⟨shown, descriptor, kept, _⟩ => nothing ⟨shown, descriptor, kept⟩
    simp only [LinkStore.reply, same]
  · refine iff_of_false ?_ (not_not.2 ⟨shown, descriptor, kept, .inl alien⟩)
    simp only [LinkStore.reply, told, plain]
    exact nofun
  · have size : ((s.world b cache).record? (.blob r.blobStore d)).map List.length =
        some content.length := by
      rw [Site.record?_world, stored]
      rfl
    have misled : (r.cachedAs true).IsMisled (s.world b cache) kind (.stat d) ↔
        content.length ≠ descriptor.size := by
      constructor
      · rintro ⟨-, other, kept', alien | differs⟩
        · exact absurd alien isLayer
        · obtain rfl := Except.ok.inj (kept.symm.trans kept')
          exact fun same => differs (size.trans (congrArg some same))
      · exact fun differs => ⟨shown, descriptor, kept, .inr fun same =>
          differs (Option.some.inj (size.symm.trans same))⟩
    rw [misled, not_not]
    simp [LinkStore.reply, told, plain, LinkAnswer.ofDescriptor, named, eq_comm]

theorem reply_cached_iff (s : Site)
    (serving : Holdings.IsServing (r.cachedAs true).settings ⟨b, cache⟩)
    (cache₀ : DescriptorCache) (kind : LinkKind) (call : LinkCall) :
    ((r.cachedAs true).linkStore kind).reply b cache call =
        ((r.cachedAs false).linkStore kind).reply b cache₀ call ↔
      ¬(r.cachedAs true).IsMisled (s.world b cache) kind call := by
  have isLinked (d : Digest) : ((r.cachedAs true).linkStore kind).isLinked b d =
      ((r.cachedAs false).linkStore kind).isLinked b d := by cases kind <;> rfl
  have blobs (cached : Bool) : ((r.cachedAs cached).linkStore kind).blobs = r.blobStore := by
    cases kind <;> rfl
  have enabled (cached : Bool) : ((r.cachedAs cached).linkStore kind).settings.deleteEnabled =
      r.settings.deleteEnabled := by cases kind <;> rfl
  cases call with
  | put | link => exact iff_of_true rfl id
  | unlink d => exact iff_of_true (by simp only [LinkStore.reply, isLinked]) id
  | stat d => exact reply_stat_iff s serving cache₀ kind d
  | contains d =>
    rcases r.told?_cases (s := s) serving cache₀ kind d with ⟨same, nothing⟩ |
      ⟨descriptor, _, shown, kept, told, -, -, ⟨plain, alien⟩ | ⟨plain, isLayer⟩⟩
    · refine iff_of_true ?_ fun ⟨shown, known, _⟩ => nothing ⟨shown, known⟩
      simp only [LinkStore.reply, same]
    · refine iff_of_false ?_ (not_not.2 ⟨shown, ⟨descriptor, kept⟩, alien⟩)
      simp [LinkStore.reply, told, plain]
    · refine iff_of_true ?_ fun ⟨_, _, alien⟩ => isLayer alien
      simp [LinkStore.reply, told, plain]
  | get d =>
    rcases r.told?_cases (s := s) serving cache₀ kind d with ⟨same, nothing⟩ |
      ⟨descriptor, _, shown, kept, told, -, stored, ⟨plain, alien⟩ | ⟨plain, isLayer⟩⟩
    · refine iff_of_true ?_ fun ⟨shown, known, _⟩ => nothing ⟨shown, known⟩
      simp only [LinkStore.reply, same, blobs]
    · refine iff_of_false ?_ (not_not.2 ⟨shown, ⟨descriptor, kept⟩, alien⟩)
      simp [LinkStore.reply, told, plain, blobs, stored]
    · refine iff_of_true ?_ fun ⟨_, _, alien⟩ => isLayer alien
      simp [LinkStore.reply, told, plain, blobs]
  | delete d =>
    -- what passes for a layer has no link that could be removed
    refine iff_of_true ?_ id
    simp only [LinkStore.reply, enabled, isLinked]
    rcases r.told?_cases (s := s) serving cache₀ kind d with ⟨same, -⟩ |
      ⟨_, _, -, -, told, -, -, ⟨plain, alien⟩ | ⟨plain, -⟩⟩
    · rw [same]
    · simp [told, plain, (r.links_of_isAlien alien).1]
    · simp [told, plain]

lemma isServing_answer {cached : Bool}
    (serving : Holdings.IsServing (r.cachedAs cached).settings ⟨b, cache⟩) (kind : LinkKind)
    (call : LinkCall) : ∃ cache',
    (s.world b cache).run (((r.cachedAs cached).linkStore kind).perform call) =
      (((r.cachedAs cached).linkStore kind).reply b cache call,
        s.world (((r.cachedAs cached).linkStore kind).left b cache call) cache') ∧
    Holdings.IsServing (r.cachedAs cached).settings
      ⟨((r.cachedAs cached).linkStore kind).left b cache call, cache'⟩ := by
  have same : ((r.cachedAs cached).linkStore kind).settings = (r.cachedAs cached).settings := by
    cases kind <;> rfl
  have performed := LinkStore.isServing_perform ((r.cachedAs cached).linkStore kind) s
    (same ▸ serving) call
  rwa [same] at performed

/-- Calls that are made one after another leave the bucket as they would without the cache, and are
answered so unless one of them is misled. -/
theorem answers_cached_iff (s : Site) (calls : List (LinkKind × LinkCall))
    {b : Bucket} {cache cache₀ : DescriptorCache}
    (serving : Holdings.IsServing (r.cachedAs true).settings ⟨b, cache⟩)
    (plain : Holdings.IsServing (r.cachedAs false).settings ⟨b, cache₀⟩) :
    ((r.cachedAs true).answers (s.world b cache) calls).2.backend =
      ((r.cachedAs false).answers (s.world b cache₀) calls).2.backend ∧
    (((r.cachedAs true).answers (s.world b cache) calls).1 =
        ((r.cachedAs false).answers (s.world b cache₀) calls).1 ↔
      ¬(r.cachedAs true).AnyIsMisled (s.world b cache) calls) := by
  induction calls generalizing b cache cache₀ with
  | nil => exact ⟨rfl, iff_of_true rfl id⟩
  | cons called rest ih =>
    obtain ⟨kind, call⟩ := called
    obtain ⟨cache', ran, serving'⟩ := r.isServing_answer (s := s) serving kind call
    obtain ⟨cache₀', ran₀, plain'⟩ := r.isServing_answer (s := s) plain kind call
    rw [← r.left_cached serving cache₀ kind call] at ran₀ plain'
    obtain ⟨sameBucket, sameRest⟩ := ih serving' plain'
    simp only [answers, AnyIsMisled, ran, ran₀, List.cons.injEq, not_or]
    exact ⟨sameBucket, and_congr (r.reply_cached_iff s serving cache₀ kind call) sameRest⟩

lemma isServing_start {settings : Settings} (ledger : b.IsLedger) :
    Holdings.IsServing settings ⟨b, .empty⟩ where
  sound := ⟨ledger, DescriptorCache.isFaithful_empty⟩
  table := ⟨∅, rfl⟩
  holds _ n d descriptor kept := by
    simp [DescriptorCache.empty, DescriptorCache.lookUp] at kept

/-- Where a registry starts with an empty cache, calls of the link stores of a repository leave the
same stored as without a cache, and are answered the same exactly if none of them is misled. -/
theorem cache_transparent_iff {settings : Settings} {w : World} (attained : Attained settings w)
    (n : RepositoryName) (calls : List (LinkKind × LinkCall)) :
    let r : Repository := ⟨settings, n⟩
    let start := { w with cache := .empty }
    ((r.cachedAs true).answers start calls).2.backend =
      ((r.cachedAs false).answers start calls).2.backend ∧
    (((r.cachedAs true).answers start calls).1 = ((r.cachedAs false).answers start calls).1 ↔
      ¬(r.cachedAs true).AnyIsMisled start calls) := by
  obtain ⟨s, h, rfl, orderly⟩ := attained.isOrderly
  have ledger := orderly.sound.isLedger
  exact answers_cached_iff ⟨settings, n⟩ s calls (isServing_start ledger) (isServing_start ledger)

open Collector

lemma fresh_uncached : { World.fresh "registry" none with cache := .empty } =
    (⟨"registry", ∅, none⟩ : Site).world ∅ .empty := by
  rw [World.fresh_eq]
  rfl

/-- A blob that was put is read with the cache as it is without. -/
theorem pushedBlob_transparent :
    let start : World := { World.fresh "registry" none with cache := .empty }
    let calls : List (LinkKind × LinkCall) :=
      [(.layer, .put "" emptyIndex), (.layer, .get (.ofContent emptyIndex))]
    Attained exampleRepository.settings (.fresh "registry" none) ∧
    ((exampleRepository.cachedAs true).answers start calls).1 =
      ((exampleRepository.cachedAs false).answers start calls).1 := by
  intro start calls
  have attained : Attained exampleRepository.settings (.fresh "registry" none) := .start _ _
  refine ⟨attained, (cache_transparent_iff attained exampleRepository.name calls).2.2 ?_⟩
  have linked := (Bucket.has_pushed ∅ (exampleRepository.cachedAs true).blobs emptyIndex).1
  rw [fresh_uncached]
  rintro (⟨⟨⟩⟩ | ⟨-, -, -, missing⟩ | ⟨⟨⟩⟩)
  rw [LinkStore.perform, run_map, LinkStore.run_put, Site.record?_world] at missing
  have impossible : true = false := linked.symm.trans (congrArg Option.isSome missing)
  cases impossible

/-- A manifest that was put, but not as a blob, is told to be one by the cache. -/
theorem pushedManifest_misleads :
    let start : World := { World.fresh "registry" none with cache := .empty }
    let calls : List (LinkKind × LinkCall) :=
      [(.revision, .put "" emptyIndex), (.layer, .contains (.ofContent emptyIndex))]
    ((exampleRepository.cachedAs true).answers start calls).1 ≠
      ((exampleRepository.cachedAs false).answers start calls).1 := by
  intro start calls
  have ledger : (∅ : Bucket).IsLedger := Bucket.isLedger_empty
  have serving (settings : Settings) : Holdings.IsServing settings ⟨∅, .empty⟩ :=
    isServing_start ledger
  have begins : start = (⟨"registry", ∅, none⟩ : Site).world ∅ .empty := fresh_uncached
  rw [begins]
  refine mt (exampleRepository.answers_cached_iff ⟨"registry", ∅, none⟩ calls (serving _)
    (serving _)).2.1 (not_not.2 (.inr (.inl ⟨rfl, ?_, rfl, ?_⟩)))
  · rw [LinkStore.perform, run_map, LinkStore.run_put]
    refine ⟨{ mediaType := "", size := emptyIndex.length, digest := .ofContent emptyIndex }, ?_⟩
    change (DescriptorCache.table (Std.ExtTreeMap.insert _
      (some exampleRepository.name, .ofContent emptyIndex) _)).lookUp (some exampleRepository.name)
      _ = _
    rw [DescriptorCache.lookUp, Std.ExtTreeMap.getElem?_insert_self]
  · rw [LinkStore.perform, run_map, LinkStore.run_put]
    change ((⟨"registry", ∅, none⟩ : Site).world _ _).record? (.link _ _ _) = none
    rw [Site.record?_world, Bucket.at?_pushed (r := .link _ _ _) trivial]
    simp [linkStore, manifests]

end Repository
end ImageRegistry
