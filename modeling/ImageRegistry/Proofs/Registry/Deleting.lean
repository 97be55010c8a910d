import ImageRegistry.Proofs.Collection.Rehearsal
import ImageRegistry.Proofs.Collection.Surveying
import ImageRegistry.Proofs.Registry.Integrity
import ImageRegistry.Proofs.Registry.Transparency

/-! Deleting manifests. A manifest that is linked is taken out of its repository with the tags that
stand for it, and with nothing else. One that is not linked is unknown, and nothing changes, unless
the cache still tells of it. -/

namespace ImageRegistry

open World Collector

namespace World

lemma isTable_reply {w : World} (table : w.cache.IsTable) (c : Call) :
    (w.reply c).2.cache.IsTable := by
  cases c with
  | remember n d descriptor => exact table.remember n d descriptor
  | forget n d => exact table.forget n d
  | _ => exact table

lemma isTable_answer {w : World} (table : w.cache.IsTable) (c : Call) :
    (w.answer c).2.cache.IsTable := by
  have replied (faults : List Fault) : ({ w with faults }.reply c).2.cache.IsTable :=
    isTable_reply (w := { w with faults }) table c
  unfold answer
  split
  · exact isTable_reply table c
  · split
    · exact replied _
    · exact table

theorem isTable_run {α : Type} {w : World} (table : w.cache.IsTable) (p : Program α) :
    (p.run answer w).2.cache.IsTable := by
  induction p generalizing w with
  | done result => exact table
  | ask c next ih => exact ih _ (isTable_answer table c)

end World

theorem Evolved.isTable {settings : Settings} {w : World} (evolved : Evolved settings w) :
    w.cache.IsTable := by
  induction evolved with
  | start bucket locationBase => exact ⟨_, rfl⟩
  | perform op _ table => cases op <;> exact isTable_run table _
  | removeTag _ _ _ table => exact isTable_run table _
  | putWhole _ _ _ _ table => exact isTable_run table _
  | storeManifest _ _ _ _ _ table => exact isTable_run table _
  | link _ _ _ _ table => exact isTable_run table _
  | unlink _ _ _ _ table => exact isTable_run table _

/-- What goes with a manifest: the links to it, and what belongs to the tags that stand for it. -/
def World.GoesWith (w : World) (n : RepositoryName) (d : Digest) : Record → Prop
  | .link _ m e => m = n ∧ e = d
  | .tagTarget m t | .tagEntry m t _ =>
    m = n ∧ w.record? (.tagTarget n t) = some (Octets.ofText d.text)
  | .blob _ _ | .uploadContent _ _ | .uploadStart _ _ => False

namespace Manifests

/-- A manifest was taken out of its repository. It is unknown there, and no tag stands for it. What
belonged to these tags is gone with the links, and nothing else is, so that other tags stand for
what they stood for and remember what they remembered. -/
structure IsTakenOut (r : Repository) (d : Digest) (w w' : World) : Prop where
  absent : w'.run (contains r d) = (.ok false, w')
  missing : w'.run (get r d) = (.error (unknown r d), w')
  untagged : w'.run (Tags.lookup r.name d) = (.ok [], w')
  gone : ∀ t, TagName.accepts t = true → (w.run (Tags.get r.name t)).1 = .ok d →
    w'.run (Tags.get r.name t) = (.error (.tagUnknown t), w')
  tags : ∀ n t, TagName.accepts t = true →
    ¬(n = r.name ∧ (w.run (Tags.get n t)).1 = .ok d) →
      w'.run (Tags.get n t) = ((w.run (Tags.get n t)).1, w') ∧
        w'.run (Tags.history n t) = ((w.run (Tags.history n t)).1, w')
  records : ∀ q : Record, q.IsLawful → (w.GoesWith r.name d q → w'.record? q = none) ∧
    (¬w.GoesWith r.name d q → w'.record? q = w.record? q)

variable {s : Site} {b b' : Bucket} {cache cache' : DescriptorCache} {r : Repository} {d : Digest}

lemma run_eraseTags (s : Site) (ledger : b.IsLedger) (cache : DescriptorCache)
    (n : RepositoryName) {ts : List String} (accepted : ∀ t ∈ ts, TagName.accepts t = true) :
    ∃ b', (s.world b cache).run (ts.forM fun t => do let _ ← Tags.erase n t) =
        (.ok (), s.world b' cache) ∧
      b.Drops b' fun q => ∃ t ∈ ts, q = .tagTarget n t ∨ ∃ e, q = .tagEntry n t e := by
  induction ts generalizing b with
  | nil => exact ⟨b, rfl, .none ledger (by simp)⟩
  | cons t ts ih =>
    have first := Bucket.Drops.removeBelow ledger (Layout.tag n t)
    obtain ⟨b', ran', rest⟩ := ih first.1 fun u mem => accepted u (List.mem_cons_of_mem t mem)
    refine ⟨b', ?_, (first.trans rest).congr fun q lawful _ => ?_⟩
    · change (s.world b cache).run (((Tags.erase n t) >>= fun _ => pure ()) >>= fun _ =>
        ts.forM fun t => do let _ ← Tags.erase n t) = _
      rw [run_bind, run_bind, Tags.erase, s.run_eraseBelow]
      exact ran'
    · rw [List.exists_mem_cons_iff, and_iff_right lawful,
        Layout.startsWith_tag_iff lawful n (accepted t List.mem_cons_self)]

lemma run_untag (s : Site) (ledger : b.IsLedger) (cache : DescriptorCache) (n : RepositoryName)
    (d : Digest) :
    ∃ b', (s.world b cache).run (do
        (← Tags.lookup n d).forM fun t => do let _ ← Tags.erase n t) = (.ok (), s.world b' cache) ∧
      b.Drops b' fun q => (∀ kind, q ≠ .link kind n d) ∧ (s.world b cache).GoesWith n d q := by
  obtain ⟨ts, found, mem⟩ := s.run_lookup cache ledger n d
  obtain ⟨b', ran, drops⟩ := run_eraseTags s ledger cache n fun t h => ((mem t).1 h).1
  refine ⟨b', ?_, drops.congr fun q lawful _ => ?_⟩
  · rw [run_bind, found]
    exact ran
  · have standing (t : String) (accepted : TagName.accepts t = true) : t ∈ ts ↔
        (s.world b cache).record? (.tagTarget n t) = some (Octets.ofText d.text) := by
      rw [mem, Site.record?_world, ledger.target?_eq_some_iff accepted, and_iff_right accepted]
    cases q with
    | tagTarget m t => simp [World.GoesWith, ← standing t lawful, and_comm]
    | tagEntry m t e => simp [World.GoesWith, ← standing t lawful, and_comm]
    | link kind m e => simp [World.GoesWith]
    | blob | uploadContent | uploadStart => simp [World.GoesWith]

lemma drops_unlinked (links : LinkStore) (ledger : b.IsLedger) (d : Digest) :
    b.Drops (links.unlinked b d) fun q =>
      ∃ kind ∈ links.kinds, q = .link kind links.repository d := by
  refine ⟨LinkStore.isLedger_unlinked ledger links d, fun q lawful => ?_⟩
  rw [Bucket.at?_unlinked lawful]
  exact ⟨fun gone => if_pos gone, fun stays => if_neg stays⟩

lemma not_knows_dropped {links : LinkStore} {later : DescriptorCache}
    (unlinked : ∀ kind ∈ links.kinds, ¬b.Has (.link kind links.repository d)) :
    ¬links.Knows b (links.dropped later d) d := by
  rintro (⟨cached, descriptor, told⟩ | described)
  · rw [LinkStore.dropped, if_pos cached] at told
    exact (DescriptorCache.lookUp_forget told).1 ⟨rfl, rfl⟩
  · obtain ⟨⟨kind, mem, has⟩, -⟩ := Bucket.descriptor?_ne_none_iff.1 described
    exact unlinked kind mem has

lemma isLinked_manifests_iff : r.manifests.isLinked b d = true ↔
    ∃ kind, b.Has (.link kind r.name d) := by
  rw [LinkStore.isLinked, List.any_eq_true]
  constructor
  · rintro ⟨kind, -, has⟩
    exact ⟨kind, has⟩
  · rintro ⟨kind, has⟩
    exact ⟨kind, r.mem_kinds_manifests kind, has⟩

lemma isSome_told?_of_knows (shown : r.settings.hides = none)
    (known : r.manifests.Knows b cache d) : (r.manifests.told? b cache d).isSome = true := by
  refine (LinkStore.isSome_told?_iff r.manifests).2 ⟨?_, known⟩
  change r.settings.isHidden d = false
  rw [Settings.isHidden, shown]
  rfl

lemma run_deleteLinks (enabled : r.settings.deleteEnabled = true)
    (shown : r.settings.hides = none) (s : Site) (ledger : b.IsLedger) (table : cache.IsTable)
    (known : r.manifests.Knows b cache d) :
    (s.world b cache).run (whenBlobUnknown (unknown r d) (r.manifests.delete d)) =
      (if r.manifests.isLinked b d then .ok () else .error (unknown r d),
        s.world (r.manifests.unlinked b d)
          (r.manifests.dropped (r.manifests.asked b cache d) d)) := by
  obtain ⟨descriptor, told⟩ := Option.isSome_iff_exists.1 (isSome_told?_of_knows shown known)
  obtain ⟨x, unlinked, ok⟩ := r.manifests.run_unlink s b (r.manifests.asked b cache d) d
  obtain rfl := ok fun _ => r.manifests.isTable_asked table b d
  have enabled : r.manifests.settings.deleteEnabled = true := enabled
  rw [whenBlobUnknown, run_tryCatch, LinkStore.delete]
  simp only [enabled, if_true, run_bind, LinkStore.run_stat r.manifests s cache ledger, told,
    Option.elim_some, unlinked]
  cases r.manifests.isLinked b d <;> rfl

lemma run_delete_known (enabled : r.settings.deleteEnabled = true)
    (shown : r.settings.hides = none) (s : Site) (ledger : b.IsLedger) (table : cache.IsTable)
    (known : r.manifests.Knows b cache d) :
    ∃ b' cache', (s.world b cache).run (delete r d) =
        (if r.manifests.isLinked b d then .ok () else .error (unknown r d),
          s.world b' cache') ∧
      b.Drops b' ((s.world b cache).GoesWith r.name d) ∧ ¬r.manifests.Knows b' cache' d := by
  let later := r.manifests.asked b cache d
  obtain ⟨b₁, untagged, first⟩ := run_untag s ledger later r.name d
  have stored : b₁.Has (.blob r.manifests.blobs d) ↔ b.Has (.blob r.manifests.blobs d) := by
    simp [first.has (r := .blob r.manifests.blobs d) trivial, World.GoesWith]
  have linked (kind : LinkKind) : b₁.Has (.link kind r.name d) ↔ b.Has (.link kind r.name d) := by
    simp [first.has (r := .link kind r.name d) trivial]
  -- what was known is still known once the tags are gone, so that its links are looked for
  have known₁ : r.manifests.Knows b₁ later d := by
    refine (LinkStore.Knows.asked (d := d) known).imp_right fun described => ?_
    rw [Bucket.descriptor?_ne_none_iff] at described ⊢
    exact ⟨described.1.imp fun kind held => ⟨held.1, (linked kind).2 held.2⟩,
      stored.2 described.2⟩
  have same : r.manifests.isLinked b₁ d = r.manifests.isLinked b d := by
    rw [Bool.eq_iff_iff, isLinked_manifests_iff, isLinked_manifests_iff]
    exact exists_congr linked
  have unlinked := run_deleteLinks enabled shown s first.1 (r.manifests.isTable_asked table b d)
    known₁
  have second := drops_unlinked r.manifests first.1 d
  have drops : b.Drops (r.manifests.unlinked b₁ d) ((s.world b cache).GoesWith r.name d) := by
    refine (first.trans second).congr fun q lawful _ => ?_
    change ((∀ kind, q ≠ .link kind r.name d) ∧ (s.world b cache).GoesWith r.name d q) ∨
      (∃ kind ∈ r.manifests.kinds, q = .link kind r.name d) ↔ (s.world b cache).GoesWith r.name d q
    cases q with
    | link kind m e => simp [World.GoesWith, r.mem_kinds_manifests]
    | _ => simp
  refine ⟨r.manifests.unlinked b₁ d, r.manifests.dropped (r.manifests.asked b₁ later d) d, ?_,
    drops, not_knows_dropped fun kind _ => ?_⟩
  · rw [delete, if_pos enabled, run_bind, contains, r.manifests.run_contains_told ledger,
      isSome_told?_of_knows shown known]
    simp only [if_true]
    rw [← bind_assoc, run_bind, untagged, ← same]
    exact unlinked
  · intro held
    exact ((drops.has (r := .link kind r.name d) trivial).1 held).2 ⟨rfl, rfl⟩

lemma asked_of_not_knows {links : LinkStore} (unknown : ¬links.Knows b cache d) :
    links.told? b cache d = none ∧ links.asked b cache d = cache := by
  constructor
  · by_contra told
    exact unknown ((LinkStore.isSome_told?_iff links).1 (Option.isSome_iff_ne_none.2 told)).2
  · rcases links.asked_cases b cache d with same | ⟨descriptor, found, -⟩
    · exact same
    · exact absurd (.inr (found ▸ Option.some_ne_none _)) unknown

lemma run_delete_unknown (enabled : r.settings.deleteEnabled = true) (s : Site)
    (ledger : b.IsLedger) (unknown : ¬r.manifests.Knows b cache d) :
    (s.world b cache).run (delete r d) = (.error (Manifests.unknown r d), s.world b cache) := by
  obtain ⟨told, asked⟩ := asked_of_not_knows unknown
  rw [delete, if_pos enabled, run_bind, contains, r.manifests.run_contains_told ledger, told, asked]
  rfl

lemma ok_get_iff (s : Site) (ledger : b.IsLedger) (cache : DescriptorCache) (n : RepositoryName)
    {t : String} (accepted : TagName.accepts t = true) :
    ((s.world b cache).run (Tags.get n t)).1 = .ok d ↔
      (s.world b cache).record? (.tagTarget n t) = some (Octets.ofText d.text) := by
  rw [s.run_getTag cache ledger n accepted, Site.record?_world,
    ← ledger.target?_eq_some_iff accepted]
  cases b.target? n t <;> simp

lemma goesWith_tagTarget_iff (s : Site) (ledger : b.IsLedger) (cache : DescriptorCache)
    {n m : RepositoryName} {t : String} (accepted : TagName.accepts t = true) :
    (s.world b cache).GoesWith n d (.tagTarget m t) ↔
      m = n ∧ ((s.world b cache).run (Tags.get m t)).1 = .ok d := by
  refine and_congr_right ?_
  rintro rfl
  exact (ok_get_iff s ledger cache m accepted).symm

lemma run_lookup_of_drops (s : Site) (ledger : b.IsLedger) (cache cache' : DescriptorCache)
    {n : RepositoryName} (drops : b.Drops b' ((s.world b cache).GoesWith n d)) :
    (s.world b' cache').run (Tags.lookup n d) = (.ok [], s.world b' cache') := by
  rw [s.run_lookupTags cache' drops.1, List.filter_eq_nil_iff.2]
  intro t mem
  obtain ⟨accepted, left⟩ := drops.1.mem_tags.1 mem
  obtain ⟨-, spared⟩ := (drops.has (r := .tagTarget n t) accepted).1 left
  rw [decide_eq_true_eq, drops.target?_eq accepted spared, ledger.target?_eq_some_iff accepted]
  intro standing
  exact spared ⟨rfl, (Site.record?_world s b cache _).trans standing⟩

lemma run_tag_of_drops (s : Site) (ledger : b.IsLedger) (cache cache' : DescriptorCache)
    {m n : RepositoryName} (drops : b.Drops b' ((s.world b cache).GoesWith m d)) {t : String}
    (accepted : TagName.accepts t = true)
    (spared : ¬(s.world b cache).GoesWith m d (.tagTarget n t)) :
    (s.world b' cache').run (Tags.get n t) =
        (((s.world b cache).run (Tags.get n t)).1, s.world b' cache') ∧
      (s.world b' cache').run (Tags.history n t) =
        (((s.world b cache).run (Tags.history n t)).1, s.world b' cache') := by
  have remembered : b'.remembered n t = b.remembered n t :=
    drops.1.remembered_congr ledger accepted fun e =>
      (drops.has (r := .tagEntry n t e) accepted).trans (and_iff_left spared)
  rw [s.run_getTag cache' drops.1 n accepted, s.run_getTag cache ledger n accepted,
    drops.target?_eq accepted spared, s.run_remembered cache', s.run_remembered cache, remembered]
  exact ⟨rfl, rfl⟩

/-- Where all that goes with a manifest was dropped and it is not known any more, it was taken
out. -/
lemma isTakenOut_of_drops (s : Site) (ledger : b.IsLedger) (faithful : cache'.IsFaithful)
    (drops : b.Drops b' ((s.world b cache).GoesWith r.name d))
    (unknown : ¬r.manifests.Knows b' cache' d) :
    IsTakenOut r d (s.world b cache) (s.world b' cache') := by
  have ledger' : b'.IsLedger := drops.1
  obtain ⟨told, asked⟩ := asked_of_not_knows unknown
  refine ⟨?_, ?_, run_lookup_of_drops s ledger cache cache' drops, ?_, ?_, ?_⟩
  · rw [contains, r.manifests.run_contains_told ledger', told, asked]
    rfl
  · rw [run_get_given ledger' faithful, Bucket.given, told, asked]
    rfl
  · intro t accepted stood
    have goes := (goesWith_tagTarget_iff s ledger cache accepted).2 ⟨rfl, stood⟩
    rw [s.run_getTag cache' ledger' r.name accepted, Bucket.target?,
      (drops.2 (.tagTarget r.name t) accepted).1 goes]
    rfl
  · intro n t accepted other
    rw [← goesWith_tagTarget_iff s ledger cache accepted] at other
    exact run_tag_of_drops s ledger cache cache' drops accepted other
  · intro q lawful
    rw [Site.record?_world, Site.record?_world]
    exact drops.2 q lawful

lemma knows_manifests_iff
    (anchored : ∀ kind, b.Has (.link kind r.name d) → b.Has (.blob r.blobStore d)) :
    r.manifests.Knows b cache d ↔
      (r.settings.cached = true ∧ ∃ descriptor, cache.lookUp (some r.name) d = .ok descriptor) ∨
        r.manifests.isLinked b d = true := by
  refine or_congr_right ?_
  rw [Bucket.descriptor?_ne_none_iff, isLinked_manifests_iff]
  constructor
  · rintro ⟨⟨kind, -, has⟩, -⟩
    exact ⟨kind, has⟩
  · rintro ⟨kind, has⟩
    exact ⟨⟨kind, r.mem_kinds_manifests kind, has⟩, anchored kind has⟩

/-- To delete a manifest takes it out of its repository, if deleting is enabled and it is linked
there in any way. If deleting is not enabled, it fails and nothing changes. If the manifest is not
linked it is unknown, and nothing changes exactly if the cache keeps nothing for it; otherwise it is
taken out all the same. -/
theorem delete_exact {settings : Settings} {w : World} (evolved : Evolved settings w)
    (shown : settings.hides = none) (n : RepositoryName) (d : Digest) :
    ∃ x w', w.run (delete ⟨settings, n⟩ d) = (x, w') ∧
      (settings.deleteEnabled = false → x = .error (.unsupported "delete") ∧ w' = w) ∧
      (settings.deleteEnabled = true → (∃ kind, (w.record? (.link kind n d)).isSome = true) →
        x = .ok () ∧ IsTakenOut ⟨settings, n⟩ d w w') ∧
      (settings.deleteEnabled = true → (∀ kind, w.record? (.link kind n d) = none) →
        x = .error (unknown ⟨settings, n⟩ d) ∧
        (w' = w ↔ ¬(settings.cached = true ∧
          ∃ descriptor, w.cache.lookUp (some n) d = .ok descriptor)) ∧
        (w' ≠ w → IsTakenOut ⟨settings, n⟩ d w w')) := by
  obtain ⟨s, ⟨b, cache⟩, rfl, intact⟩ := evolved.isIntact
  have ledger : b.IsLedger := intact.sound.isLedger
  let r : Repository := ⟨settings, n⟩
  have linked_iff : (∃ kind, ((s.world b cache).record? (.link kind n d)).isSome = true) ↔
      r.manifests.isLinked b d = true := by
    simp only [isLinked_manifests_iff, Site.record?_world, Bucket.Has, r]
  have unlinked_iff : (∀ kind, (s.world b cache).record? (.link kind n d) = none) ↔
      ¬r.manifests.isLinked b d = true := by
    simp only [← linked_iff, not_exists, Option.not_isSome_iff_eq_none]
  have known_iff : r.manifests.Knows b cache d ↔ _ :=
    knows_manifests_iff fun kind => intact.ready.anchored kind n d
  rw [linked_iff, unlinked_iff]
  by_cases enabled : settings.deleteEnabled = true
  · have notDisabled : settings.deleteEnabled ≠ false := by simp [enabled]
    by_cases known : r.manifests.Knows b cache d
    · obtain ⟨b', cache', ran, drops, unknown'⟩ :=
        run_delete_known (r := r) enabled shown s ledger evolved.isTable known
      obtain ⟨x, h', ran', changes, -⟩ :=
        makes_delete (P := fun _ => True) (r := r) rfl d s ⟨b, cache⟩ intact.sound
      obtain ⟨rfl, rfl⟩ := Site.eq_of_world_eq (congrArg Prod.snd (ran.symm.trans ran'))
      have out := isTakenOut_of_drops s ledger (changes.isSound intact.sound).isFaithful drops
        unknown'
      have changed : s.world h'.bucket h'.cache ≠ s.world b cache := by
        intro same
        obtain ⟨sameBucket, sameCache⟩ := Site.eq_of_world_eq same
        rw [sameBucket, sameCache] at unknown'
        exact unknown' known
      -- without links it is the cache from which it is known
      exact ⟨_, _, ran, fun disabled => absurd disabled notDisabled,
        fun _ linked => ⟨if_pos linked, out⟩, fun _ unlinked => ⟨if_neg unlinked,
          iff_of_false changed (not_not.2 ((known_iff.1 known).resolve_right unlinked)),
          fun _ => out⟩⟩
    · exact ⟨_, _, run_delete_unknown (r := r) enabled s ledger known,
        fun disabled => absurd disabled notDisabled,
        fun _ linked => absurd (known_iff.2 (.inr linked)) known,
        fun _ _ => ⟨rfl, iff_of_true rfl fun kept => known (known_iff.2 (.inl kept)),
          fun other => absurd rfl other⟩⟩
  · refine ⟨_, _, ?_, fun _ => ⟨rfl, rfl⟩, fun on => absurd on enabled, fun on => absurd on enabled⟩
    rw [delete, if_neg enabled]
    rfl

lemma exists_collect_cached (s : Site) {cache : DescriptorCache} (faithful : cache.IsFaithful) :
    ∃ report b', (s.world exampleBucket cache).run (collect {} cachingRepository.settings
        (some cachingRepository.name)) = (.ok report, s.world b' cache) ∧
      b'.IsLedger ∧
      ∀ kind, ¬b'.Has (.link kind cachingRepository.name (.ofContent emptyIndex)) := by
  -- nothing is a root, so that nothing is loaded and nothing is asked of the cache
  obtain ⟨names, found, _, b', ran, rfl, unmarked, settled, drops⟩ := run_collect_rootless (s := s)
    cachingRepository.settings isLedger_exampleBucket not_isRoot_exampleBucket
    (some cachingRepository.name) fun _ => faithful.opens
  refine ⟨_, b', ran, drops.1, fun kind held => ?_⟩
  obtain ⟨linked, spared⟩ := (drops.has (r := .link kind _ _) trivial).1 held
  have stored : exampleBucket.Has (.blob
      (cachingRepository.settings.blobStore cachingRepository.name) (.ofContent emptyIndex)) := by
    rw [Bucket.Has, at?_exampleBucket (r := .blob _ _) trivial, if_neg (by simp),
      if_pos (by rfl)]
    rfl
  exact spared (condemned_of_unmarked _ settled rfl List.mem_cons_self (unmarked _ _) linked stored)

/-- Garbage is collected, and the links to a list that has no tag are removed. The cache still tells
of it. So it is found, its deletion fails, and then it is not found any more. -/
theorem collectedIndex_deleted : ∃ w w',
    Evolved cachingRepository.settings w ∧
    (∀ kind, w.record? (.link kind cachingRepository.name (.ofContent emptyIndex)) = none) ∧
    w.run (contains cachingRepository (.ofContent emptyIndex)) = (.ok true, w) ∧
    w.run (delete cachingRepository (.ofContent emptyIndex)) =
      (.error (unknown cachingRepository (.ofContent emptyIndex)), w') ∧
    w' ≠ w ∧ w'.run (contains cachingRepository (.ofContent emptyIndex)) = (.ok false, w') := by
  let s : Site := ⟨"registry", ∅, none⟩
  let d : Digest := .ofContent emptyIndex
  obtain ⟨descriptor, named, reached⟩ := reached_cachedBucket (fun _ _ => True) fun _ => trivial
  have evolved := reached.evolved
  let cache := cachingRepository.manifests.noted .empty d descriptor
  have faithful : cache.IsFaithful :=
    LinkStore.isFaithful_noted DescriptorCache.isFaithful_empty named
  obtain ⟨report, b, ran, ledger, unlinked⟩ := exists_collect_cached s faithful
  have collected : Evolved cachingRepository.settings (s.world b cache) := by
    have performed := Evolved.perform (.collect {} (some cachingRepository.name)) evolved
    rw [Operation.perform, ran] at performed
    exact performed
  have missing (kind : LinkKind) :
      (s.world b cache).record? (.link kind cachingRepository.name d) = none := by
    rw [Site.record?_world]
    exact Option.not_isSome_iff_eq_none.1 (unlinked kind)
  have kept := lookUp_cachedBucket d descriptor
  have known : cachingRepository.manifests.Knows b cache d := .inl ⟨rfl, descriptor, kept⟩
  have asked := LinkStore.asked_of_lookUp cachingRepository.manifests kept b
  obtain ⟨x, w', deleted, -, -, after⟩ := delete_exact collected rfl cachingRepository.name d
  obtain ⟨rfl, same, out⟩ := after rfl missing
  have changed : w' ≠ s.world b cache := fun unchanged =>
    same.1 unchanged ⟨rfl, descriptor, kept⟩
  refine ⟨s.world b cache, w', collected, missing, ?_, deleted, changed, (out changed).absent⟩
  rw [contains, LinkStore.run_contains_told _ ledger, isSome_told?_of_knows rfl known, asked]

end Manifests
end ImageRegistry
