import ImageRegistry.Proofs.Collection.Repeating

/-! What garbage collection leaves. Whatever is marked is live: it is a root, or some live manifest
that could be read refers to it. So what a run leaves of content and of links is live, and what it
removes as a manifest no tag remembers. -/

namespace ImageRegistry

open World

/-- Whether a digest is in use in a repository, as a manifest or as a blob. -/
def World.Live (w : World) (options : CollectionOptions) (r : Repository) (d : Digest) : Prop :=
  w.LiveManifest options r d ∨ w.LiveBlob options r d

section

variable {s : Site} {b : Bucket} {cache cache' cache'' : DescriptorCache} {settings : Settings}

/-- Of the manifests of all repositories no more is known by a later cache. -/
def DescriptorCache.Recalls (settings : Settings) (b : Bucket) (cache cache' : DescriptorCache) :
    Prop :=
  ∀ n d, (Repository.manifests ⟨settings, n⟩).Knows b cache' d →
    (Repository.manifests ⟨settings, n⟩).Knows b cache d

lemma DescriptorCache.Recalls.trans (first : Recalls settings b cache cache')
    (second : Recalls settings b cache' cache'') : Recalls settings b cache cache'' :=
  fun n d known => first n d (second n d known)

lemma DescriptorCache.recalls_asked (n : RepositoryName) (d : Digest) :
    Recalls settings b cache ((Repository.manifests ⟨settings, n⟩).asked b cache d) := by
  refine fun m e known => known.of_asked fun same => ?_
  obtain rfl : n = m := same
  rfl

theorem Manifests.run_get_iff (ledger : b.IsLedger) (faithful : cache.IsFaithful)
    (settings : Settings) (n : RepositoryName) (d : Digest) :
    ∃ x cache', (s.world b cache).run (get ⟨settings, n⟩ d) = (x, s.world b cache') ∧
      cache'.IsFaithful ∧ DescriptorCache.Recalls settings b cache cache' ∧
      ∀ m, x = .ok m ↔ settings.isHidden d = false ∧
        (Repository.manifests ⟨settings, n⟩).Knows b cache d ∧
        ∃ content, b.at? (.blob (settings.blobStore n) d) = some content ∧
          Manifest.ofPayload none content = .ok m := by
  have told : settings.isHidden d = false ∧ (Repository.manifests ⟨settings, n⟩).Knows b cache d ↔
      ((Repository.manifests ⟨settings, n⟩).told? b cache d).isSome = true :=
    (LinkStore.isSome_told?_iff (Repository.manifests ⟨settings, n⟩)).symm
  refine ⟨_, _, run_get_told ledger fun _ => LinkStore.digest_of_told? _ faithful,
    LinkStore.isFaithful_asked _ faithful d, DescriptorCache.recalls_asked n d, fun m => ?_⟩
  rw [← and_assoc, told]
  cases (Repository.manifests ⟨settings, n⟩).told? b cache d with
  | none => simp
  | some descriptor =>
    change (Option.elim (b.at? (.blob (settings.blobStore n) d)) _ _) = _ ↔ _
    cases b.at? (.blob (settings.blobStore n) d) with
    | none => simp
    | some content =>
      cases read : Manifest.ofPayload none content <;> simp [read, Except.mapError]

lemma Marking.loading_of_live (ledger : b.IsLedger) (faithful : cache.IsFaithful)
    (options : CollectionOptions) (n : RepositoryName) :
    Loading s b ⟨settings, n⟩
      (fun later => later.IsFaithful ∧ DescriptorCache.Recalls settings b cache later)
      (fun p => (s.world b cache).LiveManifest options ⟨settings, n⟩ p.digest)
      ((s.world b cache).LiveBlob options ⟨settings, n⟩) fun _ _ => False where
  run_load := by
    rintro later ⟨faithful', recalls⟩ p live
    obtain ⟨x, last, ran, faithful'', recalls', reads⟩ :=
      Manifests.run_get_iff (s := s) ledger faithful' settings n p.digest
    refine ⟨_, last, run_load ran, ⟨faithful'', recalls.trans recalls'⟩, fun m same => ?_,
      fun _ _ => id⟩
    -- what is read now could be read at first
    obtain ⟨shown, known, content⟩ := (reads m).1 (loaded_eq_some same)
    obtain ⟨y, _, ran', -, -, reads'⟩ :=
      Manifests.run_get_iff (s := s) ledger faithful settings n p.digest
    have found : ((s.world b cache).run (Manifests.get ⟨settings, n⟩ p.digest)).1 = .ok m := by
      rw [ran']
      exact (reads' m).2 ⟨shown, recalls n p.digest known, content⟩
    exact ⟨fun d child => .child live found child, fun d part => ⟨p.digest, m, live, found, part⟩,
      fun _ => False.elim⟩

namespace Collector

variable {options : CollectionOptions} {scope : Option RepositoryName} {report : CollectionReport}
  {w' : World}

lemma settles_of_collect {h : Holdings} (sound : h.IsSound)
    (ran : (s.world h.bucket h.cache).run (collect options settings scope) = (.ok report, w')) :
    ∃ b' cache' names found, w' = s.world b' cache' ∧ AreSwept scope h.bucket names ∧
      Marking.Settles settings options h.bucket
        (fun n p => (s.world h.bucket h.cache).LiveManifest options ⟨settings, n⟩ p.digest)
        (fun n => (s.world h.bucket h.cache).LiveBlob options ⟨settings, n⟩) (fun _ _ _ => False)
        names found ∧
      h.bucket.Drops b' (Condemned settings options scope names found h.bucket) := by
  obtain ⟨b, cache⟩ := h
  obtain ⟨ledger, faithful⟩ := sound
  have target (n : RepositoryName) {t : String} (accepted : TagName.accepts t = true) :=
    congrArg Prod.fst (s.run_find? cache ledger n accepted)
  obtain ⟨x, b', cache', ran', -, -, -, good, -⟩ := run_collect (s := s) options ledger
    (Marking.loading_of_live ledger faithful options)
    (fun n d linked root => root.elim
      (fun kept => .kept kept (by rwa [Site.record?_world]))
      fun ⟨t, accepted, stands⟩ => .tagged accepted ((target n accepted).trans (by rw [stands])))
    (fun n d ⟨t, accepted, stands⟩ => .tagged accepted ((target n accepted).trans (by rw [stands])))
    scope ⟨faithful, fun _ _ => id⟩
  rw [ran] at ran'
  obtain ⟨rfl, rfl⟩ := Prod.mk.inj ran'
  obtain ⟨names, found, swept, settled, drops⟩ := good report rfl
  exact ⟨b', cache', names, found, rfl, swept, settled, drops⟩

section

variable {names : List RepositoryName} {found : Marking} {b' : Bucket} {n : RepositoryName}
  {d : Digest} {L : RepositoryName → Marking.Pending → Prop} {B : RepositoryName → Digest → Prop}
  {K : RepositoryName → Digest → Manifest → Prop}

lemma marked_of_link (settled : Marking.Settles settings options b L B K names found)
    (ready : b.IsReady settings fun _ => True)
    (drops : b.Drops b' (Condemned settings options scope names found b))
    (active : options.dryRun = false) (hn : n ∈ names) {kind : LinkKind}
    (left : b'.Has (.link kind n d)) : found.marks.containsIn n d = true := by
  obtain ⟨has, spared⟩ := (drops.has (r := .link kind n d) trivial).1 left
  by_contra unmarked
  exact spared (condemned_of_unmarked scope settled active hn (Bool.eq_false_iff.2 unmarked) has
    (ready.anchored kind n d has))

lemma marked_of_own_blob (drops : b.Drops b' (Condemned settings options scope names found b))
    (active : options.dryRun = false) (separate : settings.separateBlobs = true) (hn : n ∈ names)
    (left : b'.Has (.blob (.ofRepository n) d)) : found.marks.containsIn n d = true := by
  obtain ⟨has, spared⟩ := (drops.has (r := .blob (.ofRepository n) d) trivial).1 left
  by_contra unmarked
  exact spared ⟨active, .inr (.inl ⟨n, hn, d, Bool.eq_false_iff.2 unmarked,
    .inr ⟨separate, rfl⟩, fun _ => has⟩)⟩

lemma marked_of_shared_blob (drops : b.Drops b' (Condemned settings options none names found b))
    (active : options.dryRun = false) (shared : settings.separateBlobs = false)
    (left : b'.Has (.blob .shared d)) : ∃ n, found.marks.containsIn n d = true := by
  obtain ⟨-, spared⟩ := (drops.has (r := .blob .shared d) trivial).1 left
  have marked : found.marks.contains d = true := by
    by_contra unmarked
    exact spared ⟨active, .inr (.inr ⟨rfl, shared, d, Bool.eq_false_iff.2 unmarked, rfl⟩)⟩
  obtain ⟨⟨n, e⟩, mem, same⟩ := List.any_eq_true.1 marked
  obtain rfl : e = d := beq_iff_eq.1 same
  exact ⟨n, List.contains_iff_mem.2 mem⟩

lemma has_revision_of_entry (settled : Marking.Settles settings options b L B K names found)
    (stand : b.TagsStand) (drops : b.Drops b' (Condemned settings options scope names found b))
    {t : String} (accepted : TagName.accepts t = true) (left : b'.Has (.tagEntry n t d))
    (has : b.Has (.link .revision n d)) : b'.Has (.link .revision n d) := by
  obtain ⟨remembered, spared⟩ := (drops.has (r := .tagEntry n t d) accepted).1 left
  refine (drops.has (r := .link .revision n d) trivial).2 ⟨has, ?_⟩
  rintro ⟨active, ⟨deletion, mem, ⟨_, same⟩ | ⟨_, _, same⟩⟩ | ⟨_, _, _, _, same | ⟨_, same⟩, _⟩ |
    ⟨_, _, _, _, same⟩⟩ <;> cases same
  -- all tags that stand for something forget a manifest that is removed
  have isTag : t ∈ deletion.tags :=
    ((settled.unmarked deletion mem).2.2 t).2 ⟨accepted, stand _ t _ accepted remembered⟩
  exact spared ⟨active, .inl ⟨deletion, mem, .inr ⟨t, isTag, rfl⟩⟩⟩

end

lemma live_of_left {w : World} (attained : Attained settings w) (active : options.dryRun = false)
    (ran : w.run (collect options settings scope) = (.ok report, w')) :
    (scope = none → settings.separateBlobs = false → ∀ d,
      (w'.record? (.blob .shared d)).isSome = true → ∃ n, w.Live options ⟨settings, n⟩ d) ∧
    ∀ n, scope = none ∨ scope = some n →
      (settings.separateBlobs = true → ∀ d,
        (w'.record? (.blob (.ofRepository n) d)).isSome = true →
          w.Live options ⟨settings, n⟩ d) ∧
      ∀ kind d, (w'.record? (.link kind n d)).isSome = true → w.Live options ⟨settings, n⟩ d := by
  obtain ⟨s, h, rfl, orderly⟩ := attained.isOrderly
  obtain ⟨b', cache', names, found, rfl, swept, settled, drops⟩ :=
    settles_of_collect orderly.sound ran
  have live (n : RepositoryName) (d : Digest) (marked : found.marks.containsIn n d = true) :
      (s.world h.bucket h.cache).Live options ⟨settings, n⟩ d :=
    (settled.live n d marked).imp_left fun ⟨_, isLive⟩ => isLive
  have mem_of_owner {r : Record} {n : RepositoryName} (inScope : scope = none ∨ scope = some n)
      (lawful : r.IsLawful) (owner : r.owner? = some n) (left : b'.Has r) : n ∈ names := by
    rcases inScope with rfl | rfl
    · exact (swept n).2 ⟨r, lawful, ((drops.has lawful).1 left).1, owner⟩
    · rw [AreSwept] at swept
      simp [swept]
  simp only [Site.record?_world]
  refine ⟨?_, fun n inScope => ⟨fun separate d left => ?_, fun kind d left => ?_⟩⟩
  · rintro rfl shared d left
    obtain ⟨n, marked⟩ := marked_of_shared_blob drops active shared left
    exact ⟨n, live n d marked⟩
  · exact live n d (marked_of_own_blob drops active separate
      (mem_of_owner (r := .blob (.ofRepository n) d) inScope trivial rfl left) left)
  · exact live n d (marked_of_link settled orderly.ready drops active
      (mem_of_owner (r := .link kind n d) inScope trivial rfl left) left)

lemma linked_of_remembered {w : World} (attained : Attained settings w)
    (ran : w.run (collect options settings scope) = (.ok report, w')) (n : RepositoryName)
    {t : String} (accepted : TagName.accepts t = true) :
    ∃ ds, (w'.run (Tags.history n t)).1 = .ok ds ∧
      ∀ d ∈ ds, (w.record? (.link .revision n d)).isSome = true →
        (w'.record? (.link .revision n d)).isSome = true := by
  obtain ⟨s, h, rfl, orderly⟩ := attained.isOrderly
  obtain ⟨b', cache', names, found, rfl, -, settled, drops⟩ := settles_of_collect orderly.sound ran
  obtain ⟨ds, history, mem⟩ := s.run_history cache' drops.1 n accepted
  simp only [Site.record?_world]
  exact ⟨ds, congrArg Prod.fst history, fun d hd has =>
    has_revision_of_entry settled orderly.stand drops accepted ((mem d).1 hd) has⟩

/-- After a run that succeeds, and is not dry, everything that is left is live: what is stored in a
shared store is live in some repository, what is stored in the store of a repository or linked there
is live in that repository. No tag remembers a manifest that the run removed as such from its
repository. -/
theorem collect_complete {w : World} (attained : Attained settings w)
    (active : options.dryRun = false)
    (ran : w.run (collect options settings scope) = (.ok report, w')) :
    (scope = none → settings.separateBlobs = false → ∀ d,
      (w'.record? (.blob .shared d)).isSome = true → ∃ n, w'.Live options ⟨settings, n⟩ d) ∧
    (∀ n, scope = none ∨ scope = some n →
      (settings.separateBlobs = true → ∀ d,
        (w'.record? (.blob (.ofRepository n) d)).isSome = true →
          w'.Live options ⟨settings, n⟩ d) ∧
      ∀ kind d, (w'.record? (.link kind n d)).isSome = true → w'.Live options ⟨settings, n⟩ d) ∧
    ∀ n t, TagName.accepts t = true → ∃ ds, (w'.run (Tags.history n t)).1 = .ok ds ∧
      ∀ d ∈ ds, (w.record? (.link .revision n d)).isSome = true →
        (w'.record? (.link .revision n d)).isSome = true := by
  have remembered (n : RepositoryName) (t : String) (accepted : TagName.accepts t = true) :=
    linked_of_remembered attained ran n accepted
  have attained' : Attained settings w' := by
    have performed := attained.perform (.collect options scope)
    rwa [Operation.perform, ran] at performed
  obtain ⟨s, h, rfl, orderly⟩ := attained.isOrderly
  obtain ⟨b, cache, cache', rfl, again⟩ := run_collect_again orderly.sound active ran
  -- the same run would leave what this one left
  obtain ⟨shared, owned⟩ := live_of_left attained' active again
  simp only [Site.record?_world] at shared owned remembered ⊢
  exact ⟨shared, owned, remembered⟩

end Collector
end

namespace Collector

/-- The image and its parts are left, and in use; the list of no manifests is gone. -/
theorem imageBucket_left : ∃ w report w', Attained exampleRepository.settings w ∧
    w.run (collect {} exampleRepository.settings none) = (.ok report, w') ∧
    (∀ d ∈ imageDigests,
      (∃ kind, (w'.record? (.link kind exampleRepository.name d)).isSome = true) ∧
        w'.Live {} exampleRepository d) ∧
    w.Holds exampleRepository (.ofContent emptyIndex) ∧
    ∀ kind, w'.record? (.link kind exampleRepository.name (.ofContent emptyIndex)) = none := by
  have uses := usesImage_imageBucket
  have attained := reached_imageBucket.attained
  obtain ⟨report, w', ran, lost⟩ := exists_collect_imageBucket
  refine ⟨_, report, w', attained, ran, fun d mem => ?_, lost⟩
  obtain ⟨⟨kind, linked⟩, stored⟩ := holds_imageBucket (d := d) mem
  have retains := retains_live_of_apart rfl rfl reached_imageBucket ran
    (fun n _ d live => uses.not_liveBlob live) (.inl rfl) (uses.live_iff.2 ⟨rfl, mem⟩)
    ⟨⟨kind, linked⟩, stored⟩
  have left : (w'.record? (.link kind exampleRepository.name d)).isSome = true := by
    rw [retains.2 kind]
    exact linked
  exact ⟨⟨kind, left⟩,
    ((collect_complete attained rfl ran).2.1 exampleRepository.name (.inl rfl)).2 kind d left⟩

/-- A manifest can be read until a run removes it from its repository, and a tag remembers it. -/
def LosesRemembered (w : World) (r : Repository) (d : Digest) (n : RepositoryName)
    (t : String) : Prop :=
  (w.run (Manifests.get r d)).1.isOk = true ∧
    ∃ report w' ds, w.run (collect {} r.settings none) = (.ok report, w') ∧
      (w'.run (Manifests.get r d)).1 = .error (Manifests.unknown r d) ∧
      (w'.run (Tags.history n t)).1 = .ok ds ∧ d ∈ ds

section

variable {s : Site} {b : Bucket} {settings : Settings} {n m : RepositoryName} {t : String}
  {d : Digest} {x : Manifest}

/-- What is not in use is removed, though a tag remembers it, if the tag is one of a repository from
which no manifest is removed under that digest. -/
lemma remembers_of_lost (flat : IsFlat settings b) (ledger : b.IsLedger)
    (uncached : settings.cached = false) (unhidden : settings.hides = none)
    (read : b.manifest ⟨settings, n⟩ d = .ok x) (untagged : ¬b.IsTagged n d)
    (noPart : ¬IsTaggedPart settings b n d) (accepted : TagName.accepts t = true)
    (remembered : b.Has (.tagEntry m t d))
    (spared : b.IsTagged m d ∨ ¬b.Has (.link .revision m d)) :
    LosesRemembered (s.world b .empty) ⟨settings, n⟩ d m t := by
  refine ⟨by rw [Manifests.run_get_plain ledger uncached unhidden, read]; rfl, ?_⟩
  obtain ⟨report, w', ran⟩ := flat.exists_collect (s := s) ledger uncached unhidden
    DescriptorCache.isFaithful_empty none
  have sound : Holdings.IsSound ⟨b, .empty⟩ := ⟨ledger, DescriptorCache.isFaithful_empty⟩
  obtain ⟨b', cache', names, found, rfl, swept, settled, drops⟩ :=
    settles_of_collect_plain uncached unhidden sound ran
  obtain ⟨⟨kind, linked⟩, stored⟩ := Bucket.holds_of_manifest read
  have hn : n ∈ names := (swept n).2 ⟨.link kind n d, trivial, linked, rfl⟩
  have unmarked : found.marks.containsIn n d = false := by
    refine Bool.eq_false_iff.2 fun marked => ?_
    rcases settled.live n d marked with ⟨_, live⟩ | live
    · exact untagged ((flat.liveManifest_iff ledger uncached unhidden).1 live)
    · exact noPart ((flat.liveBlob_iff ledger uncached unhidden).1 live)
  have gone (kind : LinkKind) : ¬b'.Has (.link kind n d) := by
    intro left
    obtain ⟨has, kept⟩ := (drops.has (r := .link _ _ _) trivial).1 left
    exact kept (condemned_of_unmarked none settled rfl hn unmarked has stored)
  have left : b'.Has (.tagEntry m t d) := by
    refine (drops.has (r := .tagEntry _ _ _) accepted).2 ⟨remembered, ?_⟩
    rintro ⟨-, ⟨deletion, mem, ⟨_, same⟩ | ⟨_, _, same⟩⟩ | ⟨_, _, _, _, same | ⟨_, same⟩, _⟩ |
      ⟨_, _, _, _, same⟩⟩ <;> cases same
    obtain ⟨hm, unmarked, -⟩ := settled.unmarked deletion mem
    rcases spared with isTagged | unlinked
    · rw [settled.tagged _ hm _ isTagged] at unmarked
      cases unmarked
    · exact unlinked (settled.listed deletion mem)
  obtain ⟨ds, history, mem⟩ := s.run_history cache' drops.1 m accepted
  refine ⟨report, _, ds, ran, ?_, congrArg Prod.fst history, (mem d).2 left⟩
  rw [Manifests.run_get_plain drops.1 uncached unhidden, Bucket.manifest, Bucket.descriptor?,
    if_neg]
  · rfl
  · rintro ⟨kind, -, left⟩
    exact gone kind left

end

lemma digest_emptyIndex_ne : Digest.ofContent emptyIndex ≠ Digest.ofContent [] := by decide +kernel

/-- The bucket in which a list of no manifests was stored as a blob, and a tag stood for it until it
was made to stand for something else. -/
def movedBucket : Bucket :=
  ((exampleRepository.blobs.pushed ∅ emptyIndex).assigned exampleRepository.name "latest"
    (.ofContent emptyIndex)).assigned exampleRepository.name "latest" (.ofContent [])

lemma attained_movedBucket : Attained exampleRepository.settings
    ((⟨"registry", ∅, none⟩ : Site).world movedBucket .empty) := by
  have performed : (Operation.assignTag exampleRepository.name "latest" (.ofContent [])).perform
      exampleRepository.settings ((Operation.assignTag exampleRepository.name "latest"
        (.ofContent emptyIndex)).perform exampleRepository.settings
        ((Operation.putBlob exampleRepository.name "" emptyIndex).perform
          exampleRepository.settings (.fresh "registry" none))) =
      (⟨"registry", ∅, none⟩ : Site).world movedBucket .empty := by
    simp only [World.fresh_eq, Operation.perform,
      Operation.within_of_opens exampleRepository_uncached, LinkStore.run_put,
      Tags.run_assign accepts_latest]
    rfl
  rw [← performed]
  exact .perform _ (.perform _ (.perform _ (.start "registry" none)))

lemma isLedger_movedBucket : movedBucket.IsLedger :=
  ((LinkStore.isLedger_pushed Bucket.isLedger_empty _ _).assigned _ accepts_latest _).assigned _
    accepts_latest _

lemma isLayer_of_movedBucket {kind : LinkKind} {n : RepositoryName} {d : Digest}
    (linked : movedBucket.Has (.link kind n d)) : kind = .layer ∧ d = .ofContent emptyIndex := by
  rw [movedBucket, Bucket.has_assigned_iff accepts_latest (r := .link _ _ _) trivial,
    Bucket.has_assigned_iff accepts_latest (r := .link _ _ _) trivial,
    Bucket.has_pushed_iff (r := .link _ _ _) trivial] at linked
  obtain ⟨rfl, -, rfl⟩ : kind = exampleRepository.blobs.current ∧
      n = exampleRepository.blobs.repository ∧ d = .ofContent emptyIndex := by
    simpa [Bucket.Has] using linked
  exact ⟨rfl, rfl⟩

lemma isTagged_movedBucket_iff {n : RepositoryName} {d : Digest} :
    movedBucket.IsTagged n d ↔ n = exampleRepository.name ∧ d = .ofContent [] := by
  refine Bucket.isTagged_assigned_iff
    ((LinkStore.isLedger_pushed Bucket.isLedger_empty _ _).assigned _ accepts_latest _)
    accepts_latest fun n t accepted has => ?_
  have lawful : (Record.tagTarget n t).IsLawful := accepted
  rw [Bucket.has_assigned_iff accepts_latest lawful, Bucket.has_pushed_iff lawful] at has
  simpa [Bucket.Has] using has

lemma manifest_movedBucket (n : RepositoryName) :
    movedBucket.manifest ⟨exampleRepository.settings, n⟩ (.ofContent []) =
      .error (Manifests.unknown ⟨exampleRepository.settings, n⟩ (.ofContent [])) := by
  rw [Bucket.manifest, Bucket.descriptor?, if_neg]
  · rfl
  · rintro ⟨kind, -, linked⟩
    exact digest_emptyIndex_ne (isLayer_of_movedBucket linked).2.symm

lemma manifest_movedBucket_emptyIndex {m : Manifest}
    (read : Manifest.ofPayload none emptyIndex = .ok m) :
    movedBucket.manifest exampleRepository (.ofContent emptyIndex) = .ok m := by
  have linked : movedBucket.Has (.link .layer exampleRepository.name (.ofContent emptyIndex)) :=
    ((Bucket.has_pushed ∅ exampleRepository.blobs emptyIndex).1.assigned _ _ _).assigned _ _ _
  refine Bucket.manifest_of_stored linked ?_ read
  rw [movedBucket, Bucket.at?_assigned accepts_latest (r := .blob _ _) trivial, if_neg (by simp),
    Bucket.at?_assigned accepts_latest (r := .blob _ _) trivial, if_neg (by simp),
    Bucket.at?_pushed (r := .blob _ _) trivial, if_neg (by simp),
    if_pos ⟨rfl, by simp [Bucket.Has]⟩]

lemma isFlat_movedBucket : IsFlat exampleRepository.settings movedBucket := by
  intro n d isTagged
  obtain ⟨rfl, rfl⟩ := isTagged_movedBucket_iff.1 isTagged
  exact .inr ⟨manifest_movedBucket _, fun linked => nomatch (isLayer_of_movedBucket linked).1⟩

/-- The bucket in which a list of no manifests was stored without a tag, and in another repository
under a tag. -/
def listedTwice : Bucket :=
  (outerRepository.manifests.pushed exampleBucket emptyIndex).assigned outerRepository.name "latest"
    (.ofContent emptyIndex)

lemma attained_listedTwice : Attained exampleRepository.settings
    ((⟨"registry", ∅, none⟩ : Site).world listedTwice .empty) := by
  obtain ⟨i, read, childless, payload⟩ := exists_ofPayload_emptyIndex
  have performed : (Operation.putManifest outerRepository.name none emptyIndex ""
      (some "latest")).perform exampleRepository.settings
        ((⟨"registry", ∅, none⟩ : Site).world exampleBucket .empty) = _ :=
    Operation.perform_putManifest (r := outerRepository) rfl read
      (Manifests.run_prepare_index "" fun child mem => by simp [childless] at mem) accepts_latest
  have reached : Reached exampleRepository.settings (fun _ _ => True) _ :=
    reached_exampleBucket fun _ => trivial
  rw [Manifest.payload, payload] at performed
  rw [listedTwice, ← performed]
  exact .perform _ reached.attained

lemma isLedger_listedTwice : listedTwice.IsLedger :=
  (LinkStore.isLedger_pushed isLedger_exampleBucket _ _).assigned _ accepts_latest _

lemma isTagged_listedTwice_iff {n : RepositoryName} {d : Digest} :
    listedTwice.IsTagged n d ↔ n = outerRepository.name ∧ d = .ofContent emptyIndex := by
  refine Bucket.isTagged_assigned_iff (LinkStore.isLedger_pushed isLedger_exampleBucket _ _)
    accepts_latest fun n t accepted has => ?_
  rw [Bucket.has_pushed_iff (r := .tagTarget n t) accepted] at has
  exact absurd (by simpa using has) (not_has_tagTarget_exampleBucket n t accepted)

lemma has_listedTwice {r : Record} (has : exampleBucket.Has r) : listedTwice.Has r :=
  (has.pushed _ _).assigned _ _ _

lemma manifest_listedTwice {i : ImageIndex}
    (read : Manifest.ofPayload none emptyIndex = .ok (.index i)) {r : Repository}
    (mem : r = exampleRepository ∨ r = outerRepository) :
    listedTwice.manifest r (.ofContent emptyIndex) = .ok (.index i) := by
  have shared : r.blobStore = .shared := by rcases mem with rfl | rfl <;> rfl
  have linked : listedTwice.Has (.link .revision r.name (.ofContent emptyIndex)) := by
    rcases mem with rfl | rfl
    · exact has_listedTwice (Bucket.has_pushed ∅ exampleRepository.manifests emptyIndex).1
    · exact (Bucket.has_pushed exampleBucket outerRepository.manifests emptyIndex).1.assigned _ _ _
  have stored : exampleBucket.at? (.blob .shared (.ofContent emptyIndex)) = some emptyIndex := by
    simp [at?_exampleBucket (r := .blob _ _) trivial]
  refine Bucket.manifest_of_stored linked ?_ read
  rw [shared, listedTwice, Bucket.at?_assigned accepts_latest (r := .blob _ _) trivial,
    if_neg (by simp), Bucket.at?_pushed (r := .blob _ _) trivial, if_neg (by simp),
    if_neg fun missing => missing.2 (Bucket.has_iff.2 ⟨_, stored⟩), stored]

lemma isFlat_listedTwice : IsFlat exampleRepository.settings listedTwice := by
  obtain ⟨i, read, childless, -⟩ := exists_ofPayload_emptyIndex
  intro n d isTagged
  obtain ⟨named, rfl⟩ := isTagged_listedTwice_iff.1 isTagged
  subst named
  exact .inl ⟨.index i, manifest_listedTwice read (.inr rfl), by simp [Marking.children, childless]⟩

/-- What a run removes may be remembered: by a tag of the repository, if it is a manifest that is
linked as a layer only and goes as a blob; by a tag of another repository, if it goes as a
manifest. -/
theorem removed_remembered :
    let w := (⟨"registry", ∅, none⟩ : Site).world movedBucket .empty
    let w' := (⟨"registry", ∅, none⟩ : Site).world listedTwice .empty
    let listed := Digest.ofContent emptyIndex
    (Attained exampleRepository.settings w ∧
      LosesRemembered w exampleRepository listed exampleRepository.name "latest") ∧
    Attained exampleRepository.settings w' ∧
      (w'.record? (.link .revision exampleRepository.name listed)).isSome = true ∧
      LosesRemembered w' exampleRepository listed outerRepository.name "latest" := by
  intro w w' listed
  obtain ⟨i, read, -⟩ := exists_ofPayload_emptyIndex
  refine ⟨⟨attained_movedBucket, ?_⟩, attained_listedTwice, ?_, ?_⟩
  · refine remembers_of_lost isFlat_movedBucket isLedger_movedBucket rfl rfl
      (manifest_movedBucket_emptyIndex read) (fun isTagged => ?_) ?_ accepts_latest ?_
      (.inr fun linked => nomatch (isLayer_of_movedBucket linked).1)
    · exact digest_emptyIndex_ne (isTagged_movedBucket_iff.1 isTagged).2
    · rintro ⟨d, m, isTagged, readable, -⟩
      obtain ⟨-, rfl⟩ := isTagged_movedBucket_iff.1 isTagged
      cases (manifest_movedBucket _).symm.trans readable
    · exact ((Bucket.has_assigned_iff (r := .tagEntry _ _ _) accepts_latest accepts_latest _).2
        (.inr (.inl rfl))).assigned _ _ _
  · rw [Site.record?_world]
    exact has_listedTwice (Bucket.has_pushed ∅ exampleRepository.manifests emptyIndex).1
  · refine remembers_of_lost isFlat_listedTwice isLedger_listedTwice rfl rfl
      (manifest_listedTwice read (.inl rfl)) (fun isTagged => ?_) ?_ accepts_latest ?_
      (.inl (isTagged_listedTwice_iff.2 ⟨rfl, rfl⟩))
    · exact outerRepository_ne (isTagged_listedTwice_iff.1 isTagged).1.symm
    · rintro ⟨d, m, isTagged, -⟩
      exact outerRepository_ne (isTagged_listedTwice_iff.1 isTagged).1.symm
    · exact (Bucket.has_assigned_iff (r := .tagEntry _ _ _) accepts_latest accepts_latest _).2
        (.inr (.inl rfl))

end Collector
end ImageRegistry
