import ImageRegistry.Proofs.Collection.Accounting

/-! Repeated runs. All that is read to find what is in use is itself in use, and is left. So the
same run finds the same in use when it is repeated, and there is nothing more to remove. -/

namespace ImageRegistry

open World

/-- Whether a digest has the same content and the same links in another bucket. -/
def Bucket.Retains (b b' : Bucket) (r : Repository) (d : Digest) : Prop :=
  b'.at? (.blob r.blobStore d) = b.at? (.blob r.blobStore d) ∧
    ∀ kind, b'.at? (.link kind r.name d) = b.at? (.link kind r.name d)

section

variable {settings : Settings} {b b' : Bucket} {cache later : DescriptorCache} {n : RepositoryName}
  {d : Digest}

lemma Bucket.Retains.descriptor?_eq {r : Repository} (retains : b.Retains b' r d) :
    b'.descriptor? r.manifests d = b.descriptor? r.manifests d := by
  have stored : b'.at? (.blob r.manifests.blobs d) = b.at? (.blob r.manifests.blobs d) := retains.1
  have linked (kind : LinkKind) : b'.Has (.link kind r.manifests.repository d) ↔
      b.Has (.link kind r.manifests.repository d) := by
    rw [Has, Has, show b'.at? (.link kind r.manifests.repository d) = _ from retains.2 kind]
    rfl
  rw [descriptor?, descriptor?, stored]
  simp only [linked]

lemma Bucket.Retains.given_eq (retains : b.Retains b' ⟨settings, n⟩ d)
    (retells : DescriptorCache.Retells settings b cache later) :
    b'.given later ⟨settings, n⟩ d = b.given cache ⟨settings, n⟩ d := by
  refine given_congr ?_ retains.1
  rw [Bool.eq_iff_iff, LinkStore.isSome_told?_iff, LinkStore.isSome_told?_iff,
    ← retells.knows n d, LinkStore.Knows, LinkStore.Knows, retains.descriptor?_eq]

end

namespace Collector

open Marking

section

variable {settings : Settings} {options : CollectionOptions} {scope : Option RepositoryName}
  {names : List RepositoryName} {found : Marking} {b b' : Bucket}
  {L : RepositoryName → Pending → Prop} {B : RepositoryName → Digest → Prop}
  {K : RepositoryName → Digest → Manifest → Prop} {n : RepositoryName} {d : Digest}

lemma bucket_retains_of_marked (settled : Settles settings options b L B K names found)
    (drops : b.Drops b' (Condemned settings options scope names found b))
    (marked : found.marks.containsIn n d = true) : b.Retains b' ⟨settings, n⟩ d :=
  ⟨(drops.2 (.blob _ d) trivial).2 (not_condemned_of_marked settled marked (.inr rfl)), fun kind =>
    (drops.2 (.link kind n d) trivial).2
      (not_condemned_of_marked settled marked (.inl ⟨kind, rfl⟩))⟩

lemma marked_of_isRoot (settled : Settles settings options b L B K names found) (hn : n ∈ names)
    (linked : b.Has (.link .revision n d)) (root : IsRoot options b n d) :
    found.marks.containsIn n d = true :=
  root.elim (fun keeps => settled.kept keeps n hn d linked) fun isTagged =>
    settled.tagged n hn d isTagged

theorem roots_of_drops (h : b.IsLedger) (settled : Settles settings options b L B K names found)
    (drops : b.Drops b' (Condemned settings options scope names found b)) (hn : n ∈ names) :
    roots options b' n = roots options b n := by
  have tags : b'.tags n = b.tags n := drops.1.tags_congr h fun t accepted => by
    rw [drops.has (r := .tagTarget n t) accepted, and_iff_left not_condemned_tagTarget]
  have targets : ∀ t ∈ b.tags n, b'.target? n t = b.target? n t := fun t isTag =>
    drops.target?_eq (h.mem_tags.1 isTag).1 not_condemned_tagTarget
  have root : isRoot options b' n = isRoot options b n := by
    funext d
    rw [Bool.eq_iff_iff, isRoot_iff drops.1, isRoot_iff h]
    refine or_congr_right (exists_congr fun t => and_congr_right fun accepted => ?_)
    rw [drops.target?_eq accepted not_condemned_tagTarget]
  have kept (d : Digest) (isRoot : IsRoot options b n d) :
      b'.Has (.link .revision n d) ↔ b.Has (.link .revision n d) := by
    rw [drops.has (r := .link .revision n d) trivial, and_iff_left_iff_imp]
    intro linked
    have marked := marked_of_isRoot settled hn linked isRoot
    exact not_condemned_of_marked settled marked (.inl ⟨_, rfl⟩)
  have listed : (b'.linkedDigests n .revision).filter (isRoot options b n) =
      (b.linkedDigests n .revision).filter (isRoot options b n) := by
    refine eq_of_ascending ((pairwise_ascending _).filter _) ((pairwise_ascending _).filter _)
      fun d => ?_
    simp only [List.mem_filter, drops.1.mem_linkedDigests, h.mem_linkedDigests, isRoot_iff h]
    exact and_congr_left (kept d)
  have stands : (b'.tags n).filterMap (b'.target? n) = (b.tags n).filterMap (b.target? n) := by
    rw [tags]
    exact List.filterMap_congr targets
  have unlinked : ((b.tags n).filterMap (b.target? n)).filter
        (fun d => d ∉ b'.linkedDigests n .revision) =
      ((b.tags n).filterMap (b.target? n)).filter fun d => d ∉ b.linkedDigests n .revision := by
    refine List.filter_congr fun d mem => ?_
    obtain ⟨t, isTag, target⟩ := List.mem_filterMap.1 mem
    rw [decide_eq_decide, drops.1.mem_linkedDigests, h.mem_linkedDigests,
      kept d (.inr ⟨t, (h.mem_tags.1 isTag).1, target⟩)]
  simp only [roots, root, listed, stands, unlinked]

lemma sweptNames_of_drops {C : Record → Prop} (h : b.IsLedger) (drops : b.Drops b' C) :
    sweptNames scope b' = (sweptNames scope b).filter (· ∈ sweptNames scope b') := by
  cases scope with
  | some n => simp [sweptNames]
  | none =>
    refine eq_of_ascending (pairwise_ascending _) ((pairwise_ascending _).filter _) fun n => ?_
    rw [List.mem_filter, decide_eq_true_eq, iff_and_self]
    intro left
    obtain ⟨r, lawful, has, owner⟩ := drops.1.isCatalog.mem_repositories.1 left
    exact h.isCatalog.mem_repositories.2 ⟨r, lawful, ((drops.has lawful).1 has).1, owner⟩

lemma mem_sweptNames_of_root (h : b'.IsLedger) (hn : n ∈ sweptNames scope b) {p : Pending}
    (root : p ∈ roots options b' n) : n ∈ sweptNames scope b' := by
  cases scope with
  | some m => exact hn
  | none =>
    refine h.isCatalog.mem_repositories.2 ?_
    rcases (mem_roots h).1 root with ⟨⟨t, accepted, target⟩, -⟩ | ⟨linked, -⟩
    · exact ⟨.tagTarget n t, accepted, (Site.exists_target?_iff h accepted).1 ⟨_, target⟩, rfl⟩
    · exact ⟨.link .revision n p.digest, trivial, linked, rfl⟩

lemma condemned_of_repeated (drops : b.Drops b' (Condemned settings options scope names found b))
    {names' : List RepositoryName} (fewer : ∀ n ∈ names', n ∈ names) {r : Record}
    (condemned : Condemned settings options scope names' ⟨found.marks, []⟩ b' r) :
    Condemned settings options scope names found b r := by
  obtain ⟨active, ⟨_, mem, _⟩ | ⟨n, hn, d, unmarked, record, stored⟩ | whole⟩ := condemned
  · cases mem
  · exact ⟨active, .inr (.inl ⟨n, fewer n hn, d, unmarked, record, fun separate =>
      ((drops.has (r := .blob (.ofRepository n) d) trivial).1 (stored separate)).1⟩)⟩
  · exact ⟨active, .inr (.inr whole)⟩

end

variable {settings : Settings} {options : CollectionOptions} {scope : Option RepositoryName}
  {found : Marking} {s : Site} {b b' : Bucket} {cache later : DescriptorCache}

theorem surveyed_of_outcome (active : options.dryRun = false) (h : b.IsLedger)
    (retells : DescriptorCache.Retells settings b cache later)
    (outcome : Outcome options settings scope b cache found b') :
    surveyed options settings scope b' later = .ok ⟨found.marks, []⟩ := by
  obtain ⟨done, settled, drops⟩ := outcome
  have again : survey options b' (b'.reading later settings) (sweptNames scope b') {} =
      .ok found.marks := by
    rw [sweptNames_of_drops h drops]
    refine survey_congr (V := fun _ _ => True) (exists_of_surveyed done).1
      (fun _ _ _ _ _ _ _ => trivial) (fun _ _ _ _ => trivial) (fun n hn p _ marked => ?_)
      (fun n hn _ => roots_of_drops h settled drops hn) fun n hn fresh => ?_
    · exact congrArg (loaded p) ((bucket_retains_of_marked settled drops marked).given_eq retells)
    · rw [← roots_of_drops h settled drops hn, List.eq_nil_iff_forall_not_mem]
      intro p root
      rw [decide_eq_false_iff_not] at fresh
      exact fresh (mem_sweptNames_of_root drops.1 hn root)
  have none : unused options b' (sweptNames scope b') found.marks = [] := by
    refine List.flatMap_eq_nil_iff.2 fun n hn => List.filter_eq_nil_iff.2 fun deletion mem => ?_
    obtain ⟨rfl, -, left, -⟩ := (mem_untagged drops.1).1 mem
    obtain ⟨has, spared⟩ := (drops.has (r := .link _ _ _) trivial).1 left
    rw [Bool.not_eq_true', Bool.not_eq_false]
    by_contra unmarked
    rw [sweptNames_of_drops h drops] at hn
    obtain ⟨gone, mem, named, same⟩ :=
      settled.garbage _ (List.mem_filter.1 hn).1 _ has (Bool.eq_false_iff.2 unmarked)
    exact spared ⟨active, .inl ⟨gone, mem, .inl ⟨_, by rw [named, same]⟩⟩⟩
  rw [surveyed_of_survey again, none]

lemma marked_reportOn {names : List RepositoryName} :
    (reportOn options settings scope names found b).marked = found.marks.size ∧
      (reportOn options settings scope names found b).dryRun = options.dryRun := by
  by_cases separate : settings.separateBlobs = true <;> cases scope <;>
    simp [reportOn, reportSwept_eq, separate, reportMarked]

lemma reportOn_of_spared (active : options.dryRun = false) (h : b.IsLedger)
    {names : List RepositoryName} (none : found.deletions = [])
    (spared : ∀ r, r.IsLawful → b.Has r → ¬Condemned settings options scope names found b r) :
    reportOn options settings scope names found b =
      { marked := found.marks.size, dryRun := false } := by
  have drops : b.Drops b (Deletes found.deletions) := .none h fun r ⟨_, mem, _⟩ => by
    rw [none] at mem
    cases mem
  have clear {r : Record} (lawful : r.IsLawful) (has : b.Has r) :
      ¬(reportOn options settings scope names found b).Accounts r := fun accounts =>
    spared r lawful has ((accounts_iff_condemned active h drops has).1 accounts)
  have blobs : (reportOn options settings scope names found b).blobsDeleted = [] := by
    refine List.eq_nil_iff_forall_not_mem.2 fun ⟨store, d⟩ mem => ?_
    exact clear (r := .blob store d) trivial ((mem_blobsDeleted_reportOn h drops).1 mem).1
      (.inr (.inr ⟨_, mem, .inl rfl⟩))
  have links : (reportOn options settings scope names found b).linksRemoved = [] := by
    refine List.eq_nil_iff_forall_not_mem.2 fun ⟨n, d⟩ mem => ?_
    exact clear (r := .link .layer n d) trivial
      ((mem_linksRemoved_reportOn_of_deletes drops).1 mem).2.2.1 (.inr (.inl ⟨_, mem, rfl⟩))
  have manifests : (reportOn options settings scope names found b).manifestsDeleted = [] :=
    manifestsDeleted_reportOn.trans none
  obtain ⟨marked, dry⟩ : (reportOn options settings scope names found b).marked = found.marks.size ∧
      (reportOn options settings scope names found b).dryRun = options.dryRun := marked_reportOn
  rw [active] at dry
  generalize reportOn options settings scope names found b = report
    at marked dry manifests blobs links ⊢
  obtain ⟨_, _, _, _, _⟩ := report
  subst marked manifests blobs links dry
  rfl

variable {report : CollectionReport} {w w' : World}

lemma run_collect_again {h : Holdings} (sound : h.IsSound) (active : options.dryRun = false)
    (ran : (s.world h.bucket h.cache).run (collect options settings scope) = (.ok report, w')) :
    ∃ b cache cache', w' = s.world b cache ∧
      w'.run (collect options settings scope) =
        (.ok { marked := report.marked, dryRun := false }, s.world b cache') := by
  obtain ⟨b, cache⟩ := h
  obtain ⟨ledger, faithful⟩ := sound
  obtain ⟨later, found, b₁, b', rfl, rfl, retells, -, outcome⟩ := exists_outcome ledger faithful ran
  have drops := outcome.drops
  obtain ⟨last, -, -, repeats⟩ :=
    run_collect_surveyed (s := s) drops.1 retells.faithful options settings scope
  obtain ⟨b₂, b'', ran', deletes, outcome'⟩ :=
    repeats _ (surveyed_of_outcome active ledger retells outcome)
  have spared : ∀ r : Record, r.IsLawful → b'.Has r →
      ¬Condemned settings options scope (sweptNames scope b') ⟨found.marks, []⟩ b' r := by
    intro r lawful has condemned
    refine ((drops.has lawful).1 has).2 (condemned_of_repeated drops (fun n hn => ?_) condemned)
    rw [sweptNames_of_drops ledger drops] at hn
    exact (List.mem_filter.1 hn).1
  obtain rfl : b₂ = b' := deletes.eq_of_none drops.1 fun r ⟨_, _, mem, _⟩ => nomatch mem
  obtain rfl : b'' = b₂ := (outcome'.drops.congr fun r lawful has =>
    iff_false_intro (spared r lawful has)).eq_of_none drops.1 fun _ => id
  rw [reportOn_of_spared active drops.1 rfl spared] at ran'
  rw [marked_reportOn.1]
  exact ⟨_, _, _, rfl, ran'⟩

/-- A run that succeeds, and is not dry, can be repeated: the same run then succeeds as well, finds
as much in use, removes nothing and leaves all buckets as they are. -/
theorem collect_idempotent (written : Written w) (active : options.dryRun = false)
    (ran : w.run (collect options settings scope) = (.ok report, w')) :
    ∃ w'', w'.run (collect options settings scope) =
        (.ok { marked := report.marked, dryRun := false }, w'') ∧
      w''.bucket = w'.bucket ∧ w''.backend = w'.backend := by
  obtain ⟨s, h, rfl, sound⟩ := written.isSound
  obtain ⟨b, cache, cache', rfl, again⟩ := run_collect_again sound active ran
  exact ⟨_, again, rfl, rfl⟩

/-- The list of no manifests is removed by the first run, and nothing is left for the second. -/
theorem emptyIndex_repeated : ∃ w report w' w'', Written w ∧
    w.run (collect {} exampleRepository.settings none) = (.ok report, w') ∧
    report.manifestsDeleted ≠ [] ∧
    w'.run (collect {} exampleRepository.settings none) =
      (.ok { marked := report.marked, dryRun := false }, w'') := by
  let s : Site := ⟨"registry", ∅, none⟩
  have reached : Reached exampleRepository.settings (fun _ _ => True)
      (s.world exampleBucket .empty) := reached_exampleBucket fun _ => trivial
  obtain ⟨report, w', ran, deletion, mem, -⟩ := exists_collect_untagged s exampleRepository.settings
  obtain ⟨w'', again, -⟩ := collect_idempotent reached.written rfl ran
  exact ⟨_, report, w', w'', reached.written, ran, List.ne_nil_of_mem mem, again⟩

end Collector
end ImageRegistry
