import Mathlib.Data.List.Nodup
import ImageRegistry.Proofs.Collection.Piecewise
import ImageRegistry.Proofs.Collection.Surveying
import ImageRegistry.Proofs.Registry.Isolation

/-! The account of a run: its report names exactly what is gone afterwards, and names it once. -/

namespace ImageRegistry

open World

namespace CollectionReport

/-- The records that a report accounts for. With a manifest all links to it are removed, and what
the tags that are named with it remember of it. With a blob in the store of a repository its link
is. -/
def Accounts (report : CollectionReport) (r : Record) : Prop :=
  (∃ deletion ∈ report.manifestsDeleted,
    (∃ kind, r = .link kind deletion.repository deletion.digest) ∨
      ∃ t ∈ deletion.tags, r = .tagEntry deletion.repository t deletion.digest) ∨
  (∃ link ∈ report.linksRemoved, r = .link .layer link.1 link.2) ∨
  ∃ blob ∈ report.blobsDeleted,
    r = .blob blob.1 blob.2 ∨ ∃ n, blob.1 = .ofRepository n ∧ r = .link .layer n blob.2

/-- The keys that a report accounts for. -/
def AccountsFor (report : CollectionReport) (key : Path) : Prop :=
  ∃ r, report.Accounts r ∧ r.key.components = key.components

/-- A report that names nothing twice. -/
structure NamesOnce (report : CollectionReport) : Prop where
  manifests : (report.manifestsDeleted.map fun deletion =>
    (deletion.repository, deletion.digest)).Nodup
  tags : ∀ deletion ∈ report.manifestsDeleted, deletion.tags.Nodup
  blobs : report.blobsDeleted.Nodup
  links : report.linksRemoved.Nodup

variable {report : CollectionReport} {n : RepositoryName}

lemma not_accounts_tagTarget {t : String} : ¬report.Accounts (.tagTarget n t) := by
  rintro (⟨_, -, ⟨_, same⟩ | ⟨_, -, same⟩⟩ | ⟨_, -, same⟩ | ⟨_, -, same | ⟨_, -, same⟩⟩) <;>
    cases same

lemma not_accounts_upload {id : UploadId} :
    ¬report.Accounts (.uploadContent n id) ∧ ¬report.Accounts (.uploadStart n id) := by
  constructor <;>
    rintro (⟨_, -, ⟨_, same⟩ | ⟨_, -, same⟩⟩ | ⟨_, -, same⟩ | ⟨_, -, same | ⟨_, -, same⟩⟩) <;>
      cases same

lemma accounts_tagEntry {t : String} {d : Digest} : report.Accounts (.tagEntry n t d) ↔
    ∃ deletion ∈ report.manifestsDeleted,
      deletion.repository = n ∧ deletion.digest = d ∧ t ∈ deletion.tags := by
  constructor
  · rintro (⟨deletion, mem, ⟨_, same⟩ | ⟨_, isTag, same⟩⟩ | ⟨_, -, same⟩ |
      ⟨_, -, same | ⟨_, -, same⟩⟩) <;> cases same
    exact ⟨deletion, mem, rfl, rfl, isTag⟩
  · rintro ⟨deletion, mem, rfl, rfl, isTag⟩
    exact .inl ⟨deletion, mem, .inr ⟨t, isTag, rfl⟩⟩

lemma Accounts.isLawful
    (accepted : ∀ deletion ∈ report.manifestsDeleted, ∀ t ∈ deletion.tags, TagName.accepts t = true)
    {r : Record} (accounts : report.Accounts r) : r.IsLawful := by
  obtain ⟨deletion, mem, ⟨_, rfl⟩ | ⟨t, isTag, rfl⟩⟩ | ⟨_, -, rfl⟩ | ⟨_, -, rfl | ⟨_, -, rfl⟩⟩ :=
    accounts
  case inl.inr => exact accepted deletion mem t isTag
  all_goals exact trivial

end CollectionReport

lemma nodup_flatMap_of_owner {α β : Type} (owner : α → Option β) {owners : List β}
    (nodup : owners.Nodup) {f : β → List α} (each : ∀ n, (f n).Nodup)
    (own : ∀ n, ∀ x ∈ f n, owner x = some n) : (owners.flatMap f).Nodup := by
  refine List.nodup_flatMap.2 ⟨fun n _ => each n, nodup.imp fun {m n} different => ?_⟩
  intro x first second
  exact different (Option.some.inj ((own m x first).symm.trans (own n x second)))

lemma nodup_map_pair {α β : Type} {xs : List β} (nodup : xs.Nodup) (a : α) :
    (xs.map fun x => (a, x)).Nodup :=
  nodup.map fun _ _ same => (Prod.mk.inj same).2

namespace Collector

open Marking

variable {settings : Settings} {options : CollectionOptions} {scope : Option RepositoryName}
  {names : List RepositoryName} {found : Marking} {b b₁ : Bucket}

/-- The content that a run removes is in the stores of the repositories, or in the shared one if it
is the whole registry that is swept. -/
lemma blobsDeleted_reportOn (h : b.IsLedger) (drops : b.Drops b₁ (Deletes found.deletions))
    (scope : Option RepositoryName) (names : List RepositoryName) :
    (reportOn options settings scope names found b₁).blobsDeleted =
      if settings.separateBlobs then
        names.flatMap fun n => (garbageIn settings found.marks b n).map fun d =>
          (BlobStore.ofRepository n, d)
      else if scope.isSome then []
      else (garbageShared found.marks b).map fun d => (BlobStore.shared, d) := by
  by_cases separate : settings.separateBlobs = true
  · simp [reportOn, reportSwept_eq, separate, reportMarked, garbageIn_of_separate separate h drops]
  · have stored : garbageShared found.marks b₁ = garbageShared found.marks b := by
      rw [garbageShared, garbageShared, drops.1.storedDigests_congr h fun d => by
        rw [drops.has (r := .blob .shared d) trivial, and_iff_left not_deletes_blob]]
    have shared : settings.separateBlobs = false := Bool.eq_false_iff.2 separate
    cases scope <;> simp [reportOn, reportSwept_eq, shared, reportMarked, stored]

lemma mem_blobsDeleted_reportOn (h : b.IsLedger) (drops : b.Drops b₁ (Deletes found.deletions))
    {store : BlobStore} {d : Digest} :
    (store, d) ∈ (reportOn options settings scope names found b₁).blobsDeleted ↔
      b.Has (.blob store d) ∧
        ((settings.separateBlobs = true ∧ ∃ n ∈ names, store = .ofRepository n ∧
          found.marks.containsIn n d = false) ∨
        (settings.separateBlobs = false ∧ scope = none ∧ store = .shared ∧
          found.marks.contains d = false)) := by
  rw [blobsDeleted_reportOn h drops]
  by_cases separate : settings.separateBlobs = true
  · simp only [separate, if_true, List.mem_flatMap, List.mem_map, Prod.mk.injEq, garbageIn,
      List.mem_filter, mem_listCandidates h, candidate, Bool.not_eq_true', true_and,
      Bool.true_eq_false, false_and, or_false]
    constructor
    · rintro ⟨n, hn, _, ⟨stored, unmarked⟩, rfl, rfl⟩
      exact ⟨stored, n, hn, rfl, unmarked⟩
    · rintro ⟨stored, n, hn, rfl, unmarked⟩
      exact ⟨n, hn, d, ⟨stored, unmarked⟩, rfl, rfl⟩
  · have shared : settings.separateBlobs = false := Bool.eq_false_iff.2 separate
    cases scope with
    | some n => simp [shared]
    | none =>
      simp only [shared, Bool.false_eq_true, if_false, Option.isSome_none, List.mem_map,
        Prod.mk.injEq, garbageShared, List.mem_filter, h.mem_storedDigests, Bool.not_eq_true',
        false_and, false_or, true_and]
      constructor
      · rintro ⟨_, ⟨stored, unmarked⟩, rfl, rfl⟩
        exact ⟨stored, rfl, unmarked⟩
      · rintro ⟨stored, rfl, unmarked⟩
        exact ⟨d, ⟨stored, unmarked⟩, rfl, rfl⟩

lemma mem_linksRemoved_reportOn_of_deletes (drops : b.Drops b₁ (Deletes found.deletions))
    {n : RepositoryName} {d : Digest} :
    (n, d) ∈ (reportOn options settings scope names found b₁).linksRemoved ↔
      settings.separateBlobs = false ∧ n ∈ names ∧ b.Has (.link .layer n d) ∧
        found.marks.containsIn n d = false ∧ ¬IsDeleted found.deletions (n, d) := by
  by_cases separate : settings.separateBlobs = true
  · simp [linksRemoved_of_separate separate, separate]
  · have shared : settings.separateBlobs = false := Bool.eq_false_iff.2 separate
    rw [mem_linksRemoved_reportOn shared drops.1, drops.has (r := .link .layer n d) trivial,
      deletes_link_iff]
    simp only [shared, true_and, and_assoc]
    tauto

theorem accounts_iff_condemned (active : options.dryRun = false) (h : b.IsLedger)
    (drops : b.Drops b₁ (Deletes found.deletions)) {r : Record} (has : b.Has r) :
    (reportOn options settings scope names found b₁).Accounts r ↔
      Condemned settings options scope names found b r := by
  rw [Condemned, and_iff_right active, CollectionReport.Accounts, manifestsDeleted_reportOn]
  refine ⟨?_, ?_⟩
  · rintro (deletes | ⟨⟨n, d⟩, mem, rfl⟩ | ⟨⟨store, d⟩, mem, record⟩)
    · exact .inl deletes
    · obtain ⟨shared, hn, -, unmarked, -⟩ := (mem_linksRemoved_reportOn_of_deletes drops).1 mem
      refine .inr (.inl ⟨n, hn, d, unmarked, .inl rfl, fun separate => ?_⟩)
      rw [shared] at separate
      cases separate
    · obtain ⟨stored, ⟨separate, n, hn, rfl, unmarked⟩ | ⟨shared, whole, rfl, unmarked⟩⟩ :=
        (mem_blobsDeleted_reportOn h drops).1 mem
      · refine .inr (.inl ⟨n, hn, d, unmarked, ?_, fun _ => stored⟩)
        rcases record with rfl | ⟨_, same, rfl⟩
        · exact .inr ⟨separate, rfl⟩
        · cases same
          exact .inl rfl
      · rcases record with rfl | ⟨_, same, -⟩
        · exact .inr (.inr ⟨whole, shared, d, unmarked, rfl⟩)
        · cases same
  · rintro (deletes | ⟨n, hn, d, unmarked, record, stored⟩ | ⟨whole, shared, d, unmarked, rfl⟩)
    · exact .inl deletes
    · by_cases separate : settings.separateBlobs = true
      · have mem : (BlobStore.ofRepository n, d) ∈
            (reportOn options settings scope names found b₁).blobsDeleted :=
          (mem_blobsDeleted_reportOn h drops).2
            ⟨stored separate, .inl ⟨separate, n, hn, rfl, unmarked⟩⟩
        refine .inr (.inr ⟨_, mem, ?_⟩)
        rcases record with rfl | ⟨-, rfl⟩
        · exact .inr ⟨n, rfl, rfl⟩
        · exact .inl rfl
      · have shared : settings.separateBlobs = false := Bool.eq_false_iff.2 separate
        obtain rfl : r = .link .layer n d := record.resolve_right fun own => separate own.1
        -- the link is one of a manifest that is removed, or is removed as that of a blob
        by_cases deleted : IsDeleted found.deletions (n, d)
        · exact .inl (deletes_link_iff.2 deleted)
        · exact .inr (.inl ⟨(n, d), (mem_linksRemoved_reportOn_of_deletes drops).2
            ⟨shared, hn, has, unmarked, deleted⟩, rfl⟩)
    · exact .inr (.inr ⟨(.shared, d), (mem_blobsDeleted_reportOn h drops).2
        ⟨has, .inr ⟨shared, whole, rfl, unmarked⟩⟩, .inl rfl⟩)

lemma nodup_garbageIn (settings : Settings) (marks : MarkSet) (b : Bucket) (n : RepositoryName) :
    (garbageIn settings marks b n).Nodup :=
  (nodup_of_ascending (pairwise_listCandidates settings b n)).filter _

lemma nodup_unused (options : CollectionOptions) (b : Bucket) (nodup : names.Nodup)
    (marks : MarkSet) : ((unused options b names marks).map fun deletion =>
      (deletion.repository, deletion.digest)).Nodup := by
  rw [unused, List.map_flatMap]
  have owned (n : RepositoryName) : ((untagged options b n).filter fun deletion =>
      !marks.containsIn n deletion.digest).map (fun deletion =>
        (deletion.repository, deletion.digest)) =
      ((((b.linkedDigests n .revision).filter fun d => !isRoot options b n d).filter fun d =>
        !marks.containsIn n d).map fun d => (n, d)) := by
    simp [untagged, List.filter_map, Function.comp_def]
  simp only [owned]
  refine nodup_flatMap_of_owner (fun link => some link.1) nodup (fun n => ?_)
    fun n link mem => ?_
  · exact nodup_map_pair (((nodup_of_ascending (pairwise_ascending _)).filter _).filter _) n
  · obtain ⟨d, -, rfl⟩ := List.mem_map.1 mem
    rfl

theorem namesOnce_reportOn (h : b.IsLedger) (drops : b.Drops b₁ (Deletes found.deletions))
    (nodup : names.Nodup) (deletions : found.deletions = unused options b names found.marks) :
    (reportOn options settings scope names found b₁).NamesOnce where
  manifests := by
    rw [manifestsDeleted_reportOn, deletions]
    exact nodup_unused options b nodup found.marks
  tags deletion mem := by
    rw [manifestsDeleted_reportOn, deletions] at mem
    obtain ⟨n, -, mem⟩ := List.mem_flatMap.1 mem
    obtain ⟨-, tags, -⟩ := (mem_untagged h).1 (List.mem_filter.1 mem).1
    rw [tags]
    exact nodup_of_ascending (pairwise_ascending _)
  blobs := by
    rw [blobsDeleted_reportOn h drops]
    split_ifs
    · refine nodup_flatMap_of_owner (fun blob => (Record.blob blob.1 blob.2).owner?) nodup
        (fun n => nodup_map_pair (nodup_garbageIn settings _ b n) _) fun n blob mem => ?_
      obtain ⟨d, -, rfl⟩ := List.mem_map.1 mem
      rfl
    · exact .nil
    · exact nodup_map_pair ((nodup_of_ascending (pairwise_ascending _)).filter _) _
  links := by
    rw [linksRemoved_reportOn h drops]
    refine nodup_flatMap_of_owner (fun link => some link.1) nodup (fun n => ?_)
      fun n link mem => ?_
    · unfold removedLinks
      split_ifs
      · exact .nil
      · exact nodup_map_pair ((nodup_garbageIn settings _ b n).filter _) n
    · unfold removedLinks at mem
      split_ifs at mem
      · cases mem
      · obtain ⟨d, -, rfl⟩ := List.mem_map.1 mem
        rfl

variable {report : CollectionReport} {w w' : World}

/-- After a run that succeeds, and is not dry, exactly what the report accounts for is gone, and no
other key got another content: so what tags stand for and what was uploaded so far is left, and tags
still remember all but the manifests with which they are named. Nothing is named twice. -/
theorem collect_accounts (written : Written w) (active : options.dryRun = false)
    (ran : w.run (collect options settings scope) = (.ok report, w')) :
    (∀ key, (report.AccountsFor key → w'.content? key = none) ∧
      (¬report.AccountsFor key → w'.content? key = w.content? key)) ∧
    (∀ n t, TagName.accepts t = true →
      w'.record? (.tagTarget n t) = w.record? (.tagTarget n t) ∧
      ∀ d, (∀ deletion ∈ report.manifestsDeleted, deletion.repository = n → deletion.digest = d →
        t ∉ deletion.tags) → w'.record? (.tagEntry n t d) = w.record? (.tagEntry n t d)) ∧
    (∀ n id, w'.record? (.uploadContent n id) = w.record? (.uploadContent n id) ∧
      w'.record? (.uploadStart n id) = w.record? (.uploadStart n id)) ∧
    report.NamesOnce := by
  obtain ⟨s, ⟨b, cache⟩, rfl, ledger, faithful⟩ := written.isSound
  obtain ⟨later, found, b₁, b', rfl, rfl, -, deletes, done, settled, drops⟩ :=
    exists_outcome ledger faithful ran
  have removed : b.Drops b₁ (Deletes found.deletions) :=
    deletes.congr fun r _ _ => and_iff_right active
  have gone := drops.congr fun r _ has => (accounts_iff_condemned active ledger removed has).symm
  have accepted : ∀ deletion ∈ (reportOn options settings scope (sweptNames scope b) found
      b₁).manifestsDeleted, ∀ t ∈ deletion.tags, TagName.accepts t = true := by
    intro deletion mem t isTag
    rw [manifestsDeleted_reportOn] at mem
    exact (((settled.unmarked deletion mem).2.2 t).1 isTag).1
  simp only [Site.content?_world, Site.record?_world]
  refine ⟨gone.content? ledger fun r accounts => accounts.isLawful accepted, fun n t isTag => ?_,
    fun n id => ?_, ?_⟩
  · refine ⟨(gone.2 (.tagTarget n t) isTag).2 CollectionReport.not_accounts_tagTarget,
      fun d spared => (gone.2 (.tagEntry n t d) isTag).2 fun accounts => ?_⟩
    obtain ⟨deletion, mem, named, same, remembers⟩ := CollectionReport.accounts_tagEntry.1 accounts
    exact spared deletion mem named same remembers
  · obtain ⟨content, start⟩ := CollectionReport.not_accounts_upload
    exact ⟨(gone.2 (.uploadContent n id) trivial).2 content,
      (gone.2 (.uploadStart n id) trivial).2 start⟩
  · exact namesOnce_reportOn ledger removed (nodup_sweptNames scope b) (exists_of_surveyed done).2

lemma exists_collect_untagged (s : Site) (settings : Settings) : ∃ report w',
    (s.world exampleBucket .empty).run (collect {} settings none) = (.ok report, w') ∧
    ∃ deletion ∈ report.manifestsDeleted,
      deletion.repository = exampleRepository.name ∧ deletion.digest = .ofContent emptyIndex := by
  obtain ⟨names, found, b₁, b', ran, swept, unmarked, settled, -⟩ := run_collect_rootless (s := s)
    settings isLedger_exampleBucket not_isRoot_exampleBucket none
    fun _ n => (rfl : DescriptorCache.empty.openFor n = .ok ())
  have linked : exampleBucket.Has
      (.link .revision exampleRepository.name (.ofContent emptyIndex)) := by
    simp [Bucket.Has, at?_exampleBucket (r := .link _ _ _) trivial]
  have hn : exampleRepository.name ∈ names := (swept _).2 ⟨.link _ _ _, trivial, linked, rfl⟩
  obtain ⟨deletion, mem, isOne⟩ := settled.garbage _ hn _ linked (unmarked _ _)
  exact ⟨_, _, ran, deletion, by rwa [manifestsDeleted_reportOn], isOne⟩

/-- The list of no manifests is removed, and the report accounts for its link. -/
theorem emptyIndex_accounted : ∃ w report w', Written w ∧
    w.run (collect {} exampleRepository.settings none) = (.ok report, w') ∧
    let key := (Record.link .revision exampleRepository.name (.ofContent emptyIndex)).key
    report.AccountsFor key ∧ w.content? key ≠ none ∧ w'.content? key = none := by
  let s : Site := ⟨"registry", ∅, none⟩
  have reached : Reached exampleRepository.settings (fun _ _ => True)
      (s.world exampleBucket .empty) := reached_exampleBucket fun _ => trivial
  obtain ⟨report, w', ran, deletion, mem, named, same⟩ :=
    exists_collect_untagged s exampleRepository.settings
  have accounts : report.AccountsFor
      (Record.link .revision exampleRepository.name (.ofContent emptyIndex)).key :=
    ⟨.link .revision _ _, .inl ⟨deletion, mem, .inl ⟨.revision, by rw [named, same]⟩⟩, rfl⟩
  refine ⟨_, _, _, reached.written, ran, accounts, ?_,
    ((collect_accounts reached.written rfl ran).1 _).1 accounts⟩
  rw [Site.content?_world]
  change exampleBucket.at? (.link _ _ _) ≠ none
  simp [at?_exampleBucket (r := .link _ _ _) trivial]

end Collector
end ImageRegistry
