import ImageRegistry.Collection.Collector
import ImageRegistry.Proofs.Registry.Queries

/-! Sweeping: which records are dropped once it is known what is in use. -/

namespace ImageRegistry

open World

/-- The action succeeds and drops the condemned records, and nothing else; its result has a
property. -/
def Action.Sweeps {α : Type} (a : Action α) (s : Site) (cache : DescriptorCache) (b : Bucket)
    (condemned : Record → Prop) (Q : α → Prop) : Prop :=
  ∃ x b', (s.world b cache).run a = (.ok x, s.world b' cache) ∧ b.Drops b' condemned ∧ Q x

namespace Action.Sweeps

variable {α β : Type} {s : Site} {cache : DescriptorCache} {b : Bucket} {C D : Record → Prop}
  {Q : α → Prop} {R : β → Prop}

lemma pure (h : b.IsLedger) {x : α} (good : Q x) (empty : ∀ r, ¬C r) :
    (Pure.pure x : Action α).Sweeps s cache b C Q := ⟨x, b, rfl, .none h empty, good⟩

lemma bind {a : Action α} {f : α → Action β} (first : a.Sweeps s cache b C Q)
    (second : ∀ x b', Q x → b.Drops b' C → (f x).Sweeps s cache b' D R) :
    (a >>= f).Sweeps s cache b (fun r => C r ∨ D r) R := by
  obtain ⟨x, b', ran, drops, good⟩ := first
  obtain ⟨y, b'', ran', drops', good'⟩ := second x b' good drops
  exact ⟨y, b'', by rw [run_bind, ran]; exact ran', drops.trans drops', good'⟩

lemma congr {a : Action α} (sweeps : a.Sweeps s cache b C Q)
    (same : ∀ r, r.IsLawful → b.Has r → (C r ↔ D r)) : a.Sweeps s cache b D Q := by
  obtain ⟨x, b', ran, drops, good⟩ := sweeps
  exact ⟨x, b', ran, drops.congr same, good⟩

lemma forM {xs : List α} {f : α → Action PUnit} {C : α → Record → Prop}
    (each : ∀ x ∈ xs, ∀ b : Bucket, b.IsLedger → (f x).Sweeps s cache b (C x) fun _ => True)
    (h : b.IsLedger) :
    (xs.forM f).Sweeps s cache b (fun r => ∃ x ∈ xs, C x r) fun _ => True := by
  induction xs generalizing b with
  | nil => exact .pure h trivial (by simp)
  | cons x xs ih =>
    have rest : (f x >>= fun _ => xs.forM f).Sweeps s cache b _ fun _ => True :=
      (each x List.mem_cons_self b h).bind fun _ _ _ drops =>
        ih (fun y mem => each y (List.mem_cons_of_mem x mem)) drops.1
    exact rest.congr fun r _ _ => by simp

lemma unlessDry {a : Action Unit} (options : CollectionOptions) (h : b.IsLedger)
    (sweeps : a.Sweeps s cache b C fun _ => True) :
    (Collector.unlessDry options a).Sweeps s cache b (fun r => options.dryRun = false ∧ C r)
      fun _ => True := by
  unfold Collector.unlessDry
  split_ifs with dry
  · exact .pure h trivial fun r condemned => by simp [dry] at condemned
  · exact sweeps.congr fun r _ _ => by simp [dry]

end Action.Sweeps

namespace Removal

variable (s : Site) (cache : DescriptorCache) {b : Bucket}

lemma sweeps_erase (h : b.IsLedger) {r : Record} (lawful : r.IsLawful) :
    (erase r).Sweeps s cache b (fun other => r = other) fun _ => True :=
  ⟨(), b.remove r.key, by simp [erase], .single h lawful, trivial⟩

/-- What is removed with a manifest: the links to it, and what tags remember of it. -/
def manifestRecords (n : RepositoryName) (d : Digest) (tags : List String) (r : Record) : Prop :=
  (∃ kind, r = .link kind n d) ∨ ∃ t ∈ tags, r = .tagEntry n t d

lemma sweeps_manifest (h : b.IsLedger) (n : RepositoryName) (d : Digest) {tags : List String}
    (accepted : ∀ t ∈ tags, TagName.accepts t = true) :
    (manifest n d tags).Sweeps s cache b (manifestRecords n d tags) fun _ => True := by
  have entries : (tags.forM fun t => erase (.tagEntry n t d)).Sweeps s cache b _ fun _ => True :=
    .forM (fun t mem b h => sweeps_erase s cache h (accepted t mem)) h
  refine (entries.bind fun _ b' _ drops => (sweeps_erase s cache (r := .link .revision n d) drops.1
    trivial).bind fun _ b'' _ drops' => sweeps_erase s cache (r := .link .layer n d) drops'.1
      trivial).congr fun r _ _ => ?_
  unfold manifestRecords
  constructor
  · rintro (⟨t, mem, rfl⟩ | rfl | rfl)
    · exact .inr ⟨t, mem, rfl⟩
    · exact .inl ⟨_, rfl⟩
    · exact .inl ⟨_, rfl⟩
  · rintro (⟨_ | _, rfl⟩ | ⟨t, mem, rfl⟩)
    · exact .inr (.inr rfl)
    · exact .inr (.inl rfl)
    · exact .inl ⟨t, mem, rfl⟩

def blobRecords (settings : Settings) (n : RepositoryName) (d : Digest) (r : Record) : Prop :=
  r = .link .layer n d ∨ (settings.separateBlobs = true ∧ r = .blob (.ofRepository n) d)

lemma sweeps_repositoryBlob (h : b.IsLedger) (settings : Settings) (n : RepositoryName)
    (d : Digest) :
    (repositoryBlob settings n d).Sweeps s cache b (blobRecords settings n d) fun _ => True := by
  unfold repositoryBlob
  split_ifs with separate
  · refine ((sweeps_erase s cache (r := .blob (.ofRepository n) d) h trivial).bind
      fun _ b' _ drops =>
        sweeps_erase s cache (r := .link .layer n d) drops.1 trivial).congr fun r _ _ => ?_
    simp [blobRecords, separate, eq_comm, or_comm]
  · refine (sweeps_erase s cache (r := .link .layer n d) h trivial).congr fun r _ _ => ?_
    simp [blobRecords, separate, eq_comm]

end Removal

namespace Collector

variable (s : Site) (cache : DescriptorCache) {b : Bucket}

/-- The record by which a digest is found that can be removed from a repository: its content if the
repository has a blob store of its own, and else its link. -/
def candidate (settings : Settings) (n : RepositoryName) (d : Digest) : Record :=
  if settings.separateBlobs then .blob (.ofRepository n) d else .link .layer n d

lemma isLawful_candidate (settings : Settings) (n : RepositoryName) (d : Digest) :
    (candidate settings n d).IsLawful := by
  unfold candidate
  split_ifs <;> trivial

def listCandidates (settings : Settings) (b : Bucket) (n : RepositoryName) : List Digest :=
  if settings.separateBlobs then b.storedDigests (.ofRepository n) else b.linkedDigests n .layer

lemma mem_listCandidates (h : b.IsLedger) {settings : Settings} {n : RepositoryName} {d : Digest} :
    d ∈ listCandidates settings b n ↔ b.Has (candidate settings n d) := by
  unfold listCandidates candidate
  split_ifs
  · exact h.mem_storedDigests
  · exact h.mem_linkedDigests

lemma pairwise_listCandidates (settings : Settings) (b : Bucket) (n : RepositoryName) :
    (listCandidates settings b n).Pairwise fun d e => compare d e = .lt := by
  unfold listCandidates
  split_ifs <;> exact pairwise_ascending _

lemma run_candidates (settings : Settings) (n : RepositoryName) :
    (s.world b cache).run (candidates ⟨settings, n⟩) =
      (.ok (listCandidates settings b n), s.world b cache) := by
  unfold candidates listCandidates
  refine Site.run_whileListing _ ?_
  by_cases separate : settings.separateBlobs = true
  · simp only [separate, if_true, Repository.blobStore, Settings.blobStore]
    exact s.run_enumerateBlobs cache _
  · simp only [separate]
    exact s.run_enumerate cache (Repository.blobs ⟨settings, n⟩)

def garbageIn (settings : Settings) (marks : MarkSet) (b : Bucket) (n : RepositoryName) :
    List Digest :=
  (listCandidates settings b n).filter fun d => !marks.containsIn n d

lemma garbageIn_congr {settings : Settings} {marks : MarkSet} {b b' : Bucket} (h : b.IsLedger)
    (h' : b'.IsLedger) {n : RepositoryName}
    (same : ∀ d, b.Has (candidate settings n d) ↔ b'.Has (candidate settings n d)) :
    garbageIn settings marks b n = garbageIn settings marks b' n := by
  have listed : listCandidates settings b n = listCandidates settings b' n :=
    eq_of_ascending (pairwise_listCandidates _ _ _) (pairwise_listCandidates _ _ _) fun d => by
      rw [mem_listCandidates h, mem_listCandidates h', same]
  rw [garbageIn, garbageIn, listed]

/-- What a repository loses because it is not in use there. -/
def Sheds (settings : Settings) (marks : MarkSet) (b : Bucket) (n : RepositoryName) (r : Record) :
    Prop :=
  ∃ d, marks.containsIn n d = false ∧ Removal.blobRecords settings n d r ∧
    (settings.separateBlobs = true → b.Has (.blob (.ofRepository n) d))

theorem sweeps_sweepRepository (h : b.IsLedger) (settings : Settings) (options : CollectionOptions)
    (marks : MarkSet) (n : RepositoryName) :
    (sweepRepository options marks ⟨settings, n⟩).Sweeps s cache b
      (fun r => options.dryRun = false ∧ Sheds settings marks b n r)
      fun garbage => garbage = garbageIn settings marks b n := by
  have swept : ((garbageIn settings marks b n).forM fun d => unlessDry options
      (Removal.repositoryBlob settings n d)).Sweeps s cache b _ fun _ => True :=
    .forM (fun d _ b h =>
      (Removal.sweeps_repositoryBlob s cache h settings n d).unlessDry options h) h
  obtain ⟨_, b', ran, drops, _⟩ := swept
  refine ⟨_, b', ?_, drops.congr fun r lawful has => ?_, rfl⟩
  · rw [sweepRepository, run_bind, run_candidates]
    simp only [run_bind]
    rw [← garbageIn, ran]
    rfl
  simp only [garbageIn, List.mem_filter, mem_listCandidates h, Bool.not_eq_true', Sheds]
  constructor
  · rintro ⟨d, ⟨held, unmarked⟩, active, condemned⟩
    exact ⟨active, d, unmarked, condemned,
      fun separate => by simpa [candidate, separate] using held⟩
  · rintro ⟨active, d, unmarked, condemned, stored⟩
    refine ⟨d, ⟨?_, unmarked⟩, active, condemned⟩
    unfold candidate
    split_ifs with separate
    · exact stored separate
    · obtain rfl | ⟨separate', _⟩ := condemned
      · exact has
      · exact absurd separate' separate

lemma has_candidate_of_other {settings : Settings} {options : CollectionOptions} {marks : MarkSet}
    {b' : Bucket} {m n : RepositoryName} (other : n ≠ m)
    (drops : b.Drops b' fun r => options.dryRun = false ∧ Sheds settings marks b m r) (d : Digest) :
    b'.Has (candidate settings n d) ↔ b.Has (candidate settings n d) := by
  rw [drops.has (isLawful_candidate settings n d), and_iff_left]
  rintro ⟨-, e, -, records, -⟩
  unfold candidate Removal.blobRecords at records
  split_ifs at records
  · rcases records with same | ⟨-, same⟩
    · cases same
    · cases same
      exact other rfl
  · rcases records with same | ⟨-, same⟩
    · cases same
      exact other rfl
    · cases same

def reportSwept (settings : Settings) (marks : MarkSet) (b : Bucket) (names : List RepositoryName)
    (report : CollectionReport) : CollectionReport :=
  names.foldl (fun report n => addSwept report ⟨settings, n⟩ (garbageIn settings marks b n)) report

lemma reportSwept_congr {settings : Settings} {marks : MarkSet} {b b' : Bucket}
    {names : List RepositoryName} (report : CollectionReport)
    (same : ∀ n ∈ names, garbageIn settings marks b n = garbageIn settings marks b' n) :
    reportSwept settings marks b names report = reportSwept settings marks b' names report := by
  induction names generalizing report with
  | nil => rfl
  | cons n names ih =>
    rw [reportSwept, List.foldl_cons, same n List.mem_cons_self]
    exact ih _ fun m mem => same m (List.mem_cons_of_mem n mem)

theorem sweeps_sweepAll (h : b.IsLedger) (settings : Settings) (options : CollectionOptions)
    (marks : MarkSet) {names : List RepositoryName} (nodup : names.Nodup)
    (report : CollectionReport) :
    (sweepAll options marks (names.map fun n => ⟨settings, n⟩) report).Sweeps s cache b
      (fun r => options.dryRun = false ∧ ∃ n ∈ names, Sheds settings marks b n r)
      fun report' => report' = reportSwept settings marks b names report := by
  induction names generalizing b report with
  | nil => exact .pure h rfl (by simp)
  | cons m names ih =>
    obtain ⟨fresh, nodup⟩ := List.nodup_cons.1 nodup
    obtain ⟨garbage, b', ran, drops, rfl⟩ :=
      sweeps_sweepRepository s cache h settings options marks m
    obtain ⟨report', b'', ran', drops', same⟩ := ih drops.1 nodup
      (addSwept report ⟨settings, m⟩ (garbageIn settings marks b m))
    have spared (n : RepositoryName) (mem : n ∈ names) (d : Digest) :
        b'.Has (candidate settings n d) ↔ b.Has (candidate settings n d) :=
      has_candidate_of_other (ne_of_mem_of_not_mem mem fresh) drops d
    refine ⟨report', b'', ?_, (drops.trans drops').congr fun r _ _ => ?_, ?_⟩
    · rw [List.map_cons, sweepAll, run_bind, ran]
      exact ran'
    · have sheds (n : RepositoryName) (mem : n ∈ names) :
          Sheds settings marks b' n r ↔ Sheds settings marks b n r := by
        refine exists_congr fun d => and_congr_right fun _ => and_congr_right fun _ =>
          forall_congr' fun separate => ?_
        simpa [candidate, separate] using spared n mem d
      simp only [List.mem_cons, exists_eq_or_imp, ← and_or_left]
      refine and_congr_right fun _ => or_congr_right (exists_congr fun n => ?_)
      exact and_congr_right fun mem => sheds n mem
    · rw [same]
      exact reportSwept_congr _ fun n mem => garbageIn_congr drops.1 h (spared n mem)

/-- What is dropped with the manifests that are not in use. -/
def Deletes (deletions : List ManifestDeletion) (r : Record) : Prop :=
  ∃ deletion ∈ deletions,
    Removal.manifestRecords deletion.repository deletion.digest deletion.tags r

lemma not_deletes_blob {deletions : List ManifestDeletion} {store : BlobStore} {d : Digest} :
    ¬Deletes deletions (.blob store d) := by
  rintro ⟨_, _, ⟨_, same⟩ | ⟨_, _, same⟩⟩ <;> cases same

def reportMarked (options : CollectionOptions) (found : Marking) : CollectionReport where
  marked := found.marks.size
  manifestsDeleted := found.deletions
  dryRun := options.dryRun

theorem sweeps_sweep (h : b.IsLedger) (settings : Settings) (options : CollectionOptions)
    (found : Marking)
    (accepted : ∀ deletion ∈ found.deletions, ∀ t ∈ deletion.tags, TagName.accepts t = true)
    {names : List RepositoryName} (nodup : names.Nodup) :
    (sweep options (names.map fun n => ⟨settings, n⟩) found).Sweeps s cache b
      (fun r => options.dryRun = false ∧ (Deletes found.deletions r ∨
        ∃ n ∈ names, Sheds settings found.marks b n r))
      fun report => ∃ b₁, b.Drops b₁ (fun r => options.dryRun = false ∧ Deletes found.deletions r) ∧
        report = reportSwept settings found.marks b₁ names (reportMarked options found) := by
  have deleted : (found.deletions.forM fun deletion => unlessDry options (Removal.manifest
      deletion.repository deletion.digest deletion.tags)).Sweeps s cache b _ fun _ => True :=
    .forM (fun deletion mem b h => (Removal.sweeps_manifest s cache h
      deletion.repository deletion.digest (accepted deletion mem)).unlessDry options h) h
  obtain ⟨_, b₁, ran, drops, _⟩ := deleted
  have deletes : b.Drops b₁ fun r => options.dryRun = false ∧ Deletes found.deletions r :=
    drops.congr fun r _ _ => by
      simp only [Deletes]
      tauto
  obtain ⟨report, b', ran', drops', same⟩ := sweeps_sweepAll s cache drops.1 settings options
    found.marks nodup (reportMarked options found)
  refine ⟨report, b', ?_, (deletes.trans drops').congr fun r _ _ => ?_, b₁, deletes, same⟩
  · rw [sweep, run_bind, ran]
    exact ran'
  · have blobs (n : RepositoryName) (d : Digest) :
        b₁.Has (.blob (.ofRepository n) d) ↔ b.Has (.blob (.ofRepository n) d) := by
      rw [deletes.has (r := .blob (.ofRepository n) d) trivial, and_iff_left]
      exact fun condemned => not_deletes_blob condemned.2
    have sheds (n : RepositoryName) :
        Sheds settings found.marks b₁ n r ↔ Sheds settings found.marks b n r := by
      simp only [Sheds, blobs]
    simp only [sheds, ← and_or_left]

def garbageShared (marks : MarkSet) (b : Bucket) : List Digest :=
  (b.storedDigests .shared).filter fun d => !marks.contains d

theorem sweeps_sweepShared (h : b.IsLedger) (options : CollectionOptions) (marks : MarkSet) :
    (sweepShared options marks).Sweeps s cache b
      (fun r => options.dryRun = false ∧ ∃ d, marks.contains d = false ∧ r = .blob .shared d)
      fun garbage => garbage = garbageShared marks b := by
  have swept : ((garbageShared marks b).forM fun d => unlessDry options
      (Removal.sharedBlob d)).Sweeps s cache b _ fun _ => True :=
    .forM (fun d _ b h => (Removal.sweeps_erase s cache (r := .blob .shared d) h trivial).unlessDry
      options h) h
  obtain ⟨_, b', ran, drops, _⟩ := swept
  refine ⟨_, b', ?_, drops.congr fun r _ has => ?_, rfl⟩
  · rw [sweepShared, run_bind, Site.run_whileListing _ (s.run_enumerateBlobs cache .shared)]
    simp only [run_bind]
    rw [← garbageShared, ran]
    rfl
  · simp only [garbageShared, List.mem_filter, h.mem_storedDigests, Bool.not_eq_true']
    constructor
    · rintro ⟨d, ⟨_, unmarked⟩, active, rfl⟩
      exact ⟨active, d, unmarked, rfl⟩
    · rintro ⟨active, d, unmarked, rfl⟩
      exact ⟨d, ⟨has, unmarked⟩, active, rfl⟩

end Collector
end ImageRegistry
