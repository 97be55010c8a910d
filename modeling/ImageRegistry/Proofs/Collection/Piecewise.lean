import ImageRegistry.Proofs.Collection.Rehearsal
import ImageRegistry.Proofs.Registry.Integrity
import ImageRegistry.Proofs.Registry.Tenancy

/-! A run of the whole registry does what runs of its repositories do one after another, in any
order, and then removes from the shared store what none of them marked: to sweep one repository
changes nothing that is read when another one is marked. -/

namespace ImageRegistry

open World

variable {settings : Settings} {options : CollectionOptions} {n m : RepositoryName}

namespace Marking

lemma agrees_load (p : Pending) :
    (load ⟨settings, n⟩ p).Agrees settings n Eq (load ⟨settings, n⟩ p) := by
  unfold load
  rw [map_eq_pure_bind]
  refine ((Manifests.agrees_get p.digest).bind fun m _ same => .pure (congrArg some same)).tryCatch
    fun e => ?_
  cases e
  case manifestUnknown name d =>
    dsimp only
    split_ifs
    · exact .pure rfl
    · exact .throw _
  all_goals exact .throw _

/-- What is to be removed from a repository, with tags that are accepted. -/
def AreIn (n : RepositoryName) (deletions : List ManifestDeletion) : Prop :=
  ∀ deletion ∈ deletions, deletion.repository = n ∧
    ∀ t ∈ deletion.tags, TagName.accepts t = true

lemma agrees_sort (listed : List Digest) (pending : List Pending) :
    (sort options n listed pending).Agrees settings n (fun x x' => x' = x ∧ AreIn n x.2)
      (sort options n listed pending) := by
  induction listed generalizing pending with
  | nil => exact .pure ⟨rfl, fun _ mem => absurd mem List.not_mem_nil⟩
  | cons d listed ih =>
    rw [sort]
    split_ifs with remove
    · refine ((Tags.agrees_lookup d).whileListing _).bind fun tags tags' same => ?_
      obtain ⟨rfl, -⟩ := same
      split_ifs
      · refine (Tags.agrees_all.whileListing _).bind fun tags tags' same => ?_
        obtain ⟨rfl, accepted⟩ := same
        refine (ih pending).bind fun found found' same => ?_
        obtain ⟨rfl, own⟩ := same
        exact .pure ⟨rfl, List.forall_mem_cons.2 ⟨⟨rfl, accepted⟩, own⟩⟩
      · exact ih _
    · exact ih _

lemma agrees_addTagged (listed : List Digest) {tags : List String}
    (accepted : ∀ t ∈ tags, TagName.accepts t = true) (pending : List Pending) :
    (addTagged n listed tags pending).Agrees settings n Eq (addTagged n listed tags pending) := by
  induction tags generalizing pending with
  | nil => exact .pure rfl
  | cons t tags ih =>
    have later : ∀ u ∈ tags, TagName.accepts u = true := fun u mem =>
      accepted u (List.mem_cons_of_mem t mem)
    rw [addTagged]
    refine ((Tags.agrees_find? (accepted t List.mem_cons_self)).whileListing _).bind
      fun found _ same => ?_
    subst same
    cases found with
    | none => exact ih later pending
    | some d =>
      dsimp only
      split_ifs
      · exact ih later pending
      · exact ih later _

def SameIn (n : RepositoryName) (marks marks' : MarkSet) : Prop :=
  ∀ d, marks.containsIn n d = marks'.containsIn n d

lemma SameIn.mark {marks marks' : MarkSet} (same : SameIn n marks marks') (d : Digest) :
    SameIn n (marks.mark n d) (marks'.mark n d) := fun e => by
  rw [Bool.eq_iff_iff, MarkSet.containsIn_mark, MarkSet.containsIn_mark, same e]

lemma SameIn.markAll {marks marks' : MarkSet} (same : SameIn n marks marks') (ds : List Digest) :
    SameIn n (marks.markAll n ds) (marks'.markAll n ds) := fun e => by
  rw [Bool.eq_iff_iff, MarkSet.containsIn_markAll, MarkSet.containsIn_markAll, same e]

lemma GrowsIn.eq_of_ne {marks marks' : MarkSet} (grows : GrowsIn n marks marks') (other : m ≠ n)
    (d : Digest) : marks'.containsIn m d = marks.containsIn m d :=
  Bool.eq_iff_iff.2 ⟨grows.2 m d other, grows.1 m d⟩

theorem agrees_trace {marks marks' : MarkSet} (same : SameIn n marks marks')
    (pending : List Pending) :
    (trace ⟨settings, n⟩ marks pending).Agrees settings n
      (fun x x' => SameIn n x x' ∧ GrowsIn n marks' x' ∧ (marks = marks' → x = x'))
      (trace ⟨settings, n⟩ marks' pending) := by
  induction marks, pending using trace.induct ⟨settings, n⟩ generalizing marks' with
  | case1 marks =>
    rw [trace, trace]
    exact .pure ⟨same, .refl _ _, id⟩
  | case2 marks p rest marked ih =>
    rw [trace, dif_pos marked, trace, dif_pos ((same p.digest).symm.trans marked)]
    exact ih same
  | case3 marks p rest unmarked ihNone ihSome =>
    have unmarked' : ¬marks'.containsIn n p.digest = true := same p.digest ▸ unmarked
    have first := growsIn_mark n marks' p.digest
    rw [trace, dif_neg unmarked, trace, dif_neg unmarked']
    refine (agrees_load p).bind fun found _ same' => ?_
    subst same'
    cases found with
    | none =>
      exact (ihNone (same.mark p.digest)).weaken fun _ _ kept =>
        ⟨kept.1, first.trans kept.2.1, fun h => kept.2.2 (h ▸ rfl)⟩
    | some m =>
      have second := first.trans (growsIn_markAll n _ (parts m))
      exact (ihSome m ((same.mark p.digest).markAll (parts m))).weaken
        fun _ _ kept => ⟨kept.1, second.trans kept.2.1, fun h => kept.2.2 (h ▸ rfl)⟩

theorem agrees_markRepository {found found' : Marking} (same : SameIn n found.marks found'.marks) :
    (markRepository options ⟨settings, n⟩ found).Agrees settings n
      (fun x x' => SameIn n x.marks x'.marks ∧ GrowsIn n found'.marks x'.marks ∧
        (found.marks = found'.marks → x.marks = x'.marks) ∧
        ∃ garbage, AreIn n garbage ∧ x.deletions = found.deletions ++ garbage ∧
          x'.deletions = found'.deletions ++ garbage)
      (markRepository options ⟨settings, n⟩ found') := by
  unfold markRepository
  refine ((LinkStore.agrees_enumerate (Repository.manifests ⟨settings, n⟩)).whileListing _).bind
    fun listed _ same' => ?_
  subst same'
  refine (agrees_sort listed []).bind fun sorted sorted' same' => ?_
  obtain ⟨rfl, own⟩ := same'
  refine (Tags.agrees_all.whileListing _).bind fun tags tags' same' => ?_
  obtain ⟨rfl, accepted⟩ := same'
  refine (agrees_addTagged listed accepted sorted'.1).bind fun pending _ same' => ?_
  subst same'
  refine (agrees_trace same pending).bind fun marks marks' ⟨again, grows, equal⟩ =>
    .pure ⟨again, grows, equal, _, fun deletion mem => own _ (List.mem_of_mem_filter mem), rfl, ?_⟩
  simp only [again _]

/-- What is known of a marking of some repositories, whatever manifests were found. -/
abbrev Covers (settings : Settings) (options : CollectionOptions) (b : Bucket)
    (names : List RepositoryName) (found : Marking) : Prop :=
  Settles settings options b (fun _ _ => True) (fun _ _ => True) (fun _ _ _ => False) names found

/-- What a repository alone was found to have in use. -/
def FindsAlone (settings : Settings) (options : CollectionOptions) (w : World) (n : RepositoryName)
    (alone : Marking) : Prop :=
  (w.run (markRepository options ⟨settings, n⟩ {})).1 = .ok alone

variable {s : Site} {h h' : Holdings}

/-- A repository that was marked alone can be marked after others, where registries look alike to
it: the same is found to be in use. -/
lemma run_markRepository_alike {alone : Marking}
    (finds : FindsAlone settings options (s.world h.bucket h.cache) n alone)
    (alike : h.Alike settings n h') {names : List RepositoryName} (fresh : n ∉ names)
    {found : Marking} (covers : Covers settings options h'.bucket names found) :
    ∃ x cache', (s.world h'.bucket h'.cache).run (markRepository options ⟨settings, n⟩ found) =
        (.ok x, s.world h'.bucket cache') ∧
      Covers settings options h'.bucket (n :: names) x ∧ SameIn n alone.marks x.marks ∧
      GrowsIn n found.marks x.marks ∧ x.deletions = found.deletions ++ alone.deletions ∧
      cache'.IsFaithful ∧ ∀ m ≠ n, h'.Alike settings m ⟨h'.bucket, cache'⟩ := by
  have unmarked : SameIn n ({} : Marking).marks found.marks := fun d => by
    refine (Bool.eq_false_iff.2 fun marked => ?_).symm
    exact fresh (covers.only n d marked)
  have ledger' := alike.sound'.isLedger
  obtain ⟨x, cache', ran, faithful, good, -⟩ := run_markRepository (s := s) ledger'
    (loading_of_isSound ledger' ⟨settings, n⟩) (fun _ _ _ => trivial) (fun _ _ => trivial) fresh
    covers alike.sound'.isFaithful
  obtain ⟨y, y', h₁, h₁', ran₁, ran₁', outcome, -, unseen⟩ :=
    agrees_markRepository unmarked s h h' alike
  obtain ⟨rfl, sameWorld⟩ := Prod.mk.inj (ran.symm.trans ran₁')
  obtain ⟨sameBucket, sameCache⟩ := Site.eq_of_world_eq sameWorld
  rw [FindsAlone, ran₁] at finds
  cases outcome with
  | error e => cases finds
  | @ok y x related =>
    obtain rfl := Except.ok.inj finds
    obtain ⟨again, grows, -, garbage, -, deletions, deletions'⟩ := related
    refine ⟨x, cache', ran, good x rfl, again, grows, ?_, faithful, fun m other => ?_⟩
    · rw [deletions', deletions]
      rfl
    · rw [sameBucket, sameCache]
      exact (unseen m other).2

lemma FindsAlone.covers {alone : Marking} (sound : h.IsSound)
    (finds : FindsAlone settings options (s.world h.bucket h.cache) n alone) :
    Covers settings options h.bucket [n] alone := by
  obtain ⟨x, cache', ran, covers, -⟩ :=
    run_markRepository_alike finds (sound.alike settings n) List.not_mem_nil settles_nil
  rw [FindsAlone, ran] at finds
  obtain rfl := Except.ok.inj finds
  exact covers

/-- A marking of some repositories that joins what each of them was found to have in use alone. -/
structure Joins (names : List RepositoryName) (alone : RepositoryName → Marking)
    (found : Marking) : Prop where
  only : ∀ n d, found.marks.containsIn n d = true → n ∈ names
  same : ∀ n ∈ names, SameIn n (alone n).marks found.marks
  deletions : found.deletions = names.flatMap fun n => (alone n).deletions
  onlyAlone : ∀ n ∈ names, ∀ m d, (alone n).marks.containsIn m d = true → m = n
  ownAlone : ∀ n ∈ names, ∀ deletion ∈ (alone n).deletions, deletion.repository = n

lemma Joins.contains_eq {names : List RepositoryName} {alone : RepositoryName → Marking}
    {found : Marking} (joins : Joins names alone found) (d : Digest) :
    found.marks.contains d = names.any fun n => (alone n).marks.contains d := by
  rw [Bool.eq_iff_iff, List.any_eq_true, MarkSet.contains_iff]
  simp only [MarkSet.contains_iff]
  constructor
  · rintro ⟨n, marked⟩
    have hn := joins.only n d marked
    exact ⟨n, hn, n, (joins.same n hn d).trans marked⟩
  · rintro ⟨n, hn, m, marked⟩
    obtain rfl := joins.onlyAlone n hn m d marked
    exact ⟨m, (joins.same m hn d).symm.trans marked⟩

/-- Repositories that can be marked alone are marked one after another, with the same marks and the
same garbage. -/
theorem run_markNamed_alike {alone : RepositoryName → Marking}
    {names rest : List RepositoryName} (fresh : ∀ n ∈ rest, n ∉ names) (nodup : rest.Nodup)
    (finds : ∀ n ∈ rest, FindsAlone settings options (s.world h.bucket h.cache) n (alone n))
    {cache : DescriptorCache} (alike : ∀ n ∈ rest, h.Alike settings n ⟨h.bucket, cache⟩)
    (faithful : cache.IsFaithful) {found : Marking}
    (covers : Covers settings options h.bucket names found) :
    ∃ x cache', (s.world h.bucket cache).run (markNamed options settings rest found) =
        (.ok (rest.map fun n => ⟨settings, n⟩, x), s.world h.bucket cache') ∧
      Covers settings options h.bucket (rest.reverse ++ names) x ∧
      (∀ n ∈ rest, SameIn n (alone n).marks x.marks) ∧
      (∀ m ∉ rest, SameIn m found.marks x.marks) ∧
      x.deletions = found.deletions ++ rest.flatMap fun n => (alone n).deletions := by
  induction rest generalizing names found cache with
  | nil => exact ⟨found, cache, rfl, covers, by simp, fun _ _ _ => rfl, by simp⟩
  | cons n rest ih =>
    obtain ⟨isFirst, nodup⟩ := List.nodup_cons.1 nodup
    obtain ⟨found', cache', ran, covers', same, grows, deletions, faithful', unseen⟩ :=
      run_markRepository_alike (finds n List.mem_cons_self) (alike n List.mem_cons_self)
        (fresh n List.mem_cons_self) covers
    have later : ∀ m ∈ rest, m ∉ n :: names := fun m hm mem => by
      rcases List.mem_cons.1 mem with rfl | mem
      · exact isFirst hm
      · exact fresh m (List.mem_cons_of_mem n hm) mem
    have alike' : ∀ m ∈ rest, h.Alike settings m ⟨h.bucket, cache'⟩ := fun m hm =>
      (alike m (List.mem_cons_of_mem n hm)).trans (unseen m (ne_of_mem_of_not_mem hm isFirst))
    obtain ⟨x, cache'', ran', covers'', sameRest, sameOthers, deletions'⟩ := ih later nodup
      (fun m hm => finds m (List.mem_cons_of_mem n hm)) alike' faithful' covers'
    refine ⟨x, cache'', ?_, by simpa using covers'', fun m hm => ?_, fun m hm => ?_, ?_⟩
    · rw [markNamed, run_bind, faithful.run_openNamed]
      simp only [run_bind, ran, ran', run_pure, List.map_cons]
    · rcases List.mem_cons.1 hm with rfl | hm
      · exact fun d => (same d).trans (sameOthers m isFirst d)
      · exact sameRest m hm
    · have other : m ≠ n := fun same => hm (same ▸ List.mem_cons_self)
      exact fun d => ((grows.eq_of_ne other d).symm).trans
        (sameOthers m (fun mem => hm (List.mem_cons_of_mem n mem)) d)
    · rw [deletions', deletions, List.flatMap_cons, List.append_assoc]

end Marking

namespace Collector

open Marking

variable {s : Site} {h h' : Holdings}

/-- The links that a run removes from a repository: those of garbage, apart from manifests. -/
def removedLinks (settings : Settings) (found : Marking) (b : Bucket) (n : RepositoryName) :
    List (RepositoryName × Digest) :=
  if settings.separateBlobs then []
  else ((garbageIn settings found.marks b n).filter fun d =>
    ¬IsDeleted found.deletions (n, d)).map fun d => (n, d)

lemma linksRemoved_reportOn {b b₁ : Bucket} (ledger : b.IsLedger) {found : Marking}
    (drops : b.Drops b₁ (Deletes found.deletions)) (scope : Option RepositoryName)
    (names : List RepositoryName) :
    (reportOn options settings scope names found b₁).linksRemoved =
      names.flatMap fun n => removedLinks settings found b n := by
  by_cases separate : settings.separateBlobs = true
  · simp [linksRemoved_of_separate separate, removedLinks, separate]
  · have shared : settings.separateBlobs = false := Bool.eq_false_iff.2 separate
    cases scope <;>
      simp [reportOn, reportSwept_eq, shared, reportMarked, removedLinks,
        garbageIn_of_shared shared ledger drops]

lemma garbageIn_sameIn {marks marks' : MarkSet} (same : SameIn n marks marks') (b : Bucket) :
    garbageIn settings marks b n = garbageIn settings marks' b n :=
  List.filter_congr fun d _ => by rw [same d]

lemma sheds_congr {marks marks' : MarkSet} (same : SameIn n marks marks')
    (alike : h.Alike settings n h') (r : Record) :
    Sheds settings marks h.bucket n r ↔ Sheds settings marks' h'.bucket n r := by
  refine exists_congr fun d => ?_
  rw [same d, alike.has_iff (r := .blob (.ofRepository n) d) trivial (.inl rfl)]

lemma removedLinks_congr {found found' : Marking} (same : SameIn n found.marks found'.marks)
    (deleted : ∀ d, IsDeleted found.deletions (n, d) ↔ IsDeleted found'.deletions (n, d))
    (alike : h.Alike settings n h') :
    removedLinks settings found h.bucket n = removedLinks settings found' h'.bucket n := by
  have garbage : garbageIn settings found.marks h.bucket n =
      garbageIn settings found'.marks h'.bucket n := by
    rw [garbageIn_sameIn same,
      garbageIn_congr alike.sound.isLedger alike.sound'.isLedger fun d => ?_]
    refine alike.has_iff (isLawful_candidate settings n d) ?_
    unfold candidate
    split_ifs <;> exact .inl rfl
  rw [removedLinks, removedLinks, garbage]
  simp only [deleted]

/-- What a run drops for one repository. -/
def Loses (settings : Settings) (found : Marking) (b : Bucket) (n : RepositoryName) (r : Record) :
    Prop :=
  Deletes found.deletions r ∨ Sheds settings found.marks b n r

lemma not_loses_of_ne {alone : Marking} {b : Bucket}
    (own : ∀ deletion ∈ alone.deletions, deletion.repository = n) (other : m ≠ n) {r : Record}
    (matters : r.MattersTo settings m) : ¬Loses settings alone b n r := by
  have owned (owner : r.owner? = some n) (noContent : ∀ store d, r ≠ .blob store d) : False := by
    rcases matters with owner' | ⟨d, same⟩
    · exact other (Option.some.inj (owner'.symm.trans owner))
    · exact noContent _ d same
  rintro (⟨deletion, mem, ⟨kind, rfl⟩ | ⟨t, -, rfl⟩⟩ | ⟨d, -, rfl | ⟨separate, rfl⟩, -⟩)
  · exact owned (congrArg some (own deletion mem)) nofun
  · exact owned (congrArg some (own deletion mem)) nofun
  · exact owned rfl nofun
  · rcases matters with owner | ⟨e, same⟩
    · exact other (Option.some.inj owner).symm
    · rw [Settings.blobStore, if_pos separate] at same
      cases same
      exact other rfl

/-- A run of one repository drops what it finds there alone, wherever registries look alike to the
repository, and other repositories see nothing of it. -/
theorem run_runRepository_alike (active : options.dryRun = false) {alone : Marking}
    (finds : FindsAlone settings options (s.world h.bucket h.cache) n alone)
    (alike : h.Alike settings n h') :
    ∃ report, ∃ left : Holdings,
      (s.world h'.bucket h'.cache).run (runRepository options settings n) =
        (.ok report, s.world left.bucket left.cache) ∧ left.IsSound ∧
      h'.bucket.Drops left.bucket (Loses settings alone h.bucket n) ∧
      report.manifestsDeleted = alone.deletions ∧
      report.linksRemoved = removedLinks settings alone h.bucket n ∧
      ∀ m ≠ n, h'.Alike settings m left := by
  obtain ⟨found, cache', ran, covers, same, -, deletions, faithful, unseen⟩ :=
    run_markRepository_alike finds alike List.not_mem_nil settles_nil
  replace deletions : found.deletions = alone.deletions := deletions
  have ledger' := alike.sound'.isLedger
  have marked : (s.world h'.bucket h'.cache).run (mark options settings (some n)) =
      (.ok ([⟨settings, n⟩], found), s.world h'.bucket cache') := by
    rw [mark, run_bind, alike.sound'.isFaithful.run_openNamed]
    simp only [run_bind, ran, run_pure]
  have once : [n].Nodup := List.nodup_cons.2 ⟨List.not_mem_nil, .nil⟩
  obtain ⟨b₁, b', ran', deletes, drops⟩ := run_finish (s := s) settings options (some n) cache' once
    ledger'
    fun deletion mem t isTag => (((covers.unmarked deletion mem).2.2 t).1 isTag).1
  have drops' : h'.bucket.Drops b' (Loses settings alone h.bucket n) := by
    refine drops.congr fun r _ _ => ?_
    simp only [Condemned, active, true_and, List.mem_singleton, exists_eq_left, reduceCtorEq,
      false_and, or_false, deletions, Loses, sheds_congr same alike r]
  have spared (m : RepositoryName) (other : m ≠ n) :
      Holdings.Alike settings m ⟨h'.bucket, cache'⟩ ⟨b', cache'⟩ :=
    .of_drops ⟨ledger', faithful⟩ drops' fun r matters =>
      not_loses_of_ne (fun deletion mem => List.mem_singleton.1
        ((finds.covers alike.sound).unmarked deletion mem).1) other matters
  refine ⟨reportOn options settings (some n) [n] found b₁, ⟨b', cache'⟩, ?_, ⟨drops.1, faithful⟩,
    drops', manifestsDeleted_reportOn.trans deletions, ?_,
    fun m other => (unseen m other).trans (spared m other)⟩
  · have split : runRepository options settings n = _ := collect_eq options settings (some n)
    rw [split, run_bind, marked]
    exact ran'
  · have only : h'.bucket.Drops b₁ (Deletes found.deletions) :=
      deletes.congr fun r _ _ => and_iff_right active
    rw [linksRemoved_reportOn ledger' only, List.flatMap_singleton]
    exact (removedLinks_congr same (fun d => by rw [deletions]) alike).symm

theorem run_mapM_alike (active : options.dryRun = false) {alone : RepositoryName → Marking}
    {order : List RepositoryName} (nodup : order.Nodup)
    (finds : ∀ n ∈ order, FindsAlone settings options (s.world h.bucket h.cache) n (alone n))
    (sound : h'.IsSound) (alike : ∀ n ∈ order, h.Alike settings n h') :
    ∃ reports, ∃ left : Holdings, (s.world h'.bucket h'.cache).run
        (order.mapM (runRepository options settings)) =
          (.ok reports, s.world left.bucket left.cache) ∧
      h'.bucket.Drops left.bucket
        (fun r => ∃ n ∈ order, Loses settings (alone n) h.bucket n r) ∧
      (reports.flatMap fun report => report.manifestsDeleted) =
        (order.flatMap fun n => (alone n).deletions) ∧
      (reports.flatMap fun report => report.linksRemoved) =
        order.flatMap fun n => removedLinks settings (alone n) h.bucket n := by
  induction order generalizing h' with
  | nil => exact ⟨[], h', rfl, .none sound.isLedger (by simp), rfl, rfl⟩
  | cons n order ih =>
    obtain ⟨isFirst, nodup⟩ := List.nodup_cons.1 nodup
    obtain ⟨report, left, ran, sound', drops, deleted, removed, unseen⟩ :=
      run_runRepository_alike active (finds n List.mem_cons_self) (alike n List.mem_cons_self)
    have alike' : ∀ m ∈ order, h.Alike settings m left := fun m hm =>
      (alike m (List.mem_cons_of_mem n hm)).trans (unseen m (ne_of_mem_of_not_mem hm isFirst))
    obtain ⟨reports, left', ran', drops', deleted', removed'⟩ := ih nodup
      (fun m hm => finds m (List.mem_cons_of_mem n hm)) sound' alike'
    refine ⟨report :: reports, left', ?_, (drops.trans drops').congr fun r _ _ => by simp, ?_, ?_⟩
    · rw [List.mapM_cons, run_bind, ran]
      simp only [run_bind, ran', run_pure]
    · rw [List.flatMap_cons, List.flatMap_cons, deleted, deleted']
    · rw [List.flatMap_cons, List.flatMap_cons, removed, removed']

section

variable {names : List RepositoryName} {alone : RepositoryName → Marking} {found : Marking}

lemma deletes_of_joins (joins : Joins names alone found) (r : Record) :
    Deletes found.deletions r ↔ ∃ n ∈ names, Deletes (alone n).deletions r := by
  simp only [Deletes, joins.deletions, List.mem_flatMap]
  constructor
  · rintro ⟨deletion, ⟨n, hn, mem⟩, isOne⟩
    exact ⟨n, hn, deletion, mem, isOne⟩
  · rintro ⟨n, hn, deletion, mem, isOne⟩
    exact ⟨deletion, ⟨n, hn, mem⟩, isOne⟩

lemma isDeleted_of_joins (joins : Joins names alone found) (hn : n ∈ names) (d : Digest) :
    IsDeleted (alone n).deletions (n, d) ↔ IsDeleted found.deletions (n, d) := by
  simp only [IsDeleted, joins.deletions, List.mem_flatMap]
  constructor
  · rintro ⟨deletion, mem, named⟩
    exact ⟨deletion, ⟨n, hn, mem⟩, named⟩
  · rintro ⟨deletion, ⟨m, hm, mem⟩, named, same⟩
    obtain rfl : n = m := named.symm.trans (joins.ownAlone m hm deletion mem)
    exact ⟨deletion, mem, named, same⟩

end

/-- Runs of some repositories one after another. Then everything that is not in use goes from the
shared store, if that is where contents are. -/
def runEach (options : CollectionOptions) (settings : Settings) (order : List RepositoryName)
    (inUse : Digest → Bool) : Action (List CollectionReport) := do
  let reports ← order.mapM (runRepository options settings)
  if settings.separateBlobs then return reports
  else
    let stored ← BlobStore.enumerate .shared
    (stored.filter fun d => !inUse d).forM Removal.sharedBlob
    return reports

lemma sweeps_sharedBlobs {b : Bucket} (ledger : b.IsLedger) (cache : DescriptorCache)
    (inUse : Digest → Bool) :
    (((b.storedDigests .shared).filter fun d => !inUse d).forM Removal.sharedBlob).Sweeps s cache b
      (fun r => ∃ d, inUse d = false ∧ r = .blob .shared d) fun _ => True := by
  have erased : (((b.storedDigests .shared).filter fun d => !inUse d).forM
      Removal.sharedBlob).Sweeps s cache b _ fun _ => True :=
    .forM (fun d _ b ledger => Removal.sweeps_erase s cache (r := .blob .shared d) ledger trivial)
      ledger
  refine erased.congr fun r _ has => ?_
  simp only [List.mem_filter, ledger.mem_storedDigests, Bool.not_eq_true']
  constructor
  · rintro ⟨d, ⟨-, unused⟩, rfl⟩
    exact ⟨d, unused, rfl⟩
  · rintro ⟨d, unused, rfl⟩
    exact ⟨d, ⟨has, unused⟩, rfl⟩

lemma run_runEach (sound : h.IsSound) (active : options.dryRun = false)
    {alone : RepositoryName → Marking} {order : List RepositoryName} (nodup : order.Nodup)
    (finds : ∀ n ∈ order, FindsAlone settings options (s.world h.bucket h.cache) n (alone n))
    (inUse : Digest → Bool) :
    ∃ reports b' cache', (s.world h.bucket h.cache).run (runEach options settings order inUse) =
        (.ok reports, s.world b' cache') ∧
      h.bucket.Drops b' (fun r => (∃ n ∈ order, Loses settings (alone n) h.bucket n r) ∨
        settings.separateBlobs = false ∧ ∃ d, inUse d = false ∧ r = .blob .shared d) ∧
      (reports.flatMap fun report => report.manifestsDeleted) =
        (order.flatMap fun n => (alone n).deletions) ∧
      (reports.flatMap fun report => report.linksRemoved) =
        order.flatMap fun n => removedLinks settings (alone n) h.bucket n := by
  obtain ⟨reports, left, ran, drops, deleted, removed⟩ :=
    run_mapM_alike active nodup finds sound fun n _ => sound.alike settings n
  rw [runEach, run_bind, ran]
  by_cases separate : settings.separateBlobs = true
  · refine ⟨reports, left.bucket, left.cache, ?_, drops.congr fun r _ _ => ?_, deleted, removed⟩
    · dsimp only
      rw [if_pos separate, run_pure]
    · simp [separate]
  · have shared : settings.separateBlobs = false := Bool.eq_false_iff.2 separate
    obtain ⟨_, b', ran', drops', -⟩ := sweeps_sharedBlobs (s := s) drops.1 left.cache inUse
    refine ⟨reports, b', left.cache, ?_, (drops.trans drops').congr fun r _ _ => ?_, deleted,
      removed⟩
    · dsimp only
      rw [if_neg separate, run_bind, s.run_enumerateBlobs]
      dsimp only
      rw [run_bind, ran']
      rfl
    · simp [shared]

lemma run_run_alike (sound : h.IsSound) (active : options.dryRun = false)
    {names : List RepositoryName} (nodup : names.Nodup)
    (listed : (s.world h.bucket h.cache).run Repository.names =
      (.ok names, s.world h.bucket h.cache))
    {alone : RepositoryName → Marking}
    (finds : ∀ n ∈ names, FindsAlone settings options (s.world h.bucket h.cache) n (alone n)) :
    ∃ report b' cache', (s.world h.bucket h.cache).run (run options settings) =
        (.ok report, s.world b' cache') ∧
      h.bucket.Drops b' (fun r => (∃ n ∈ names, Loses settings (alone n) h.bucket n r) ∨
        settings.separateBlobs = false ∧
          ∃ d, (names.any fun n => (alone n).marks.contains d) = false ∧ r = .blob .shared d) ∧
      report.manifestsDeleted = (names.flatMap fun n => (alone n).deletions) ∧
      report.linksRemoved = names.flatMap fun n => removedLinks settings (alone n) h.bucket n := by
  have ledger := sound.isLedger
  obtain ⟨found, cache', ran, covers, same, -, deletions⟩ := run_markNamed_alike
    (fun _ _ => List.not_mem_nil) nodup finds (fun n _ => sound.alike settings n) sound.isFaithful
    settles_nil
  have ofAlone (n : RepositoryName) (hn : n ∈ names) := (finds n hn).covers sound
  have joins : Joins names alone found := {
    only := fun n d isMarked => by simpa using covers.only n d isMarked
    same := same
    deletions := deletions
    onlyAlone := fun n hn m d isMarked => List.mem_singleton.1 ((ofAlone n hn).only m d isMarked)
    ownAlone := fun n hn deletion mem =>
      List.mem_singleton.1 ((ofAlone n hn).unmarked deletion mem).1 }
  have marked : (s.world h.bucket h.cache).run (mark options settings none) =
      (.ok (names.map fun n => ⟨settings, n⟩, found), s.world h.bucket cache') := by
    rw [mark, markAll, run_bind, listed]
    exact ran
  obtain ⟨b₁, b', ran', deletes, drops⟩ := run_finish (s := s) settings options none cache' nodup
    ledger fun deletion mem t isTag => (((covers.unmarked deletion mem).2.2 t).1 isTag).1
  refine ⟨reportOn options settings none names found b₁, b', cache', ?_,
    drops.congr fun r _ _ => ?_, manifestsDeleted_reportOn.trans deletions, ?_⟩
  · have split : run options settings = _ := collect_eq options settings none
    rw [split, run_bind, marked]
    exact ran'
  · have shed : (∃ n ∈ names, Sheds settings (alone n).marks h.bucket n r) ↔
        ∃ n ∈ names, Sheds settings found.marks h.bucket n r :=
      exists_congr fun n => and_congr_right fun hn =>
        sheds_congr (same n hn) (sound.alike settings n) r
    simp only [Condemned, active, true_and, deletes_of_joins joins, joins.contains_eq, Loses,
      and_or_left, exists_or, shed, or_assoc]
  · have only : h.bucket.Drops b₁ (Deletes found.deletions) :=
      deletes.congr fun r _ _ => and_iff_right active
    rw [linksRemoved_reportOn ledger only]
    refine List.flatMap_congr fun n hn => ?_
    exact (removedLinks_congr (same n hn) (isDeleted_of_joins joins hn)
      (sound.alike settings n)).symm

/-- A run of the registry leaves what runs of its repositories leave, one after another in any
order, once everything that none of them found to be in use at first went from the shared store;
and it deletes the same manifests and removes the same links. -/
theorem run_piecewise {w : World} (evolved : Evolved settings w) (active : options.dryRun = false)
    {names : List RepositoryName} (listed : (w.run Repository.names).1 = .ok names)
    {alone : RepositoryName → Marking}
    (finds : ∀ n ∈ names, (w.run (markRepository options ⟨settings, n⟩ {})).1 = .ok (alone n))
    {order : List RepositoryName} (perm : order.Perm names) :
    ∃ report w₁ reports w₂, w.run (run options settings) = (.ok report, w₁) ∧
      w.run (runEach options settings order
        fun d => names.any fun n => (alone n).marks.contains d) =
        (.ok reports, w₂) ∧
      w₁.backend = w₂.backend ∧
      report.manifestsDeleted.Perm (reports.flatMap fun report => report.manifestsDeleted) ∧
      report.linksRemoved.Perm (reports.flatMap fun report => report.linksRemoved) := by
  obtain ⟨s, h, rfl, intact⟩ := evolved.isIntact
  have sound := intact.sound
  obtain ⟨names', ranNames, nodup, -⟩ := s.run_names h.cache sound.isLedger
  rw [ranNames] at listed
  obtain rfl := Except.ok.inj listed
  obtain ⟨report, b', cache', ran, drops, deleted, removed⟩ :=
    run_run_alike sound active nodup ranNames finds
  obtain ⟨reports, b'', cache'', ran', drops', deleted', removed'⟩ :=
    run_runEach sound active (perm.nodup_iff.2 nodup) (fun n hn => finds n (perm.mem_iff.1 hn))
      fun d => names'.any fun n => (alone n).marks.contains d
  have sameBucket : b' = b'' := by
    refine (drops.congr fun r _ _ => ?_).unique drops'
    simp only [perm.mem_iff]
  refine ⟨report, _, reports, _, ran, ran', by rw [sameBucket]; rfl, ?_, ?_⟩
  · rw [deleted, deleted']
    exact perm.symm.flatMap_right _
  · rw [removed, removed']
    exact perm.symm.flatMap_right _

/-- After runs of the repositories, of the shared store what one of them found to be in use is left,
and nothing else. -/
theorem stored_runEach_iff {w : World} (evolved : Evolved settings w)
    (active : options.dryRun = false) (shared : settings.separateBlobs = false)
    {names : List RepositoryName} (nodup : names.Nodup) {alone : RepositoryName → Marking}
    (finds : ∀ n ∈ names, (w.run (markRepository options ⟨settings, n⟩ {})).1 = .ok (alone n))
    {order : List RepositoryName} (perm : order.Perm names) :
    ∃ reports w', w.run (runEach options settings order fun d =>
        names.any fun n => (alone n).marks.contains d) = (.ok reports, w') ∧
      ∀ d, (w'.record? (.blob .shared d)).isSome = true ↔
        (w.record? (.blob .shared d)).isSome = true ∧
          ∃ n ∈ names, (alone n).marks.contains d = true := by
  obtain ⟨s, h, rfl, intact⟩ := evolved.isIntact
  let inUse (d : Digest) : Bool := names.any fun n => (alone n).marks.contains d
  obtain ⟨reports, b', cache', ran, drops, -⟩ := run_runEach intact.sound active
    (perm.nodup_iff.2 nodup) (fun n hn => finds n (perm.mem_iff.1 hn)) inUse
  refine ⟨reports, _, ran, fun d => ?_⟩
  have kept (n : RepositoryName) : ¬Loses settings (alone n) h.bucket n (.blob .shared d) := by
    rintro (deleted | ⟨e, -, same | ⟨-, same⟩, -⟩)
    · exact not_deletes_blob deleted
    · cases same
    · cases same
  rw [Site.record?_world, Site.record?_world]
  refine (drops.has (r := .blob .shared d) trivial).trans (and_congr_right fun _ => ?_)
  simp [kept, shared, inUse]

/-- A repository below which the one of the example is named. -/
def outerRepository : Repository where
  settings := exampleRepository.settings
  name := ⟨"library", RepositoryName.accepts_library⟩

lemma outerRepository_ne : outerRepository.name ≠ exampleRepository.name := by decide +kernel

/-- The bucket of a registry with the image beside a list of no manifests that has no tag, and with
another repository that is linked to its layer. -/
def sharedLayerBucket : Bucket :=
  imagePushed exampleRepository (outerRepository.blobs.pushed exampleBucket exampleLayer)

lemma reached_sharedLayerBucket : Reached exampleRepository.settings (fun _ _ => True)
    ((⟨"registry", ∅, none⟩ : Site).world sharedLayerBucket .empty) := by
  have linked : (Operation.putBlob outerRepository.name "" exampleLayer).perform
      exampleRepository.settings ((⟨"registry", ∅, none⟩ : Site).world exampleBucket .empty) = _ :=
    Operation.perform_putBlob (r := outerRepository) rfl "" exampleLayer
  have performed := perform_imageOperations ⟨"registry", ∅, none⟩ .empty (r := exampleRepository)
    (LinkStore.isLedger_pushed isLedger_exampleBucket outerRepository.blobs exampleLayer) rfl rfl
  have start : Reached exampleRepository.settings (fun _ _ => True) _ :=
    reached_exampleBucket fun _ => trivial
  have reached := (start.run [.putBlob outerRepository.name "" exampleLayer]).run
    (imageOperations exampleRepository.name)
  rw [List.foldl_cons, List.foldl_nil, linked, performed] at reached
  exact reached

lemma usesImage_sharedLayerBucket : UsesImage sharedLayerBucket := by
  refine usesImage_imagePushed (LinkStore.isLedger_pushed isLedger_exampleBucket _ _)
    (fun n t accepted has => ?_) fun stored => ?_
  · rw [Bucket.has_pushed_iff (r := .tagTarget n t) accepted] at has
    exact not_has_tagTarget_exampleBucket n t accepted (by simpa using has)
  · rcases (Bucket.has_pushed_iff (r := .blob _ _) trivial _ _).1 stored with same | same | stored
    · cases same
    · exact (List.nodup_cons.1 nodup_imageDigests).1
        (List.mem_cons_of_mem _ (List.mem_singleton.2 (Record.blob.inj same).2))
    · exact ne_emptyIndex_of_mem_imageDigests List.mem_cons_self
        (eq_of_has_blob_exampleBucket stored)

/-- A run of two repositories that share a layer, and the runs of each of them in the other order.
The list of no manifests goes, and so does the link to the layer that is not in use; the layer
stays, as the image has it. -/
theorem sharedLayer_piecewise :
    let w := (⟨"registry", ∅, none⟩ : Site).world sharedLayerBucket .empty
    let settings := exampleRepository.settings
    let listed := Digest.ofContent emptyIndex
    let layer := Digest.ofContent exampleLayer
    ∃ (names : List RepositoryName) (alone : RepositoryName → Marking),
      Evolved settings w ∧ (w.run Repository.names).1 = .ok names ∧
      outerRepository.name ∈ names ∧ exampleRepository.name ∈ names ∧
      outerRepository.name ≠ exampleRepository.name ∧
      (∀ n ∈ names, (w.run (markRepository {} ⟨settings, n⟩ {})).1 = .ok (alone n)) ∧
      ∃ report w₁ reports w₂, w.run (run {} settings) = (.ok report, w₁) ∧
        w.run (runEach {} settings names.reverse fun d =>
          names.any fun n => (alone n).marks.contains d) = (.ok reports, w₂) ∧
        w₁.backend = w₂.backend ∧
        (w.record? (.blob .shared listed)).isSome = true ∧
        (w₂.record? (.blob .shared listed)).isSome = false ∧
        (w.record? (.link .layer outerRepository.name layer)).isSome = true ∧
        w₁.record? (.link .layer outerRepository.name layer) = none ∧
        (w₁.record? (.blob .shared layer)).isSome = true := by
  intro w settings listed layer
  have uses := usesImage_sharedLayerBucket
  have reached := reached_sharedLayerBucket
  -- what was pushed, and what is held of it
  obtain ⟨listLinked, listStored⟩ := Bucket.has_pushed ∅ exampleRepository.manifests emptyIndex
  obtain ⟨linked, stored⟩ := Bucket.has_pushed exampleBucket outerRepository.blobs exampleLayer
  have hasList {r : Record} (has : exampleBucket.Has r) : sharedLayerBucket.Has r :=
    has_withImage (has.pushed _ _)
  have holdsOuter : w.Holds outerRepository layer :=
    (Site.holds_world_iff _ _ _ _ _).2 ⟨⟨.layer, has_withImage linked⟩, has_withImage stored⟩
  have mem : layer ∈ imageDigests :=
    List.mem_cons_of_mem _ (List.mem_cons_of_mem _ List.mem_cons_self)
  have holds : w.Holds exampleRepository layer :=
    (Site.holds_world_iff _ _ _ _ _).2 (holds_withImage mem)
  have hasStored (d : Digest) : (w.record? (.blob .shared d)).isSome = true ↔
      sharedLayerBucket.Has (.blob .shared d) := by rw [Site.record?_world, Bucket.Has]
  -- the two ways to collect
  obtain ⟨names, ranNames, nodup, memNames⟩ :=
    (⟨"registry", ∅, none⟩ : Site).run_names .empty uses.isLedger
  choose alone finds marks using fun n => uses.isFlat.exists_markRepository
    (s := ⟨"registry", ∅, none⟩) uses.isLedger rfl rfl DescriptorCache.isFaithful_empty n
  have active : ({} : CollectionOptions).dryRun = false := rfl
  have perm := List.reverse_perm names
  obtain ⟨report, w₁, reports, w₂, ran, ran', same, -⟩ :=
    run_piecewise reached.evolved active (congrArg Prod.fst ranNames) (fun n _ => finds n) perm
  obtain ⟨_, _, again, left⟩ :=
    stored_runEach_iff reached.evolved active rfl nodup (fun n _ => finds n) perm
  obtain ⟨-, rfl⟩ := Prod.mk.inj (ran'.symm.trans again)
  have collected : w.run (collect {} settings none) = (.ok report, w₁) := ran
  have retains := retains_live_of_apart rfl rfl reached collected
    (fun n _ d live => uses.not_liveBlob live) (.inl rfl) (uses.live_iff.2 ⟨rfl, mem⟩) holds
  refine ⟨names, alone, reached.evolved, congrArg Prod.fst ranNames,
    (memNames _).2 ⟨.link _ _ _, trivial, has_withImage linked, rfl⟩,
    (memNames _).2 ⟨.link _ _ _, trivial, hasList listLinked, rfl⟩, outerRepository_ne,
    fun n _ => finds n, report, w₁, reports, w₂, ran, ran', same,
    (hasStored _).2 (hasList listStored), ?_, ?_, ?_, ?_⟩
  · refine Bool.eq_false_iff.2 fun kept => ?_
    obtain ⟨-, n, -, marked⟩ := (left listed).1 kept
    obtain ⟨m, marked⟩ := MarkSet.contains_iff.1 marked
    exact ne_emptyIndex_of_mem_imageDigests (uses.used_iff.1 (marks n m listed marked).2).2 rfl
  · rw [Site.record?_world]
    exact has_withImage linked
  · refine lost_of_not_live rfl rfl reached collected active (.inl rfl) (fun live => ?_) holdsOuter
      .layer
    exact outerRepository_ne (uses.live_iff.1 live).1
  · exact (congrArg Option.isSome retains.1).trans holds.2

end Collector
end ImageRegistry
