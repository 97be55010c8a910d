import ImageRegistry.Proofs.Registry.Upkeep

/-! Dry runs. A dry run finds what is in use as a real one does, and lists the same apart from one
kind of link: with a manifest a real run removes the link that it may have as a layer, before it
lists which layers are not in use. -/

namespace ImageRegistry

open World

namespace Marking

variable {options options' : CollectionOptions}

lemma sort_congr (same : options.removeUntagged = options'.removeUntagged) (n : RepositoryName)
    (listed : List Digest) (pending : List Pending) :
    sort options n listed pending = sort options' n listed pending := by
  induction listed generalizing pending with
  | nil => rfl
  | cons d listed ih => simp only [sort, same, ih]

lemma markRepository_congr (same : options.removeUntagged = options'.removeUntagged)
    (r : Repository) (found : Marking) :
    markRepository options r found = markRepository options' r found := by
  simp only [markRepository, sort_congr same]

lemma markNamed_congr (same : options.removeUntagged = options'.removeUntagged)
    (settings : Settings) (names : List RepositoryName) (found : Marking) :
    markNamed options settings names found = markNamed options' settings names found := by
  induction names generalizing found with
  | nil => rfl
  | cons n names ih => simp only [markNamed, markRepository_congr same, ih]

end Marking

namespace Collector

variable {options options' : CollectionOptions}

lemma mark_congr (same : options.removeUntagged = options'.removeUntagged) (settings : Settings)
    (scope : Option RepositoryName) :
    mark options settings scope = mark options' settings scope := by
  cases scope with
  | some n => simp only [mark, Marking.markRepository_congr same]
  | none => simp only [mark, Marking.markAll, Marking.markNamed_congr same]

def IsDeleted (deletions : List ManifestDeletion) (link : RepositoryName × Digest) : Prop :=
  ∃ deletion ∈ deletions, deletion.repository = link.1 ∧ deletion.digest = link.2

instance (deletions : List ManifestDeletion) (link : RepositoryName × Digest) :
    Decidable (IsDeleted deletions link) := inferInstanceAs (Decidable (∃ _ ∈ _, _))

variable {settings : Settings} {marks : MarkSet} {b b₁ : Bucket} {n : RepositoryName}
  {deletions : List ManifestDeletion}

lemma deletes_link_iff {kind : LinkKind} {d : Digest} :
    Deletes deletions (.link kind n d) ↔ IsDeleted deletions (n, d) := by
  refine exists_congr fun deletion => and_congr_right fun _ => ?_
  constructor
  · rintro (⟨_, same⟩ | ⟨_, _, same⟩)
    · cases same
      exact ⟨rfl, rfl⟩
    · cases same
  · rintro ⟨rfl, rfl⟩
    exact .inl ⟨kind, rfl⟩

lemma garbageIn_of_separate (separate : settings.separateBlobs = true) (h : b.IsLedger)
    (drops : b.Drops b₁ (Deletes deletions)) :
    garbageIn settings marks b₁ n = garbageIn settings marks b n := by
  refine garbageIn_congr drops.1 h fun d => ?_
  rw [candidate, if_pos separate, drops.has (r := .blob (.ofRepository n) d) trivial,
    and_iff_left not_deletes_blob]

lemma garbageIn_of_shared (shared : settings.separateBlobs = false) (h : b.IsLedger)
    (drops : b.Drops b₁ (Deletes deletions)) :
    garbageIn settings marks b₁ n =
      (garbageIn settings marks b n).filter fun d => ¬IsDeleted deletions (n, d) := by
  have ascends (b : Bucket) :
      (garbageIn settings marks b n).Pairwise fun d e => compare d e = .lt :=
    (pairwise_listCandidates settings b n).filter _
  refine eq_of_ascending (ascends b₁) ((ascends b).filter _) fun d => ?_
  have left := drops.has (r := .link .layer n d) trivial
  rw [deletes_link_iff] at left
  simp only [garbageIn, List.mem_filter, mem_listCandidates h, mem_listCandidates drops.1,
    candidate, shared, Bool.false_eq_true, if_false, left, decide_eq_true_eq]
  exact and_right_comm

lemma reportSwept_eq (settings : Settings) (marks : MarkSet) (b : Bucket)
    (names : List RepositoryName) (report : CollectionReport) :
    reportSwept settings marks b names report = if settings.separateBlobs then
      { report with blobsDeleted := report.blobsDeleted ++ names.flatMap fun n =>
          (garbageIn settings marks b n).map fun d => (BlobStore.ofRepository n, d) }
      else { report with linksRemoved := report.linksRemoved ++ names.flatMap fun n =>
          (garbageIn settings marks b n).map fun d => (n, d) } := by
  induction names generalizing report with
  | nil => split_ifs <;> simp [reportSwept]
  | cons n names ih =>
    have step : reportSwept settings marks b (n :: names) report =
        reportSwept settings marks b names
          (addSwept report ⟨settings, n⟩ (garbageIn settings marks b n)) := rfl
    rw [step, ih]
    split_ifs with separate <;>
      simp [addSwept, separate, Repository.blobStore, Settings.blobStore]

variable (options settings) in
/-- The report of a real run is that of the dry run without the links of manifests that are
removed. -/
lemma reportOn_of_deletes (scope : Option RepositoryName) (names : List RepositoryName)
    (h : b.IsLedger) {found : Marking} (drops : b.Drops b₁ (Deletes found.deletions)) :
    reportOn { options with dryRun := false } settings scope names found b₁ =
      let rehearsed := reportOn { options with dryRun := true } settings scope names found b
      { rehearsed with
        dryRun := false
        linksRemoved := rehearsed.linksRemoved.filter fun link =>
          ¬IsDeleted rehearsed.manifestsDeleted link } := by
  have stored : garbageShared found.marks b₁ = garbageShared found.marks b := by
    rw [garbageShared, garbageShared, drops.1.storedDigests_congr h fun d => by
      rw [drops.has (r := .blob .shared d) trivial, and_iff_left not_deletes_blob]]
  by_cases separate : settings.separateBlobs = true
  · simp [reportOn, reportSwept_eq, separate, reportMarked, garbageIn_of_separate separate h drops]
  · have shared : settings.separateBlobs = false := Bool.eq_false_iff.2 separate
    cases scope <;>
      simp [reportOn, reportSwept_eq, shared, reportMarked, stored,
        garbageIn_of_shared shared h drops, List.filter_flatMap, List.filter_map, Function.comp_def]

lemma mem_linksRemoved_reportOn (shared : settings.separateBlobs = false) (h : b.IsLedger)
    {found : Marking} {scope : Option RepositoryName} {names : List RepositoryName} {d : Digest} :
    (n, d) ∈ (reportOn options settings scope names found b).linksRemoved ↔
      n ∈ names ∧ b.Has (.link .layer n d) ∧ found.marks.containsIn n d = false := by
  have listed : (reportOn options settings scope names found b).linksRemoved =
      names.flatMap fun n => (garbageIn settings found.marks b n).map fun d => (n, d) := by
    cases scope <;> simp [reportOn, reportSwept_eq, shared, reportMarked]
  simp [listed, garbageIn, mem_listCandidates h, candidate, shared]

lemma manifestsDeleted_reportOn {found : Marking} {scope : Option RepositoryName}
    {names : List RepositoryName} :
    (reportOn options settings scope names found b).manifestsDeleted = found.deletions := by
  by_cases separate : settings.separateBlobs = true <;> cases scope <;>
    simp [reportOn, reportSwept_eq, separate, reportMarked]

lemma linksRemoved_of_separate (separate : settings.separateBlobs = true) {found : Marking}
    {scope : Option RepositoryName} {names : List RepositoryName} :
    (reportOn options settings scope names found b).linksRemoved = [] := by
  simp [reportOn, reportSwept_eq, separate, reportMarked]

/-- A dry run lists no link of a manifest that is removed, exactly if no such manifest is linked as
a layer as well. -/
lemma forall_not_isDeleted_iff (h : b.IsLedger) {found : Marking} {scope : Option RepositoryName}
    {names : List RepositoryName}
    (unmarked : ∀ deletion ∈ found.deletions, deletion.repository ∈ names ∧
      found.marks.containsIn deletion.repository deletion.digest = false) :
    (∀ link ∈ (reportOn options settings scope names found b).linksRemoved,
      ¬IsDeleted found.deletions link) ↔
    settings.separateBlobs = true ∨ ∀ deletion ∈ found.deletions,
      ¬b.Has (.link .layer deletion.repository deletion.digest) := by
  by_cases separate : settings.separateBlobs = true
  · simp [linksRemoved_of_separate separate, separate]
  have shared : settings.separateBlobs = false := Bool.eq_false_iff.2 separate
  rw [or_iff_right separate]
  constructor
  · intro none deletion mem has
    obtain ⟨swept, garbage⟩ := unmarked deletion mem
    exact none (deletion.repository, deletion.digest)
      ((mem_linksRemoved_reportOn shared h).2 ⟨swept, has, garbage⟩) ⟨deletion, mem, rfl, rfl⟩
  · rintro none ⟨n, d⟩ listed ⟨deletion, mem, rfl, rfl⟩
    exact none deletion mem ((mem_linksRemoved_reportOn shared h).1 listed).2.1

/-- What the two runs of the same options come to: they fail in the same way before anything is
removed, or both report what they find in the same repositories, and the dry one changes nothing. -/
lemma run_collect_dryRun (settings : Settings) (s : Site) {h : Holdings} (sound : h.IsSound)
    (options : CollectionOptions) (scope : Option RepositoryName) :
    let run (dry : Bool) := (s.world h.bucket h.cache).run
      (collect { options with dryRun := dry } settings scope)
    ∃ x cache', (s.world h.bucket h.cache).run (mark options settings scope) =
        (x, s.world h.bucket cache') ∧
      (∀ e, x = .error e → ∀ dry, run dry = (.error e, s.world h.bucket cache')) ∧
      ∀ marked, x = .ok marked → ∃ names b₁ b',
        run true = (.ok (reportOn { options with dryRun := true } settings scope names marked.2
          h.bucket), s.world h.bucket cache') ∧
        run false = (.ok (reportOn { options with dryRun := false } settings scope names marked.2
          b₁), s.world b' cache') ∧
        h.bucket.Drops b₁ (Deletes marked.2.deletions) ∧
        ∀ deletion ∈ marked.2.deletions, deletion.repository ∈ names ∧
          marked.2.marks.containsIn deletion.repository deletion.digest = false := by
  obtain ⟨b, cache⟩ := h
  obtain ⟨ledger, faithful⟩ := sound
  obtain ⟨x, cache', ran, -, good, -⟩ := run_mark (s := s) (b := b) options
    (L := fun _ _ => True) (B := fun _ _ => True) (K := fun _ _ _ => False) ledger
    (fun n => Marking.loading_of_isSound ledger ⟨settings, n⟩)
    (fun _ _ _ _ => trivial) (fun _ _ _ => trivial) scope faithful
  intro run
  have begins (dry : Bool) : run dry = match x with
      | .ok marked => (s.world b cache').run
          (finish { options with dryRun := dry } settings scope marked)
      | .error e => (.error e, s.world b cache') := by
    have same : mark { options with dryRun := dry } settings scope = mark options settings scope :=
      mark_congr (by rfl) settings scope
    simp only [run, collect_eq, run_bind, same, ran]
    cases x <;> rfl
  refine ⟨x, cache', ran, ?_, ?_⟩
  · rintro e rfl dry
    exact begins dry
  rintro marked rfl
  obtain ⟨rs, found⟩ := marked
  obtain ⟨names, rfl, nodup, -, settled⟩ := good _ rfl
  have accepted : ∀ deletion ∈ found.deletions, ∀ t ∈ deletion.tags, TagName.accepts t = true :=
    fun deletion mem t isTag => (((settled.unmarked deletion mem).2.2 t).1 isTag).1
  have ends (dry : Bool) := run_finish (s := s) settings { options with dryRun := dry } scope cache'
    nodup ledger accepted
  obtain ⟨bd, bd', ranDry, dropsDry, leavesDry⟩ := ends true
  obtain rfl : bd = b := dropsDry.eq_of_none ledger (by simp)
  obtain rfl : bd' = bd := leavesDry.eq_of_none ledger (by simp [Condemned])
  obtain ⟨b₁, b', ranReal, dropsReal, -⟩ := ends false
  exact ⟨names, b₁, b', (begins true).trans ranDry, (begins false).trans ranReal,
    dropsReal.congr (by simp), fun deletion mem =>
      ⟨(settled.unmarked deletion mem).1, (settled.unmarked deletion mem).2.1⟩⟩

variable (options settings) in
/-- A real run reports the same as the dry run exactly if no manifest that is removed has a link as
a layer, or if repositories have blob stores of their own. -/
lemma reportOn_eq_iff (scope : Option RepositoryName) {names : List RepositoryName}
    (h : b.IsLedger) {found : Marking} (drops : b.Drops b₁ (Deletes found.deletions))
    (unmarked : ∀ deletion ∈ found.deletions, deletion.repository ∈ names ∧
      found.marks.containsIn deletion.repository deletion.digest = false) :
    reportOn { options with dryRun := false } settings scope names found b₁ =
        { reportOn { options with dryRun := true } settings scope names found b with
          dryRun := false } ↔
      settings.separateBlobs = true ∨ ∀ deletion ∈ found.deletions,
        ¬b.Has (.link .layer deletion.repository deletion.digest) := by
  rw [reportOn_of_deletes options settings scope names h drops]
  simp only [manifestsDeleted_reportOn, CollectionReport.mk.injEq, true_and, and_true,
    List.filter_eq_self, decide_eq_true_eq]
  exact forall_not_isDeleted_iff h unmarked

/-- A dry run changes nothing that is stored, and fails as the real run from the same state does,
which is if finding what is in use fails. If they succeed they report the same, except that the dry
run also lists the links of removed manifests as layers: so they report the same exactly if no
removed manifest has such a link, or if repositories have blob stores of their own. -/
theorem dryRun_predicts_iff {w : World} (attained : Attained settings w)
    (options : CollectionOptions) (scope : Option RepositoryName) :
    let dry := w.run (collect { options with dryRun := true } settings scope)
    let real := w.run (collect { options with dryRun := false } settings scope)
    dry.2.backend = w.backend ∧
    dry.1.isOk = (w.run (mark options settings scope)).1.isOk ∧
    (∀ e, dry.1 = .error e ↔ real.1 = .error e) ∧
    ∀ rehearsed report, dry.1 = .ok rehearsed → real.1 = .ok report →
      (report = { rehearsed with
        dryRun := false
        linksRemoved := rehearsed.linksRemoved.filter fun link =>
          ¬IsDeleted rehearsed.manifestsDeleted link }) ∧
      (report = { rehearsed with dryRun := false } ↔
        settings.separateBlobs = true ∨ ∀ deletion ∈ rehearsed.manifestsDeleted,
          w.record? (.link .layer deletion.repository deletion.digest) = none) := by
  obtain ⟨s, h, rfl, orderly⟩ := attained.isOrderly
  obtain ⟨x, cache', marks, fails, succeeds⟩ :=
    run_collect_dryRun settings s orderly.sound options scope
  intro dry real
  cases x with
  | error e =>
    have failed := fails e rfl
    rw [show dry = _ from failed true, show real = _ from failed false, marks]
    exact ⟨rfl, rfl, fun _ => Iff.rfl, fun _ _ => nofun⟩
  | ok marked =>
    obtain ⟨names, b₁, b', ranDry, ranReal, deletes, unmarked⟩ := succeeds marked rfl
    rw [show dry = _ from ranDry, show real = _ from ranReal, marks]
    refine ⟨rfl, rfl, fun e => ⟨nofun, nofun⟩, ?_⟩
    rintro _ _ ⟨⟩ ⟨⟩
    have ledger := orderly.sound.isLedger
    refine ⟨reportOn_of_deletes options settings scope names ledger deletes, ?_⟩
    rw [reportOn_eq_iff options settings scope ledger deletes unmarked]
    simp [manifestsDeleted_reportOn, Site.record?_world, Bucket.Has]

lemma not_isTagged_exampleBucket (n : RepositoryName) (d : Digest) :
    ¬exampleBucket.IsTagged n d := by
  rintro ⟨t, accepted, target⟩
  exact not_has_tagTarget_exampleBucket n t accepted
    ((Site.exists_target?_iff isLedger_exampleBucket accepted).1 ⟨d, target⟩)

lemma not_isRoot_exampleBucket (n : RepositoryName) (d : Digest) :
    ¬Marking.IsRoot {} exampleBucket n d := by
  rintro (keeps | isTagged)
  · cases keeps
  · exact not_isTagged_exampleBucket n d isTagged

/-- A list of no manifests without a tag is removed by a real run as it is by a dry one. -/
theorem emptyIndex_rehearsed : ∃ w rehearsed report,
    Attained exampleRepository.settings w ∧
    (w.run (collect { dryRun := true } exampleRepository.settings none)).1 = .ok rehearsed ∧
    (w.run (collect {} exampleRepository.settings none)).1 = .ok report ∧
    report = { rehearsed with dryRun := false } := by
  let s : Site := ⟨"registry", ∅, none⟩
  let w := s.world exampleBucket .empty
  have reached : Reached exampleRepository.settings (fun _ _ => True) w :=
    reached_exampleBucket fun _ => trivial
  obtain ⟨names, found, b₁, b', ran, -⟩ := run_collect_rootless (s := s)
    exampleRepository.settings isLedger_exampleBucket not_isRoot_exampleBucket none
    exampleRepository_uncached
  have real := congrArg Prod.fst ran
  obtain ⟨-, -, fails, agrees⟩ := dryRun_predicts_iff reached.attained {} none
  cases dry : (w.run (collect { dryRun := true } exampleRepository.settings none)).1 with
  | error e => cases real.symm.trans ((fails e).1 dry)
  | ok rehearsed =>
    refine ⟨w, rehearsed, _, reached.attained, dry, real, ?_⟩
    refine (agrees rehearsed _ dry real).2.2 (.inr fun deletion _ => ?_)
    rw [Site.record?_world, at?_exampleBucket (r := .link _ _ _) trivial]
    simp

/-- The bucket in which the list of no manifests was stored as a blob as well. -/
def twofoldBucket : Bucket := exampleRepository.blobs.pushed exampleBucket emptyIndex

lemma attained_twofoldBucket : Attained exampleRepository.settings
    ((⟨"registry", ∅, none⟩ : Site).world twofoldBucket .empty) := by
  have reached : Reached exampleRepository.settings (fun _ _ => True)
      ((⟨"registry", ∅, none⟩ : Site).world exampleBucket .empty) :=
    reached_exampleBucket fun _ => trivial
  have performed : (Operation.putBlob exampleRepository.name "" emptyIndex).perform
      exampleRepository.settings ((⟨"registry", ∅, none⟩ : Site).world exampleBucket .empty) =
        (⟨"registry", ∅, none⟩ : Site).world twofoldBucket .empty := by
    rw [Operation.perform, Operation.within_of_opens exampleRepository_uncached,
      LinkStore.run_put]
    rfl
  rw [← performed]
  exact .perform _ reached.attained

lemma not_isRoot_twofoldBucket (n : RepositoryName) (d : Digest) :
    ¬Marking.IsRoot {} twofoldBucket n d := by
  rintro (keeps | ⟨t, accepted, target⟩)
  · cases keeps
  · refine not_isTagged_exampleBucket n d ⟨t, accepted, ?_⟩
    rwa [Bucket.target?, twofoldBucket, Bucket.at?_pushed (r := .tagTarget _ _) accepted,
      if_neg (by simp), if_neg (by simp)] at target

/-- A list of no manifests that was stored as a blob as well is removed with both of its links, of
which the dry run lists one as garbage of its own. -/
theorem twofoldBucket_mispredicted : ∃ w rehearsed report,
    Attained exampleRepository.settings w ∧
    (w.run (collect { dryRun := true } exampleRepository.settings none)).1 = .ok rehearsed ∧
    (w.run (collect {} exampleRepository.settings none)).1 = .ok report ∧
    report ≠ { rehearsed with dryRun := false } := by
  let s : Site := ⟨"registry", ∅, none⟩
  let w := s.world twofoldBucket .empty
  have ledger : twofoldBucket.IsLedger := LinkStore.isLedger_pushed isLedger_exampleBucket _ _
  have linked := (Bucket.has_pushed exampleBucket exampleRepository.blobs emptyIndex).1
  obtain ⟨names, found, marks, -, swept, rootless, settled⟩ := run_mark_rootless (s := s)
    exampleRepository.settings ledger not_isRoot_twofoldBucket none
    (fun cached n => (rfl : DescriptorCache.empty.openFor n = .ok ()))
  obtain ⟨_, _, marks', -, succeeds⟩ := run_collect_dryRun exampleRepository.settings s
    (h := ⟨twofoldBucket, .empty⟩) ⟨ledger, DescriptorCache.isFaithful_empty⟩ {} none
  obtain ⟨rfl, -⟩ := Prod.mk.inj (marks.symm.trans marks')
  obtain ⟨names', b₁, b', dry, real, deletes, unmarked⟩ := succeeds _ rfl
  have ranDry : w.run (collect { dryRun := true } exampleRepository.settings none) = _ := dry
  have ranReal : w.run (collect {} exampleRepository.settings none) = _ := real
  refine ⟨w, _, _, attained_twofoldBucket, congrArg Prod.fst ranDry, congrArg Prod.fst ranReal,
    ?_⟩
  rw [Ne, reportOn_eq_iff {} exampleRepository.settings none ledger deletes unmarked]
  rintro (⟨⟨⟩⟩ | apart)
  have revision : twofoldBucket.Has
      (.link .revision exampleRepository.name (.ofContent emptyIndex)) :=
    (Bucket.has_pushed ∅ exampleRepository.manifests emptyIndex).1.pushed _ _
  have hn : exampleRepository.name ∈ names := (swept _).2 ⟨.link _ _ _, trivial, revision, rfl⟩
  obtain ⟨deletion, mem, named, same⟩ := settled.garbage _ hn _ revision (rootless _ _)
  refine apart deletion mem ?_
  rw [named, same]
  exact linked

end Collector
end ImageRegistry
