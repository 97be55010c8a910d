import ImageRegistry.Proofs.Collection.Loading
import ImageRegistry.Proofs.Collection.Marked
import ImageRegistry.Proofs.Collection.Sweeping

/-! Collecting garbage: what a run leaves of a registry. A run that fails changes nothing; a run
that succeeds drops what is condemned once everything in use is marked. -/

namespace ImageRegistry.Collector

open World Marking

/-- Collects the garbage of one repository, or of the whole registry. -/
def collect (options : CollectionOptions) (settings : Settings) :
    Option RepositoryName → Action CollectionReport
  | some n => runRepository options settings n
  | none => run options settings

/-- The repositories that a run sweeps: the one that is named, or all that have a record. -/
def AreSwept (scope : Option RepositoryName) (b : Bucket) (names : List RepositoryName) : Prop :=
  match scope with
  | some n => names = [n]
  | none => ∀ n, n ∈ names ↔ ∃ r : Record, r.IsLawful ∧ b.Has r ∧ r.owner? = some n

/-- The records that a run drops. -/
def Condemned (settings : Settings) (options : CollectionOptions) (scope : Option RepositoryName)
    (names : List RepositoryName) (found : Marking) (b : Bucket) (r : Record) : Prop :=
  options.dryRun = false ∧ (Deletes found.deletions r ∨
    (∃ n ∈ names, Sheds settings found.marks b n r) ∨
    (scope = none ∧ settings.separateBlobs = false ∧
      ∃ d, found.marks.contains d = false ∧ r = .blob .shared d))

section

variable {s : Site} {b : Bucket} {settings : Settings} {options : CollectionOptions}
  {C : DescriptorCache → Prop} {L : RepositoryName → Pending → Prop}
  {B : RepositoryName → Digest → Prop} {K : RepositoryName → Digest → Manifest → Prop}

/-- Opens the repositories that a run sweeps, and marks what is in use there. -/
def mark (options : CollectionOptions) (settings : Settings) :
    Option RepositoryName → Action (List Repository × Marking)
  | some n => do
    let r ← Repository.openNamed settings n
    return ([r], ← markRepository options r {})
  | none => markAll options settings

/-- Removes what is not in use, once everything in use is marked. -/
def finish (options : CollectionOptions) (settings : Settings) (scope : Option RepositoryName)
    (marked : List Repository × Marking) : Action CollectionReport := do
  let report ← sweep options marked.1 marked.2
  if scope.isSome || settings.separateBlobs then return report
  else
    let garbage ← sweepShared options marked.2.marks
    return { report with
      blobsDeleted := report.blobsDeleted ++ garbage.map fun d => (.shared, d) }

theorem collect_eq (options : CollectionOptions) (settings : Settings)
    (scope : Option RepositoryName) :
    collect options settings scope =
      mark options settings scope >>= finish options settings scope := by
  cases scope with
  | none =>
    rw [collect, run, mark]
    refine bind_congr fun marked => ?_
    rw [finish, Option.isSome_none, Bool.false_or]
  | some n =>
    rw [collect, runRepository, mark]
    simp only [bind_assoc, pure_bind]
    refine bind_congr fun r => bind_congr fun found => ?_
    rw [finish, Option.isSome_some, Bool.true_or]
    exact (bind_pure _).symm

/-- The report of a run: what is garbage in the repositories after the manifests were removed, and
in the shared store if that is swept. -/
def reportOn (options : CollectionOptions) (settings : Settings) (scope : Option RepositoryName)
    (names : List RepositoryName) (found : Marking) (b : Bucket) : CollectionReport :=
  let report := reportSwept settings found.marks b names (reportMarked options found)
  if scope.isSome || settings.separateBlobs then report
  else { report with
    blobsDeleted := report.blobsDeleted ++ (garbageShared found.marks b).map fun d => (.shared, d) }

variable (options settings) in
theorem run_finish (scope : Option RepositoryName) (cache : DescriptorCache)
    {names : List RepositoryName} (nodup : names.Nodup) {found : Marking} (h : b.IsLedger)
    (accepted : ∀ deletion ∈ found.deletions, ∀ t ∈ deletion.tags, TagName.accepts t = true) :
    ∃ b₁ b', (s.world b cache).run
        (finish options settings scope (names.map fun n => ⟨settings, n⟩, found)) =
        (.ok (reportOn options settings scope names found b₁), s.world b' cache) ∧
      b.Drops b₁ (fun r => options.dryRun = false ∧ Deletes found.deletions r) ∧
      b.Drops b' (Condemned settings options scope names found b) := by
  obtain ⟨report, b', ran, drops, b₁, deletes, rfl⟩ :=
    sweeps_sweep s cache h settings options found accepted nodup
  rw [finish, run_bind, ran]
  dsimp only
  by_cases stop : (scope.isSome || settings.separateBlobs) = true
  · refine ⟨b₁, b', ?_, deletes, drops.congr fun r _ _ => ?_⟩
    · rw [if_pos stop, reportOn, if_pos stop, run_pure]
    · have none : ¬(scope = none ∧ settings.separateBlobs = false) := by
        rintro ⟨rfl, shared⟩
        simp [shared] at stop
      rw [Condemned, ← and_assoc (a := scope = Option.none), iff_false_intro none, false_and,
        or_false]
  · have all : scope = none ∧ settings.separateBlobs = false := by simpa using stop
    obtain ⟨garbage, b'', ran', drops', rfl⟩ :=
      sweeps_sweepShared s cache drops.1 options found.marks
    -- the shared store was not touched so far
    have stored : b'.storedDigests .shared = b₁.storedDigests .shared := by
      refine drops.1.storedDigests_congr deletes.1 fun d => ?_
      rw [drops.has (r := .blob .shared d) trivial, deletes.has (r := .blob .shared d) trivial]
      refine and_congr_right fun _ => iff_of_true ?_ fun condemned => not_deletes_blob condemned.2
      rintro ⟨-, deleted | ⟨n, -, e, -, same | ⟨-, same⟩, -⟩⟩
      · exact not_deletes_blob deleted
      · cases same
      · cases same
    refine ⟨b₁, b'', ?_, deletes, (drops.trans drops').congr fun r _ _ => ?_⟩
    · rw [if_neg stop, run_bind, ran', reportOn, if_neg stop, garbageShared, garbageShared, stored]
      rfl
    · simp only [Condemned, all, true_and]
      rw [← and_or_left, or_assoc]

variable (options) in
/-- To mark what is in use changes no record. If it succeeds it has settled what is in use in the
repositories that the run sweeps. -/
theorem run_mark (h : b.IsLedger)
    (loading : ∀ n, Loading s b ⟨settings, n⟩ C (L n) (B n) (K n))
    (roots : ∀ n d, b.Has (.link .revision n d) → IsRoot options b n d → L n ⟨d, false⟩)
    (tagged : ∀ n d, b.IsTagged n d → L n ⟨d, true⟩) (scope : Option RepositoryName)
    {cache : DescriptorCache} (hc : C cache) :
    ∃ x cache', (s.world b cache).run (mark options settings scope) = (x, s.world b cache') ∧
      C cache' ∧
      (∀ marked, x = .ok marked → ∃ names, marked.1 = names.map (fun n => ⟨settings, n⟩) ∧
        names.Nodup ∧ AreSwept scope b names ∧
        Settles settings options b L B K names marked.2) ∧
      ((∀ n, Loads s b ⟨settings, n⟩ C (L n)) →
        (settings.cached = true → ∀ n cache, C cache → cache.openFor n = .ok ()) →
          x.isOk = true) := by
  cases scope with
  | some n =>
    rw [mark, run_bind, Site.run_openNamed]
    cases opened : (if settings.cached then cache.openFor n else .ok ()) with
    | error e =>
      refine ⟨.error e, cache, rfl, hc, fun _ => nofun, fun _ opens => ?_⟩
      split_ifs at opened with cached
      rw [opens cached n cache hc] at opened
      cases opened
    | ok u =>
      obtain ⟨x, cache', ran, hc', good, ok⟩ := run_markRepository h (loading n) (roots n)
        (tagged n) List.not_mem_nil settles_nil hc
      simp only [Except.map, run_bind, ran]
      cases x with
      | error e =>
        exact ⟨.error e, cache', rfl, hc', fun _ => nofun, fun loads _ => nomatch ok (loads n)⟩
      | ok found =>
        refine ⟨_, cache', rfl, hc', fun marked same => ?_, fun _ _ => rfl⟩
        obtain rfl := Except.ok.inj same
        exact ⟨[n], rfl, List.nodup_cons.2 ⟨List.not_mem_nil, .nil⟩, rfl, good found rfl⟩
  | none =>
    obtain ⟨names, ranNames, nodup, memNames⟩ := s.run_names cache h
    obtain ⟨x, cache', ran, hc', good, ok⟩ := run_markNamed h loading roots tagged
      (fun _ _ => List.not_mem_nil) nodup settles_nil hc
    refine ⟨x, cache', ?_, hc', fun marked same => ?_, ok⟩
    · rw [mark, markAll, run_bind, ranNames]
      exact ran
    · obtain ⟨opened, settled⟩ := good marked.1 marked.2 same
      exact ⟨names, opened, nodup, memNames, settled.of_mem_iff fun n => by simp⟩

variable (options) in
/-- A run that fails changes no record. A run that succeeds has settled what is in use in the
repositories that it sweeps, and drops what is condemned. -/
theorem run_collect (h : b.IsLedger)
    (loading : ∀ n, Loading s b ⟨settings, n⟩ C (L n) (B n) (K n))
    (roots : ∀ n d, b.Has (.link .revision n d) → IsRoot options b n d → L n ⟨d, false⟩)
    (tagged : ∀ n d, b.IsTagged n d → L n ⟨d, true⟩) (scope : Option RepositoryName)
    {cache : DescriptorCache} (hc : C cache) :
    ∃ x b' cache', (s.world b cache).run (collect options settings scope) =
        (x, s.world b' cache') ∧ C cache' ∧ b'.IsLedger ∧
      (∀ e, x = .error e → b' = b) ∧
      (∀ report, x = .ok report → ∃ names found, AreSwept scope b names ∧
        Settles settings options b L B K names found ∧
        b.Drops b' (Condemned settings options scope names found b)) ∧
      ((∀ n, Loads s b ⟨settings, n⟩ C (L n)) →
        (settings.cached = true → ∀ n cache, C cache → cache.openFor n = .ok ()) →
          x.isOk = true) := by
  obtain ⟨x, cache', ran, hc', good, ok⟩ := run_mark options h loading roots tagged scope hc
  rw [collect_eq, run_bind, ran]
  cases x with
  | error e =>
    exact ⟨.error e, b, cache', rfl, hc', h, fun _ _ => rfl, fun _ => nofun,
      fun loads opens => nomatch ok loads opens⟩
  | ok marked =>
    obtain ⟨rs, found⟩ := marked
    obtain ⟨names, rfl, nodup, swept, settled⟩ := good _ rfl
    obtain ⟨b₁, b', ran', -, drops⟩ := run_finish (s := s) settings options scope cache' nodup h
      fun deletion mem t isTag => (((settled.unmarked deletion mem).2.2 t).1 isTag).1
    refine ⟨_, b', cache', ran', hc', drops.1, fun _ => nofun, fun report same => ?_,
      fun _ _ => rfl⟩
    obtain rfl := Except.ok.inj same
    exact ⟨names, found, swept, settled, drops⟩

variable (settings) in
lemma run_mark_rootless (h : b.IsLedger) (rootless : ∀ n d, ¬IsRoot options b n d)
    (scope : Option RepositoryName) {cache : DescriptorCache}
    (opens : settings.cached = true → ∀ n, cache.openFor n = .ok ()) :
    ∃ names found, (s.world b cache).run (mark options settings scope) =
        (.ok (names.map fun n => ⟨settings, n⟩, found), s.world b cache) ∧
      names.Nodup ∧ AreSwept scope b names ∧ (∀ n d, found.marks.containsIn n d = false) ∧
      Settles settings options b (fun _ _ => False) (fun _ _ => False) (fun _ _ _ => False)
        names found := by
  have loading (n : RepositoryName) : Loading s b ⟨settings, n⟩ (· = cache) (fun _ => False)
      (fun _ => False) fun _ _ => False := ⟨fun _ _ _ => False.elim⟩
  obtain ⟨x, _, ran, rfl, good, ok⟩ := run_mark options h loading (fun n d _ => rootless n d)
    (fun n d isTagged => rootless n d (.inr isTagged)) scope rfl
  have isOk := ok (fun _ _ _ _ => False.elim) fun cached n _ same => same ▸ opens cached n
  cases x with
  | error e => cases isOk
  | ok marked =>
    obtain ⟨_, found⟩ := marked
    obtain ⟨names, rfl, nodup, swept, settled⟩ := good _ rfl
    refine ⟨names, found, ran, nodup, swept, fun n d => Bool.eq_false_iff.2 fun marked => ?_,
      settled⟩
    rcases settled.live n d marked with ⟨_, live⟩ | part
    · exact live
    · exact part

variable (settings) in
lemma run_collect_rootless (h : b.IsLedger) (rootless : ∀ n d, ¬IsRoot options b n d)
    (scope : Option RepositoryName) {cache : DescriptorCache}
    (opens : settings.cached = true → ∀ n, cache.openFor n = .ok ()) :
    ∃ names found b₁ b', (s.world b cache).run (collect options settings scope) =
        (.ok (reportOn options settings scope names found b₁), s.world b' cache) ∧
      AreSwept scope b names ∧ (∀ n d, found.marks.containsIn n d = false) ∧
      Settles settings options b (fun _ _ => False) (fun _ _ => False) (fun _ _ _ => False)
        names found ∧
      b.Drops b' (Condemned settings options scope names found b) := by
  obtain ⟨names, found, ran, nodup, swept, unmarked, settled⟩ :=
    run_mark_rootless (s := s) settings h rootless scope opens
  obtain ⟨b₁, b', ran', -, drops⟩ := run_finish (s := s) settings options scope cache nodup h
    fun deletion mem t isTag => (((settled.unmarked deletion mem).2.2 t).1 isTag).1
  refine ⟨names, found, b₁, b', ?_, swept, unmarked, settled, drops⟩
  rw [collect_eq, run_bind, ran]
  exact ran'

end

section

variable {b : Bucket} {settings : Settings} {options : CollectionOptions}
  {L : RepositoryName → Pending → Prop} {B : RepositoryName → Digest → Prop}
  {K : RepositoryName → Digest → Manifest → Prop} {scope : Option RepositoryName}
  {names : List RepositoryName} {found : Marking}

lemma not_condemned_tagTarget {n : RepositoryName} {t : String} :
    ¬Condemned settings options scope names found b (.tagTarget n t) := by
  rintro ⟨-, ⟨_, _, ⟨_, same⟩ | ⟨_, _, same⟩⟩ | ⟨_, _, _, _, same | ⟨_, same⟩, _⟩ |
    ⟨_, _, _, _, same⟩⟩ <;> cases same

lemma not_condemned_of_marked (settled : Settles settings options b L B K names found)
    {n : RepositoryName} {d : Digest} (marked : found.marks.containsIn n d = true) {r : Record}
    (hr : (∃ kind, r = .link kind n d) ∨ r = .blob (settings.blobStore n) d) :
    ¬Condemned settings options scope names found b r := by
  have clash {e : Digest} {m : RepositoryName} (he : found.marks.containsIn m e = false)
      (hm : m = n) (hd : e = d) : False := by
    rw [hm, hd, marked] at he
    cases he
  rintro ⟨-, ⟨deletion, mem, deleted⟩ | ⟨m, -, e, unmarked, records, -⟩ |
    ⟨-, shared, e, unmarked, rfl⟩⟩
  · have unmarked := (settled.unmarked deletion mem).2.1
    rcases hr with ⟨kind, rfl⟩ | rfl
    · rcases deleted with ⟨kind', same⟩ | ⟨t, _, same⟩
      · cases same
        exact clash unmarked rfl rfl
      · cases same
    · rcases deleted with ⟨kind', same⟩ | ⟨t, _, same⟩ <;> cases same
  · rcases hr with ⟨kind, rfl⟩ | rfl
    · rcases records with same | ⟨_, same⟩
      · cases same
        exact clash unmarked rfl rfl
      · cases same
    · rcases records with same | ⟨separate, same⟩
      · cases same
      · simp only [Settings.blobStore, separate, if_true, Record.blob.injEq,
          BlobStore.ofRepository.injEq] at same
        exact clash unmarked same.1.symm same.2.symm
  · rcases hr with ⟨kind, same⟩ | same
    · cases same
    · simp only [Settings.blobStore, shared, Record.blob.injEq] at same
      exact clash (MarkSet.containsIn_eq_false unmarked n) rfl same.2

lemma condemned_of_unmarked (scope : Option RepositoryName)
    (settled : Settles settings options b L B K names found)
    (active : options.dryRun = false) {n : RepositoryName} (hn : n ∈ names) {d : Digest}
    (unmarked : found.marks.containsIn n d = false) {kind : LinkKind}
    (has : b.Has (.link kind n d)) (stored : b.Has (.blob (settings.blobStore n) d)) :
    Condemned settings options scope names found b (.link kind n d) := by
  refine ⟨active, ?_⟩
  cases kind with
  | layer =>
    refine .inr (.inl ⟨n, hn, d, unmarked, .inl rfl, fun separate => ?_⟩)
    simpa [Settings.blobStore, separate] using stored
  | revision =>
    obtain ⟨deletion, mem, rfl, rfl⟩ := settled.garbage n hn d has unmarked
    exact .inl ⟨deletion, mem, .inl ⟨_, rfl⟩⟩

lemma condemned_link_of_blob (settled : Settles settings options b L B K names found)
    (swept : AreSwept scope b names) {kind : LinkKind} {n : RepositoryName} {d : Digest}
    (has : b.Has (.link kind n d)) (stored : b.Has (.blob (settings.blobStore n) d))
    (condemned : Condemned settings options scope names found b (.blob (settings.blobStore n) d)) :
    Condemned settings options scope names found b (.link kind n d) := by
  obtain ⟨active, ⟨deletion, _, ⟨_, same⟩ | ⟨_, _, same⟩⟩ | ⟨m, hm, e, unmarked, records, -⟩ |
    ⟨rfl, shared, e, unmarked, same⟩⟩ := condemned
  · cases same
  · cases same
  · rcases records with same | ⟨separate, same⟩
    · cases same
    · simp only [Settings.blobStore, separate, if_true, Record.blob.injEq,
        BlobStore.ofRepository.injEq] at same
      obtain ⟨rfl, rfl⟩ := same
      exact condemned_of_unmarked scope settled active hm unmarked has stored
  · obtain ⟨-, rfl⟩ := Record.blob.inj same
    exact condemned_of_unmarked none settled active
      ((swept n).2 ⟨.link kind n d, trivial, has, rfl⟩) (MarkSet.containsIn_eq_false unmarked n) has
      stored

end
end ImageRegistry.Collector
