import ImageRegistry.Proofs.Collection.Visiting
import ImageRegistry.Proofs.Registry.Admission

/-! Surveying: what a run finds to be in use, and what it does with that, as functions of the bucket
and of what the cache tells at the beginning. What the cache learns on the way changes nothing. -/

namespace ImageRegistry

open World

def Bucket.given (b : Bucket) (cache : DescriptorCache) (r : Repository) (d : Digest) :
    Except RegistryError Manifest :=
  ((r.manifests.told? b cache d).bind fun _ => b.at? (.blob r.blobStore d)).elim
    (.error (Manifests.unknown r d))
    fun content => (Manifest.ofPayload none content).mapError .manifestInvalid

/-- How the pending manifests of a repository are loaded. -/
def Bucket.reading (b : Bucket) (cache : DescriptorCache) (settings : Settings)
    (n : RepositoryName) : Marking.Reading :=
  fun p => Marking.loaded p (b.given cache ⟨settings, n⟩ p.digest)

/-- The later cache works, and with it the same manifests are known. -/
structure DescriptorCache.Retells (settings : Settings) (b : Bucket)
    (cache later : DescriptorCache) : Prop where
  faithful : later.IsFaithful
  knows : ∀ n d, (Repository.manifests ⟨settings, n⟩).Knows b later d ↔
    (Repository.manifests ⟨settings, n⟩).Knows b cache d

section

variable {s : Site} {b b' : Bucket} {cache cache' later : DescriptorCache} {settings : Settings}

lemma LinkStore.Knows.asked {links links' : LinkStore} {d e : Digest}
    (known : links'.Knows b cache e) : links'.Knows b (links.asked b cache d) e := by
  rcases links.asked_cases b cache d with kept | ⟨descriptor, -, kept⟩ <;> rw [kept]
  · exact known
  rcases known with ⟨cached, other, told⟩ | stored
  · refine .inl ⟨cached, ?_⟩
    unfold LinkStore.noted
    split_ifs
    · exact DescriptorCache.exists_lookUp_remember told
    · exact ⟨other, told⟩
  · exact .inr stored

namespace DescriptorCache.Retells

variable (settings b) in
lemma refl (faithful : cache.IsFaithful) : Retells settings b cache cache :=
  ⟨faithful, fun _ _ => Iff.rfl⟩

lemma asked (retells : Retells settings b cache later) (n : RepositoryName) (d : Digest) :
    Retells settings b cache ((Repository.manifests ⟨settings, n⟩).asked b later d) where
  faithful := LinkStore.isFaithful_asked _ retells.faithful d
  knows m e := by
    rw [← retells.knows m e]
    constructor
    · intro known
      refine known.of_asked fun same => ?_
      obtain rfl : n = m := same
      rfl
    · intro known
      exact known.asked

end DescriptorCache.Retells

lemma Bucket.given_congr {r : Repository} {d : Digest}
    (told : (r.manifests.told? b cache d).isSome = (r.manifests.told? b' cache' d).isSome)
    (stored : b.at? (.blob r.blobStore d) = b'.at? (.blob r.blobStore d)) :
    b.given cache r d = b'.given cache' r d := by
  unfold given
  rw [stored]
  cases first : r.manifests.told? b cache d <;> cases second : r.manifests.told? b' cache' d <;>
    simp [first, second] at told ⊢

lemma Bucket.given_of_stored {r : Repository} {d : Digest} {kind : LinkKind} {content : Octets}
    {m : Manifest} (visible : r.settings.isHidden d = false) (linked : b.Has (.link kind r.name d))
    (stored : b.at? (.blob r.blobStore d) = some content)
    (read : Manifest.ofPayload none content = .ok m) : b.given cache r d = .ok m := by
  have known : b.descriptor? r.manifests d ≠ none := by
    rw [descriptor?, if_pos ⟨kind, r.mem_kinds_manifests kind, linked⟩,
      show b.at? (.blob r.manifests.blobs d) = _ from stored]
    exact Option.some_ne_none _
  have isTold : (r.manifests.told? b cache d).isSome = true :=
    (LinkStore.isSome_told?_iff r.manifests).2 ⟨visible, .inr known⟩
  obtain ⟨descriptor, told⟩ := Option.isSome_iff_exists.1 isTold
  rw [given, told, Option.bind_some, stored, Option.elim_some, read]
  rfl

lemma Manifests.run_get_given (ledger : b.IsLedger) (faithful : cache.IsFaithful) (r : Repository)
    (d : Digest) : (s.world b cache).run (get r d) =
      (b.given cache r d, s.world b (r.manifests.asked b cache d)) :=
  run_get_told ledger fun _ => LinkStore.digest_of_told? _ faithful

lemma run_load_reading (ledger : b.IsLedger)
    (retells : DescriptorCache.Retells settings b cache later) (n : RepositoryName)
    (p : Marking.Pending) : ∃ last, (s.world b later).run (Marking.load ⟨settings, n⟩ p) =
      (b.reading cache settings n p, s.world b last) ∧
        DescriptorCache.Retells settings b cache last := by
  refine ⟨_, ?_, retells.asked n p.digest⟩
  rw [Marking.run_load (Manifests.run_get_given ledger retells.faithful _ _), Bucket.reading]
  have told : ((Repository.manifests ⟨settings, n⟩).told? b later p.digest).isSome =
      ((Repository.manifests ⟨settings, n⟩).told? b cache p.digest).isSome := by
    rw [Bool.eq_iff_iff, LinkStore.isSome_told?_iff, LinkStore.isSome_told?_iff, retells.knows]
  rw [Bucket.given_congr told rfl]

end

namespace Marking

/-- The marks once some repositories were gone through, one after another. -/
def survey (options : CollectionOptions) (b : Bucket) (read : RepositoryName → Reading)
    (names : List RepositoryName) (marks : MarkSet) : Except RegistryError MarkSet :=
  names.foldlM (fun marks n => visit n (read n) marks (roots options b n)) marks

/-- The linked manifests of some repositories that are garbage, as they are not marked. -/
def unused (options : CollectionOptions) (b : Bucket) (names : List RepositoryName)
    (marks : MarkSet) : List ManifestDeletion :=
  names.flatMap fun n =>
    (untagged options b n).filter fun deletion => !marks.containsIn n deletion.digest

section

variable {s : Site} {b b' : Bucket} {cache later : DescriptorCache} {settings : Settings}
  {options : CollectionOptions} {read read' : RepositoryName → Reading}
  {n : RepositoryName} {names : List RepositoryName} {marks marks' : MarkSet}

lemma exists_of_survey_cons (surveyed : survey options b read (n :: names) marks = .ok marks') :
    ∃ marks₁, visit n (read n) marks (roots options b n) = .ok marks₁ ∧
      survey options b read names marks₁ = .ok marks' := by
  rw [survey, List.foldlM_cons] at surveyed
  cases visited : visit n (read n) marks (roots options b n) with
  | error e =>
    rw [visited] at surveyed
    cases surveyed
  | ok marks₁ =>
    rw [visited] at surveyed
    exact ⟨marks₁, rfl, surveyed⟩

lemma survey_singleton (options : CollectionOptions) (b : Bucket)
    (read : RepositoryName → Reading) (n : RepositoryName) (marks : MarkSet) :
    survey options b read [n] marks = visit n (read n) marks (roots options b n) := by
  simp [survey]

lemma grows_survey (surveyed : survey options b read names marks = .ok marks') :
    (∀ m d, marks.containsIn m d = true → marks'.containsIn m d = true) ∧
      ∀ m, m ∉ names → ∀ d, marks'.containsIn m d = marks.containsIn m d := by
  induction names generalizing marks with
  | nil =>
    cases surveyed
    exact ⟨fun _ _ => id, fun _ _ _ => rfl⟩
  | cons n names ih =>
    obtain ⟨marks₁, visited, rest⟩ := exists_of_survey_cons surveyed
    obtain ⟨first, others⟩ := growsIn_visit visited
    obtain ⟨later, others'⟩ := ih rest
    refine ⟨fun m d h => later m d (first m d h), fun m fresh d => ?_⟩
    obtain ⟨other, fresh⟩ := not_or.1 (mt List.mem_cons.2 fresh)
    rw [others' m fresh d, Bool.eq_iff_iff]
    exact ⟨others m d other, first m d⟩

lemma exists_visit_of_survey (nodup : names.Nodup)
    (surveyed : survey options b read names marks = .ok marks') (hn : n ∈ names) :
    ∃ before after, visit n (read n) before (roots options b n) = .ok after ∧
      (∀ d, before.containsIn n d = marks.containsIn n d) ∧
        ∀ d, after.containsIn n d = marks'.containsIn n d := by
  induction names generalizing marks with
  | nil => cases hn
  | cons m names ih =>
    obtain ⟨fresh, nodup⟩ := List.nodup_cons.1 nodup
    obtain ⟨marks₁, visited, rest⟩ := exists_of_survey_cons surveyed
    rcases List.mem_cons.1 hn with rfl | hn
    · exact ⟨marks, marks₁, visited, fun _ => rfl, fun d => ((grows_survey rest).2 n fresh d).symm⟩
    · obtain ⟨before, after, visited', same, same'⟩ := ih nodup rest hn
      refine ⟨before, after, visited', fun d => (same d).trans ?_, same'⟩
      rw [Bool.eq_iff_iff]
      have other : n ≠ m := ne_of_mem_of_not_mem hn fresh
      exact ⟨(growsIn_visit visited).2 n d other, (growsIn_visit visited).1 n d⟩

lemma marked_of_survey (nodup : names.Nodup)
    (surveyed : survey options b read names marks = .ok marks') (hn : n ∈ names) :
    ∀ p ∈ roots options b n, marks'.containsIn n p.digest = true := by
  intro p mem
  obtain ⟨before, after, visited, -, same⟩ := exists_visit_of_survey nodup surveyed hn
  rw [← same]
  exact marked_of_visit visited p mem

/-- A mark is that of a manifest that was visited, or of a part of one. All of these have a property
that roots have, and that is passed on to the children of visited ones. -/
theorem survey_cases (nodup : names.Nodup)
    (surveyed : survey options b read names {} = .ok marks) (hn : n ∈ names) {V : Pending → Prop}
    (passes : ∀ p m, V p → read n p = .ok (some m) →
      (∀ e ∈ m.references.map Descriptor.digest, marks.containsIn n e = true) →
        ∀ e ∈ children m, V ⟨e, true⟩)
    (start : ∀ p ∈ roots options b n, V p) {d : Digest} (marked : marks.containsIn n d = true) :
    ∃ p, V p ∧ Visited n (read n) marks p ∧
      (p.digest = d ∨ ∃ m, read n p = .ok (some m) ∧ d ∈ parts m) := by
  obtain ⟨before, after, visited, none, same⟩ := exists_visit_of_survey nodup surveyed hn
  simp only [← same] at passes marked
  rcases visit_cases visited passes start marked with old | ⟨p, hp, ⟨found, loaded, all⟩, origin⟩
  · rw [none] at old
    cases old
  · exact ⟨p, hp, ⟨found, loaded, fun m isFound e mem => (same e).symm.trans (all m isFound e mem)⟩,
      origin⟩

/-- The same is marked if manifests that are marked in the end are loaded alike, and repositories
are left out that have no roots. -/
theorem survey_congr {V : RepositoryName → Pending → Prop} {left : RepositoryName → Bool}
    (surveyed : survey options b read names marks = .ok marks')
    (passes : ∀ n p m, V n p → read n p = .ok (some m) → ∀ e ∈ children m, V n ⟨e, true⟩)
    (start : ∀ n ∈ names, ∀ p ∈ roots options b n, V n p)
    (same : ∀ n ∈ names, ∀ p, V n p → marks'.containsIn n p.digest = true →
      read' n p = read n p)
    (kept : ∀ n ∈ names, left n = true → roots options b' n = roots options b n)
    (gone : ∀ n ∈ names, left n = false → roots options b n = []) :
    survey options b' read' (names.filter left) marks = .ok marks' := by
  induction names generalizing marks with
  | nil => exact surveyed
  | cons n names ih =>
    obtain ⟨marks₁, visited, rest⟩ := exists_of_survey_cons surveyed
    have later := ih rest (fun m hm => start m (List.mem_cons_of_mem n hm))
      (fun m hm => same m (List.mem_cons_of_mem n hm))
      (fun m hm => kept m (List.mem_cons_of_mem n hm))
      fun m hm => gone m (List.mem_cons_of_mem n hm)
    cases stays : left n with
    | true =>
      have visited' : visit n (read' n) marks (roots options b' n) = .ok marks₁ := by
        rw [kept n List.mem_cons_self stays]
        refine visit_congr visited (passes n) (start n List.mem_cons_self) fun p hp marked => ?_
        exact same n List.mem_cons_self p hp ((grows_survey rest).1 n _ marked)
      rw [List.filter_cons_of_pos stays, survey, List.foldlM_cons, visited']
      exact later
    | false =>
      rw [gone n List.mem_cons_self stays, visit] at visited
      cases visited
      rw [List.filter_cons_of_neg (by simp [stays])]
      exact later

lemma unused_cons (fresh : n ∉ names)
    (surveyed : survey options b read names marks = .ok marks') :
    unused options b (n :: names) marks' =
      ((untagged options b n).filter fun deletion => !marks.containsIn n deletion.digest) ++
        unused options b names marks' := by
  rw [unused, List.flatMap_cons]
  congr 1
  refine List.filter_congr fun deletion _ => ?_
  rw [(grows_survey surveyed).2 n fresh]

variable (options) in
theorem run_markNamed_survey (h : b.IsLedger)
    (retells : DescriptorCache.Retells settings b cache later) (nodup : names.Nodup)
    (found : Marking) :
    ∃ last, (s.world b later).run (markNamed options settings names found) =
        ((survey options b (b.reading cache settings) names found.marks).map fun marks =>
          (names.map fun n => ⟨settings, n⟩,
            { marks, deletions := found.deletions ++ unused options b names marks }),
          s.world b last) ∧
      DescriptorCache.Retells settings b cache last := by
  induction names generalizing found later with
  | nil =>
    refine ⟨later, ?_, retells⟩
    simp only [unused, List.flatMap_nil, List.append_nil]
    rfl
  | cons n names ih =>
    obtain ⟨fresh, nodup⟩ := List.nodup_cons.1 nodup
    have opened : (s.world b later).run (Repository.openNamed settings n) =
        (.ok ⟨settings, n⟩, s.world b later) := by
      rw [Site.run_openNamed, retells.faithful.opens n]
      split_ifs <;> rfl
    obtain ⟨later', traced, retells'⟩ := run_trace_visit (s := s) (r := ⟨settings, n⟩)
      (fun cache' retold p => run_load_reading h retold n p) found.marks (roots options b n) retells
    rw [markNamed, run_bind, opened]
    dsimp only
    rw [run_bind, run_markRepository_trace s later h, traced, survey, List.foldlM_cons]
    cases visited : visit n (b.reading cache settings n) found.marks (roots options b n) with
    | error e => exact ⟨later', rfl, retells'⟩
    | ok marks =>
      obtain ⟨last, ran, retells''⟩ := ih retells' nodup ⟨marks, found.deletions ++
        (untagged options b n).filter fun deletion => !marks.containsIn n deletion.digest⟩
      refine ⟨last, ?_, retells''⟩
      dsimp only
      rw [run_bind, ran]
      change _ = ((survey options b (b.reading cache settings) names marks).map _, _)
      cases surveyed : survey options b (b.reading cache settings) names marks with
      | error e => rfl
      | ok marks' =>
        simp only [Except.map, run_pure, unused_cons fresh surveyed, List.append_assoc,
          List.map_cons]

end

end Marking

namespace Collector

open Marking

/-- The repositories that a run sweeps, as it finds them. -/
def sweptNames (scope : Option RepositoryName) (b : Bucket) : List RepositoryName :=
  scope.elim b.repositories fun n => [n]

/-- What a run finds in use, and which manifests it finds to be garbage. -/
def surveyed (options : CollectionOptions) (settings : Settings) (scope : Option RepositoryName)
    (b : Bucket) (cache : DescriptorCache) : Except RegistryError Marking :=
  (survey options b (b.reading cache settings) (sweptNames scope b) {}).map fun marks =>
    { marks, deletions := unused options b (sweptNames scope b) marks }

section

variable {s : Site} {b : Bucket} {cache : DescriptorCache} {settings : Settings}
  {options : CollectionOptions} {scope : Option RepositoryName}

lemma nodup_sweptNames (scope : Option RepositoryName) (b : Bucket) :
    (sweptNames scope b).Nodup := by
  cases scope with
  | some n => exact List.nodup_cons.2 ⟨List.not_mem_nil, .nil⟩
  | none => exact nodup_of_ascending (pairwise_ascending _)

lemma surveyed_of_survey {marks : MarkSet}
    (done : survey options b (b.reading cache settings) (sweptNames scope b) {} = .ok marks) :
    surveyed options settings scope b cache =
      .ok ⟨marks, unused options b (sweptNames scope b) marks⟩ := by
  rw [surveyed, done]
  rfl

lemma exists_of_surveyed {found : Marking}
    (done : surveyed options settings scope b cache = .ok found) :
    survey options b (b.reading cache settings) (sweptNames scope b) {} = .ok found.marks ∧
      found.deletions = unused options b (sweptNames scope b) found.marks := by
  rw [surveyed] at done
  cases marked : survey options b (b.reading cache settings) (sweptNames scope b) {} with
  | error e =>
    rw [marked] at done
    cases done
  | ok marks =>
    rw [marked] at done
    cases done
    exact ⟨rfl, rfl⟩

variable (settings) in
theorem settles_survey (h : b.IsLedger) {read : RepositoryName → Reading}
    {names : List RepositoryName} (nodup : names.Nodup) {marks : MarkSet}
    (done : survey options b read names {} = .ok marks) :
    Settles settings options b (fun _ _ => True) (fun _ _ => True) (fun _ _ _ => False) names
      { marks, deletions := unused options b names marks } where
  only n d marked := by
    by_contra fresh
    rw [(grows_survey done).2 n fresh d] at marked
    cases marked
  tagged n hn d isTagged := by
    by_cases linked : b.Has (.link .revision n d)
    · exact marked_of_survey nodup done hn ⟨d, false⟩
        ((mem_roots h).2 (.inr ⟨linked, .inr isTagged, rfl⟩))
    · exact marked_of_survey nodup done hn ⟨d, true⟩
        ((mem_roots h).2 (.inl ⟨isTagged, linked, rfl⟩))
  kept keeps n hn d linked := marked_of_survey nodup done hn ⟨d, false⟩
    ((mem_roots h).2 (.inr ⟨linked, .inl keeps, rfl⟩))
  closed n hn d marked := .inl trivial
  live n d marked := .inr trivial
  garbage n hn d linked unmarked := by
    refine ⟨⟨n, d, b.tags n⟩, List.mem_flatMap.2 ⟨n, hn, List.mem_filter.2 ⟨?_, ?_⟩⟩, rfl, rfl⟩
    · refine (mem_untagged h).2 ⟨rfl, rfl, linked, fun root => ?_⟩
      have marked := marked_of_survey nodup done hn ⟨d, false⟩
        ((mem_roots h).2 (.inr ⟨linked, root, rfl⟩))
      rw [show marks.containsIn n d = false from unmarked] at marked
      cases marked
    · simpa using unmarked
  unmarked deletion mem := by
    obtain ⟨n, hn, mem⟩ := List.mem_flatMap.1 mem
    obtain ⟨mem, unmarked⟩ := List.mem_filter.1 mem
    obtain ⟨rfl, tags, -, -⟩ := (mem_untagged h).1 mem
    exact ⟨hn, by simpa using unmarked, fun t => by rw [tags, h.mem_tags]⟩
  listed deletion mem := by
    obtain ⟨n, -, mem⟩ := List.mem_flatMap.1 mem
    obtain ⟨rfl, -, linked, -⟩ := (mem_untagged h).1 (List.mem_filter.1 mem).1
    exact linked

theorem run_mark_surveyed (h : b.IsLedger) (faithful : cache.IsFaithful)
    (options : CollectionOptions) (settings : Settings) (scope : Option RepositoryName) :
    ∃ later, (s.world b cache).run (mark options settings scope) =
        ((surveyed options settings scope b cache).map fun found =>
          ((sweptNames scope b).map fun n => ⟨settings, n⟩, found), s.world b later) ∧
      DescriptorCache.Retells settings b cache later := by
  obtain ⟨later, ran, retells⟩ := run_markNamed_survey (s := s) options h
    (DescriptorCache.Retells.refl b settings faithful) (nodup_sweptNames scope b) {}
  refine ⟨later, ?_, retells⟩
  have marks : (s.world b cache).run (mark options settings scope) =
      (s.world b cache).run (markNamed options settings (sweptNames scope b) {}) := by
    cases scope with
    | none =>
      rw [mark, markAll, run_bind, s.run_repositories cache]
      rfl
    | some n =>
      simp only [mark, sweptNames, Option.elim_some, markNamed, pure_bind]
  rw [marks, ran, surveyed]
  cases survey options b (b.reading cache settings) (sweptNames scope b) {} <;> rfl

/-- What a run finds if its survey succeeds, and what it leaves by that. -/
structure Outcome (options : CollectionOptions) (settings : Settings)
    (scope : Option RepositoryName) (b : Bucket) (cache : DescriptorCache) (found : Marking)
    (b' : Bucket) : Prop where
  done : surveyed options settings scope b cache = .ok found
  settled : Settles settings options b (fun _ _ => True) (fun _ _ => True) (fun _ _ _ => False)
    (sweptNames scope b) found
  drops : b.Drops b' (Condemned settings options scope (sweptNames scope b) found b)

/-- A run fails if its survey does, and then changes no record. Otherwise it drops what is
condemned, and reports what is garbage once manifests were removed. -/
theorem run_collect_surveyed (h : b.IsLedger) (faithful : cache.IsFaithful)
    (options : CollectionOptions) (settings : Settings) (scope : Option RepositoryName) :
    ∃ later, DescriptorCache.Retells settings b cache later ∧
      (∀ e, surveyed options settings scope b cache = .error e →
        (s.world b cache).run (collect options settings scope) = (.error e, s.world b later)) ∧
      ∀ found, surveyed options settings scope b cache = .ok found →
        ∃ b₁ b', (s.world b cache).run (collect options settings scope) =
            (.ok (reportOn options settings scope (sweptNames scope b) found b₁),
              s.world b' later) ∧
          b.Drops b₁ (fun r => options.dryRun = false ∧ Deletes found.deletions r) ∧
          Outcome options settings scope b cache found b' := by
  obtain ⟨later, ran, retells⟩ := run_mark_surveyed (s := s) h faithful options settings scope
  refine ⟨later, retells, fun e failed => ?_, fun found done => ?_⟩
  · rw [collect_eq, run_bind, ran, failed]
    rfl
  have settled : Settles settings options b (fun _ _ => True) (fun _ _ => True)
      (fun _ _ _ => False) (sweptNames scope b) found := by
    obtain ⟨marked, same⟩ := exists_of_surveyed done
    have settles := settles_survey settings h (nodup_sweptNames scope b) marked
    rw [← same] at settles
    exact settles
  obtain ⟨b₁, b', ran', deletes, drops⟩ := run_finish (s := s) settings options scope later
    (nodup_sweptNames scope b) h fun deletion mem t isTag =>
      (((settled.unmarked deletion mem).2.2 t).1 isTag).1
  refine ⟨b₁, b', ?_, deletes, done, settled, drops⟩
  rw [collect_eq, run_bind, ran, done]
  exact ran'

lemma exists_collect_of_survey (s : Site) (h : b.IsLedger) (faithful : cache.IsFaithful)
    (scope : Option RepositoryName) {marks : MarkSet}
    (done : survey options b (b.reading cache settings) (sweptNames scope b) {} = .ok marks) :
    let found : Marking := ⟨marks, unused options b (sweptNames scope b) marks⟩
    ∃ b₁ b' later, (s.world b cache).run (collect options settings scope) =
        (.ok (reportOn options settings scope (sweptNames scope b) found b₁), s.world b' later) ∧
      Outcome options settings scope b cache found b' := by
  obtain ⟨later, -, -, succeeds⟩ :=
    run_collect_surveyed (s := s) h faithful options settings scope
  obtain ⟨b₁, b', ran, -, outcome⟩ := succeeds _ (surveyed_of_survey done)
  exact ⟨b₁, b', later, ran, outcome⟩

lemma backend_of_error (h : b.IsLedger) (faithful : cache.IsFaithful) {e : RegistryError}
    (failed : ((s.world b cache).run (collect options settings scope)).1 = .error e) :
    ((s.world b cache).run (collect options settings scope)).2.backend =
      (s.world b cache).backend := by
  obtain ⟨later, -, fails, succeeds⟩ :=
    run_collect_surveyed (s := s) h faithful options settings scope
  cases done : surveyed options settings scope b cache with
  | error e' =>
    rw [fails e' done]
    rfl
  | ok found =>
    obtain ⟨_, _, ran, -⟩ := succeeds found done
    rw [ran] at failed
    cases failed

lemma exists_outcome (h : b.IsLedger) (faithful : cache.IsFaithful) {report : CollectionReport}
    {w' : World} (ran : (s.world b cache).run (collect options settings scope) = (.ok report, w')) :
    ∃ later found b₁ b', w' = s.world b' later ∧
      report = reportOn options settings scope (sweptNames scope b) found b₁ ∧
      DescriptorCache.Retells settings b cache later ∧
      b.Drops b₁ (fun r => options.dryRun = false ∧ Deletes found.deletions r) ∧
      Outcome options settings scope b cache found b' := by
  obtain ⟨later, retells, fails, succeeds⟩ :=
    run_collect_surveyed (s := s) h faithful options settings scope
  cases done : surveyed options settings scope b cache with
  | error e =>
    rw [fails e done] at ran
    cases ran
  | ok found =>
    obtain ⟨b₁, b', ran', deletes, outcome⟩ := succeeds found done
    rw [ran'] at ran
    obtain ⟨reported, rfl⟩ := Prod.mk.inj ran
    exact ⟨later, found, b₁, b', rfl, (Except.ok.inj reported).symm, retells, deletes, outcome⟩

end

end Collector
end ImageRegistry
