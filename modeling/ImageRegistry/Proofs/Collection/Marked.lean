import ImageRegistry.Proofs.Collection.Tracing
import ImageRegistry.Proofs.Registry.Queries

/-! What is in use and what is not, once some repositories were marked. -/

namespace ImageRegistry.Marking

open World

/-- Whether manifests that are linked in a repository are in use on their own. -/
def IsRoot (options : CollectionOptions) (b : Bucket) (n : RepositoryName) (d : Digest) : Prop :=
  options.removeUntagged = false ∨ b.IsTagged n d

/-- Whether a run finds a linked manifest to be in use on its own. -/
def isRoot (options : CollectionOptions) (b : Bucket) (n : RepositoryName) (d : Digest) : Bool :=
  !options.removeUntagged || (b.tags n).any fun t => b.target? n t = some d

/-- The manifests that are pending when a run begins with a repository, the last one first. -/
def roots (options : CollectionOptions) (b : Bucket) (n : RepositoryName) : List Pending :=
  let listed := b.linkedDigests n .revision
  (((b.tags n).filterMap (b.target? n)).filter fun d => d ∉ listed).reverse.map
      (⟨·, true⟩) ++
    (listed.filter (isRoot options b n)).reverse.map (⟨·, false⟩)

/-- The linked manifests that are garbage unless something in use refers to them. -/
def untagged (options : CollectionOptions) (b : Bucket) (n : RepositoryName) :
    List ManifestDeletion :=
  ((b.linkedDigests n .revision).filter fun d => !isRoot options b n d).map fun d =>
    ⟨n, d, b.tags n⟩

section

variable {b : Bucket} {options : CollectionOptions} {n : RepositoryName}

lemma mem_tags_of_target? (h : b.IsLedger) {t : String} {d : Digest}
    (accepted : TagName.accepts t = true) (target : b.target? n t = some d) : t ∈ b.tags n :=
  h.mem_tags.2 ⟨accepted, (Site.exists_target?_iff h accepted).1 ⟨d, target⟩⟩

lemma isRoot_iff (h : b.IsLedger) {d : Digest} :
    isRoot options b n d = true ↔ IsRoot options b n d := by
  simp only [isRoot, Bool.or_eq_true, Bool.not_eq_true', List.any_eq_true, decide_eq_true_eq]
  refine or_congr_right ⟨?_, ?_⟩
  · rintro ⟨t, mem, target⟩
    exact ⟨t, (h.mem_tags.1 mem).1, target⟩
  · rintro ⟨t, accepted, target⟩
    exact ⟨t, mem_tags_of_target? h accepted target, target⟩

lemma mem_roots (h : b.IsLedger) {p : Pending} : p ∈ roots options b n ↔
    (b.IsTagged n p.digest ∧ ¬b.Has (.link .revision n p.digest) ∧ p.mayBeMissing = true) ∨
      (b.Has (.link .revision n p.digest) ∧ IsRoot options b n p.digest ∧
        p.mayBeMissing = false) := by
  obtain ⟨d, mayBeMissing⟩ := p
  simp only [roots, List.mem_append, List.mem_map, List.mem_reverse, List.mem_filter,
    List.mem_filterMap, Pending.mk.injEq, isRoot_iff h, decide_eq_true_eq,
    h.mem_linkedDigests]
  refine or_congr ⟨?_, ?_⟩ ⟨?_, ?_⟩
  · rintro ⟨_, ⟨⟨t, mem, target⟩, unlisted⟩, rfl, same⟩
    exact ⟨⟨t, (h.mem_tags.1 mem).1, target⟩, unlisted, same.symm⟩
  · rintro ⟨⟨t, accepted, target⟩, unlisted, same⟩
    exact ⟨d, ⟨⟨t, mem_tags_of_target? h accepted target, target⟩, unlisted⟩, rfl, same.symm⟩
  · rintro ⟨_, ⟨listed, root⟩, rfl, same⟩
    exact ⟨listed, root, same.symm⟩
  · rintro ⟨listed, root, same⟩
    exact ⟨d, ⟨listed, root⟩, rfl, same.symm⟩

lemma mem_untagged (h : b.IsLedger) {deletion : ManifestDeletion} :
    deletion ∈ untagged options b n ↔ deletion.repository = n ∧ deletion.tags = b.tags n ∧
      b.Has (.link .revision n deletion.digest) ∧ ¬IsRoot options b n deletion.digest := by
  obtain ⟨m, d, tags⟩ := deletion
  simp only [untagged, List.mem_map, List.mem_filter, h.mem_linkedDigests, Bool.not_eq_true',
    ← Bool.not_eq_true, isRoot_iff h, ManifestDeletion.mk.injEq]
  constructor
  · rintro ⟨_, facts, rfl, rfl, rfl⟩
    exact ⟨rfl, rfl, facts⟩
  · rintro ⟨rfl, rfl, facts⟩
    exact ⟨d, facts, rfl, rfl, rfl⟩

variable (s : Site) (cache : DescriptorCache)

theorem run_sort (h : b.IsLedger) (options : CollectionOptions) (n : RepositoryName)
    (listed : List Digest) (pending : List Pending) :
    (s.world b cache).run (sort options n listed pending) =
      (.ok ((listed.filter (isRoot options b n)).reverse.map (⟨·, false⟩) ++ pending,
        (listed.filter fun d => !isRoot options b n d).map fun d => ⟨n, d, b.tags n⟩),
        s.world b cache) := by
  induction listed generalizing pending with
  | nil => rfl
  | cons d listed ih =>
    have keep (root : isRoot options b n d = true) (ran : (s.world b cache).run
        (sort options n (d :: listed) pending) =
          (s.world b cache).run (sort options n listed (⟨d, false⟩ :: pending))) :
        (s.world b cache).run (sort options n (d :: listed) pending) =
          (.ok (((d :: listed).filter (isRoot options b n)).reverse.map (⟨·, false⟩) ++ pending,
            ((d :: listed).filter fun d => !isRoot options b n d).map fun d => ⟨n, d, b.tags n⟩),
            s.world b cache) := by
      simp [ran, ih, root]
    by_cases remove : options.removeUntagged = true
    · have looked := Site.run_whileListing s!"tags for {d} in {n}" (s.run_lookupTags cache h n d)
      cases found : (b.tags n).filter fun t => b.target? n t = some d with
      | cons t tags =>
        have isTag := List.mem_filter.1 (found ▸ List.mem_cons_self : t ∈ (b.tags n).filter _)
        refine keep ((isRoot_iff h).2 (.inr ⟨t, (h.mem_tags.1 isTag.1).1,
          of_decide_eq_true isTag.2⟩)) ?_
        rw [sort, if_pos remove, run_bind, looked, found]
        rfl
      | nil =>
        have other : isRoot options b n d = false := by
          rw [← Bool.not_eq_true, isRoot_iff h]
          rintro (kept | ⟨t, accepted, target⟩)
          · rw [remove] at kept
            cases kept
          · have isTag : t ∈ (b.tags n).filter fun t => b.target? n t = some d :=
              List.mem_filter.2 ⟨mem_tags_of_target? h accepted target, decide_eq_true target⟩
            rw [found] at isTag
            cases isTag
        rw [sort, if_pos remove, run_bind, looked, found]
        simp [run_bind, Site.run_whileListing _ (s.run_tags cache n), ih, other]
    · refine keep ((isRoot_iff h).2 (.inl (by simpa using remove))) ?_
      rw [sort, if_neg remove]

theorem run_addTagged (h : b.IsLedger) (n : RepositoryName) (listed : List Digest)
    {tags : List String} (accepted : ∀ t ∈ tags, TagName.accepts t = true)
    (pending : List Pending) :
    (s.world b cache).run (addTagged n listed tags pending) =
      (.ok (((tags.filterMap (b.target? n)).filter fun d => d ∉ listed).reverse.map
        (⟨·, true⟩) ++ pending), s.world b cache) := by
  induction tags generalizing pending with
  | nil => rfl
  | cons t tags ih =>
    have later : ∀ u ∈ tags, TagName.accepts u = true := fun u mem =>
      accepted u (List.mem_cons_of_mem t mem)
    have found := Site.run_whileListing s!"tag {t} in {n}"
      (s.run_find? cache h n (accepted t List.mem_cons_self))
    rw [addTagged, run_bind, found]
    cases target : b.target? n t with
    | none => simp [ih later, target]
    | some d =>
      by_cases isListed : d ∈ listed
      · change (s.world b cache).run (if listed.contains d = true then _ else _) = _
        rw [if_pos (List.contains_iff_mem.2 isListed), ih later]
        simp [target, isListed]
      · change (s.world b cache).run (if listed.contains d = true then _ else _) = _
        rw [if_neg (mt List.contains_iff_mem.1 isListed), ih later]
        simp [target, isListed]

theorem run_markRepository_trace (h : b.IsLedger) (settings : Settings)
    (options : CollectionOptions) (n : RepositoryName) (found : Marking) :
    (s.world b cache).run (markRepository options ⟨settings, n⟩ found) =
      match (s.world b cache).run (trace ⟨settings, n⟩ found.marks (roots options b n)) with
      | (.ok marks, w') => (.ok {
          marks
          deletions := found.deletions ++
            (untagged options b n).filter fun deletion => !marks.containsIn n deletion.digest }, w')
      | (.error e, w') => (.error e, w') := by
  have ranEnumerate : (s.world b cache).run (Manifests.enumerate ⟨settings, n⟩) =
      (.ok (b.linkedDigests n .revision), s.world b cache) :=
    s.run_enumerate cache (Repository.manifests ⟨settings, n⟩)
  rw [markRepository, run_bind, Site.run_whileListing _ ranEnumerate]
  simp only [run_bind, run_sort s cache h, Site.run_whileListing _ (s.run_tags cache n),
    run_addTagged s cache h n _ fun t mem => (h.mem_tags.1 mem).1, List.append_nil, roots, untagged]
  generalize (s.world b cache).run (trace ⟨settings, n⟩ found.marks _) = traced
  obtain ⟨_ | _, _⟩ := traced <;> rfl

end

/-- What is known once some repositories were marked: what is in use on its own is marked, what is
marked is a part or refers to what is marked, nothing else is marked, and of the linked manifests
those that are not marked are garbage. -/
structure Settles (settings : Settings) (options : CollectionOptions) (b : Bucket)
    (L : RepositoryName → Pending → Prop) (B : RepositoryName → Digest → Prop)
    (K : RepositoryName → Digest → Manifest → Prop)
    (names : List RepositoryName) (found : Marking) : Prop where
  only : ∀ n d, found.marks.containsIn n d = true → n ∈ names
  tagged : ∀ n ∈ names, ∀ d, b.IsTagged n d → found.marks.containsIn n d = true
  kept : options.removeUntagged = false → ∀ n ∈ names, ∀ d, b.Has (.link .revision n d) →
    found.marks.containsIn n d = true
  closed : ∀ n ∈ names, Traced ⟨settings, n⟩ (B n) (K n) found.marks []
  live : ∀ n d, found.marks.containsIn n d = true →
    (∃ mayBeMissing, L n ⟨d, mayBeMissing⟩) ∨ B n d
  garbage : ∀ n ∈ names, ∀ d, b.Has (.link .revision n d) → found.marks.containsIn n d = false →
    ∃ deletion ∈ found.deletions, deletion.repository = n ∧ deletion.digest = d
  unmarked : ∀ deletion ∈ found.deletions, deletion.repository ∈ names ∧
    found.marks.containsIn deletion.repository deletion.digest = false ∧
      ∀ t, t ∈ deletion.tags ↔
        TagName.accepts t = true ∧ b.Has (.tagTarget deletion.repository t)
  listed : ∀ deletion ∈ found.deletions, b.Has (.link .revision deletion.repository deletion.digest)

section

variable {s : Site} {b : Bucket} {settings : Settings} {options : CollectionOptions}
  {C : DescriptorCache → Prop} {L : RepositoryName → Pending → Prop}
  {B : RepositoryName → Digest → Prop} {K : RepositoryName → Digest → Manifest → Prop}

lemma settles_nil : Settles settings options b L B K [] {} where
  only _ _ h := by cases h
  tagged := by simp
  kept := by simp
  closed := by simp
  live _ _ h := by cases h
  garbage := by simp
  unmarked := by simp
  listed := by simp

lemma Settles.of_mem_iff {names names' : List RepositoryName} {found : Marking}
    (settled : Settles settings options b L B K names found) (same : ∀ n, n ∈ names ↔ n ∈ names') :
    Settles settings options b L B K names' found where
  only n d h := (same n).1 (settled.only n d h)
  tagged n hn := settled.tagged n ((same n).2 hn)
  kept keeps n hn := settled.kept keeps n ((same n).2 hn)
  closed n hn := settled.closed n ((same n).2 hn)
  live := settled.live
  garbage n hn := settled.garbage n ((same n).2 hn)
  unmarked deletion mem :=
    ⟨(same _).1 (settled.unmarked deletion mem).1, (settled.unmarked deletion mem).2⟩
  listed := settled.listed

lemma Traced.of_growsIn {m n : RepositoryName} {marks marks' : MarkSet} (other : m ≠ n)
    (traced : Traced ⟨settings, m⟩ (B m) (K m) marks []) (grows : GrowsIn n marks marks') :
    Traced ⟨settings, m⟩ (B m) (K m) marks' [] := by
  intro d hd
  refine (traced d (grows.2 m d other hd)).imp_right fun refers m' known e he => ?_
  exact (refers m' known e he).imp_left (grows.1 m e)

lemma Settles.cons {n : RepositoryName} {names : List RepositoryName} (fresh : n ∉ names)
    {found : Marking} (settled : Settles settings options b L B K names found) {marks : MarkSet}
    (traced : Traced ⟨settings, n⟩ (B n) (K n) marks []) (grows : GrowsIn n found.marks marks)
    (tagged : ∀ d, b.IsTagged n d → marks.containsIn n d = true)
    (kept : options.removeUntagged = false → ∀ d, b.Has (.link .revision n d) →
      marks.containsIn n d = true)
    {untagged : List ManifestDeletion}
    (garbage : ∀ d, b.Has (.link .revision n d) → marks.containsIn n d = false →
      ∃ deletion ∈ untagged, deletion.digest = d)
    (live : ∀ d, marks.containsIn n d = true → (∃ mayBeMissing, L n ⟨d, mayBeMissing⟩) ∨ B n d)
    (facts : ∀ deletion ∈ untagged, deletion.repository = n ∧
      b.Has (.link .revision n deletion.digest) ∧
      ∀ t, t ∈ deletion.tags ↔ TagName.accepts t = true ∧ b.Has (.tagTarget n t)) :
    Settles settings options b L B K (n :: names) {
      marks := marks
      deletions := found.deletions ++
        untagged.filter fun deletion => !marks.containsIn n deletion.digest } where
  only m d h := by
    by_cases same : m = n
    · exact same ▸ List.mem_cons_self
    · exact List.mem_cons_of_mem n (settled.only m d (grows.2 m d same h))
  tagged m hm d h := by
    rcases List.mem_cons.1 hm with rfl | hm
    · exact tagged d h
    · exact grows.1 m d (settled.tagged m hm d h)
  kept keeps m hm d h := by
    rcases List.mem_cons.1 hm with rfl | hm
    · exact kept keeps d h
    · exact grows.1 m d (settled.kept keeps m hm d h)
  closed m hm := by
    rcases List.mem_cons.1 hm with rfl | hm
    · exact traced
    · exact (settled.closed m hm).of_growsIn (ne_of_mem_of_not_mem hm fresh) grows
  live m d h := by
    by_cases same : m = n
    · subst same
      exact live d h
    · exact settled.live m d (grows.2 m d same h)
  garbage m hm d h unmarked := by
    rcases List.mem_cons.1 hm with rfl | hm
    · obtain ⟨deletion, mem, rfl⟩ := garbage d h unmarked
      refine ⟨deletion, List.mem_append_right _ (List.mem_filter.2 ⟨mem, ?_⟩), (facts _ mem).1, rfl⟩
      rw [unmarked]
      rfl
    · have before : found.marks.containsIn m d = false := by
        rw [← Bool.not_eq_true] at unmarked ⊢
        exact fun marked => unmarked (grows.1 m d marked)
      obtain ⟨deletion, mem, same⟩ := settled.garbage m hm d h before
      exact ⟨deletion, List.mem_append_left _ mem, same⟩
  unmarked deletion mem := by
    rcases List.mem_append.1 mem with mem | mem
    · obtain ⟨hm, unmarked, accepted⟩ := settled.unmarked deletion mem
      refine ⟨List.mem_cons_of_mem n hm, ?_, accepted⟩
      rw [← Bool.not_eq_true] at unmarked ⊢
      exact fun marked => unmarked (grows.2 _ _ (ne_of_mem_of_not_mem hm fresh) marked)
    · obtain ⟨mem, unmarked⟩ := List.mem_filter.1 mem
      obtain ⟨rfl, -, accepted⟩ := facts deletion mem
      exact ⟨List.mem_cons_self, by simpa using unmarked, accepted⟩
  listed deletion mem := by
    rcases List.mem_append.1 mem with mem | mem
    · exact settled.listed deletion mem
    · obtain ⟨rfl, has, -⟩ := facts deletion (List.mem_filter.1 mem).1
      exact has

/-- Whether no manifest that may be pending in a repository fails to load. -/
def Loads (s : Site) (b : Bucket) (r : Repository) (C : DescriptorCache → Prop)
    (L : Pending → Prop) : Prop :=
  ∀ cache, C cache → ∀ p, L p → ((s.world b cache).run (load r p)).1.isOk = true

/-- To mark one more repository settles what is in use there, and succeeds if no manifest fails to
load. -/
theorem run_markRepository (h : b.IsLedger) {n : RepositoryName}
    (loading : Loading s b ⟨settings, n⟩ C (L n) (B n) (K n))
    (roots : ∀ d, b.Has (.link .revision n d) → IsRoot options b n d → L n ⟨d, false⟩)
    (tagged : ∀ d, b.IsTagged n d → L n ⟨d, true⟩) {names : List RepositoryName}
    (fresh : n ∉ names) {found : Marking} (settled : Settles settings options b L B K names found)
    {cache : DescriptorCache} (hc : C cache) :
    ∃ x cache', (s.world b cache).run (markRepository options ⟨settings, n⟩ found) =
        (x, s.world b cache') ∧ C cache' ∧
      (∀ found', x = .ok found' → Settles settings options b L B K (n :: names) found') ∧
      (Loads s b ⟨settings, n⟩ C (L n) → x.isOk = true) := by
  have live : ∀ p ∈ Marking.roots options b n, L n p := by
    rintro ⟨d, mayBeMissing⟩ mem
    rcases (mem_roots h).1 mem with ⟨isTagged, -, rfl⟩ | ⟨linked, root, rfl⟩
    · exact tagged d isTagged
    · exact roots d linked root
  have traced : Traced ⟨settings, n⟩ (B n) (K n) found.marks (Marking.roots options b n) :=
    fun d marked => absurd (settled.only n d marked) fresh
  obtain ⟨x, cache', ranTrace, hc', good⟩ := run_trace loading found.marks _ hc live traced
  have ran := run_markRepository_trace s cache h settings options n found
  rw [ranTrace] at ran
  cases x with
  | error e =>
    refine ⟨.error e, cache', ran, hc', fun _ => nofun, fun loads => ?_⟩
    have ok := run_trace_ok loading loads found.marks _ hc live
    rw [ranTrace] at ok
    cases ok
  | ok marks =>
    refine ⟨_, cache', ran, hc', fun found' same => ?_, fun _ => rfl⟩
    obtain ⟨traced', grows, all, supported⟩ := good marks rfl
    obtain rfl := Except.ok.inj same
    have rooted : ∀ d, b.Has (.link .revision n d) → IsRoot options b n d →
        marks.containsIn n d = true := fun d linked root =>
      all ⟨d, false⟩ ((mem_roots h).2 (.inr ⟨linked, root, rfl⟩))
    refine settled.cons fresh traced' grows (fun d isTagged => ?_)
      (fun keeps d linked => rooted d linked (.inl keeps)) (fun d linked unmarked => ?_)
      (fun d marked =>
        (supported d marked).resolve_left fun before => fresh (settled.only n d before))
      fun deletion mem => ?_
    · by_cases linked : b.Has (.link .revision n d)
      · exact rooted d linked (.inr isTagged)
      · exact all ⟨d, true⟩ ((mem_roots h).2 (.inl ⟨isTagged, linked, rfl⟩))
    · refine ⟨⟨n, d, b.tags n⟩, (mem_untagged h).2 ⟨rfl, rfl, linked, fun root => ?_⟩, rfl⟩
      rw [rooted d linked root] at unmarked
      cases unmarked
    · obtain ⟨named, tags, linked, -⟩ := (mem_untagged h).1 mem
      exact ⟨named, linked, fun t => by rw [tags, h.mem_tags]⟩

theorem run_markNamed (h : b.IsLedger)
    (loading : ∀ n, Loading s b ⟨settings, n⟩ C (L n) (B n) (K n))
    (roots : ∀ n d, b.Has (.link .revision n d) → IsRoot options b n d → L n ⟨d, false⟩)
    (tagged : ∀ n d, b.IsTagged n d → L n ⟨d, true⟩) {names rest : List RepositoryName}
    (fresh : ∀ n ∈ rest, n ∉ names) (nodup : rest.Nodup) {found : Marking}
    (settled : Settles settings options b L B K names found) {cache : DescriptorCache}
    (hc : C cache) :
    ∃ x cache', (s.world b cache).run (markNamed options settings rest found) =
        (x, s.world b cache') ∧ C cache' ∧
      (∀ rs found', x = .ok (rs, found') → rs = rest.map (fun n => ⟨settings, n⟩) ∧
        Settles settings options b L B K (rest.reverse ++ names) found') ∧
      ((∀ n, Loads s b ⟨settings, n⟩ C (L n)) →
        (settings.cached = true → ∀ n cache, C cache → cache.openFor n = .ok ()) →
          x.isOk = true) := by
  induction rest generalizing names found cache with
  | nil =>
    refine ⟨.ok ([], found), cache, rfl, hc, fun rs found' same => ?_, fun _ _ => rfl⟩
    cases same
    exact ⟨rfl, settled⟩
  | cons n rest ih =>
    rw [markNamed, run_bind, Site.run_openNamed]
    cases opened : (if settings.cached then cache.openFor n else .ok ()) with
    | error e =>
      refine ⟨.error e, cache, rfl, hc, fun _ _ => nofun, fun _ opens => ?_⟩
      split_ifs at opened with cached
      rw [opens cached n cache hc] at opened
      cases opened
    | ok u =>
      obtain ⟨x, cache', ran, hc', good, ok⟩ := run_markRepository h (loading n) (roots n)
        (tagged n) (fresh n List.mem_cons_self) settled hc
      simp only [Except.map, run_bind, ran]
      cases x with
      | error e =>
        refine ⟨.error e, cache', rfl, hc', fun _ _ => nofun, fun loads _ => ?_⟩
        cases ok (loads n)
      | ok found' =>
        have later : ∀ m ∈ rest, m ∉ n :: names := by
          intro m hm mem
          rcases List.mem_cons.1 mem with rfl | mem
          · exact (List.nodup_cons.1 nodup).1 hm
          · exact fresh m (List.mem_cons_of_mem n hm) mem
        obtain ⟨y, cache'', ran', hc'', good', ok'⟩ := ih later (List.nodup_cons.1 nodup).2
          (good found' rfl) hc'
        simp only [ran']
        cases y with
        | error e =>
          refine ⟨.error e, cache'', rfl, hc'', fun _ _ => nofun, fun loads opens => ?_⟩
          cases ok' loads opens
        | ok marked =>
          obtain ⟨rs, last⟩ := marked
          obtain ⟨rfl, settles⟩ := good' rs last rfl
          refine ⟨_, cache'', rfl, hc'', fun _ _ same => ?_, fun _ _ => rfl⟩
          cases same
          exact ⟨rfl, by simpa using settles⟩

end
end ImageRegistry.Marking
