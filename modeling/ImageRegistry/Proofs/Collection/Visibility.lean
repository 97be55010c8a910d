import ImageRegistry.Proofs.Collection.Repeating
import ImageRegistry.Proofs.Collection.Completeness
import ImageRegistry.Proofs.Manifest.Rereading

/-! Access controllers and runs. What a run reads it reads as clients do, so that a manifest that is
hidden from them is as good as missing. What differs from a run without the controller comes of the
references of such manifests, or of manifests that a run need not read anyway. -/

namespace ImageRegistry

open World

/-- The set-up without an access controller. -/
def Settings.unhidden (settings : Settings) : Settings := { settings with hides := none }

/-- The set-up with an access controller that hides one digest. -/
def Settings.concealing (settings : Settings) (hidden : Digest) : Settings :=
  { settings with hides := some fun d => d = hidden }

/-- A manifest in use whose references a run need not find: it can be read where nothing is hidden,
but it is hidden, or comes as a part of another manifest as well and is then not read, or the cache
alone tells of it. -/
structure World.Diverts (w : World) (options : CollectionOptions) (settings : Settings)
    (n : RepositoryName) (d : Digest) (m : Manifest) : Prop where
  live : w.LiveManifest options ⟨settings.unhidden, n⟩ d
  found : (w.run (Manifests.get ⟨settings.unhidden, n⟩ d)).1 = .ok m
  aside : settings.isHidden d = true ∨ w.LiveBlob options ⟨settings.unhidden, n⟩ d ∨
    ¬w.Holds ⟨settings, n⟩ d

@[simp] lemma Settings.isHidden_concealing {settings : Settings} {hidden d : Digest} :
    (settings.concealing hidden).isHidden d = true ↔ d = hidden :=
  decide_eq_true_iff

/-- Whether a set-up is another one, with or without its access controller. -/
def Settings.Unveils (settings other : Settings) : Prop :=
  other = settings ∨ other = settings.unhidden

section

variable {s : Site} {b b' : Bucket} {cache cache' : DescriptorCache} {settings other : Settings}
  {options : CollectionOptions} {n : RepositoryName} {d : Digest} {m : Manifest}

lemma Settings.Unveils.separateBlobs_eq (unveils : settings.Unveils other) :
    other.separateBlobs = settings.separateBlobs := by
  rcases unveils with rfl | rfl <;> rfl

lemma Settings.Unveils.retains_iff (unveils : settings.Unveils other) :
    b.Retains b' ⟨other, n⟩ d ↔ b.Retains b' ⟨settings, n⟩ d := by
  rcases unveils with rfl | rfl <;> rfl

lemma Settings.Unveils.holds_iff {w : World} (unveils : settings.Unveils other) :
    w.Holds ⟨other, n⟩ d ↔ w.Holds ⟨settings, n⟩ d := by
  rcases unveils with rfl | rfl <;> rfl

lemma Bucket.given_eq_unhidden (b : Bucket) (cache : DescriptorCache) (settings : Settings)
    (n : RepositoryName) (d : Digest) : b.given cache ⟨settings, n⟩ d =
      if settings.isHidden d then .error (Manifests.unknown ⟨settings, n⟩ d)
      else b.given cache ⟨settings.unhidden, n⟩ d := by
  have told : (Repository.manifests ⟨settings, n⟩).told? b cache d =
      if settings.isHidden d then none
      else (Repository.manifests ⟨settings.unhidden, n⟩).told? b cache d := by
    rw [LinkStore.told?]
    rfl
  unfold given
  rw [told]
  split_ifs <;> rfl

lemma Bucket.given_of_visible (unveils : settings.Unveils other)
    (visible : settings.isHidden d = false) :
    b.given cache ⟨other, n⟩ d = b.given cache ⟨settings.unhidden, n⟩ d := by
  rcases unveils with rfl | rfl
  · rw [given_eq_unhidden, if_neg (by simp [visible])]
  · rfl

lemma Bucket.given_unhidden (unveils : settings.Unveils other)
    (given : b.given cache ⟨other, n⟩ d = .ok m) :
    b.given cache ⟨settings.unhidden, n⟩ d = .ok m := by
  rcases unveils with rfl | rfl
  · rw [given_eq_unhidden] at given
    split_ifs at given
    exact given
  · exact given

lemma Site.retains_world_iff {r : Repository} :
    (s.world b cache).Retains (s.world b' cache') r d ↔ b.Retains b' r d := by
  simp only [World.Retains, Bucket.Retains, Site.record?_world]

lemma liveManifest_of_root (h : b.IsLedger) {p : Marking.Pending}
    (root : p ∈ Marking.roots options b n) :
    (s.world b cache).LiveManifest options ⟨settings, n⟩ p.digest := by
  have live (isTagged : b.IsTagged n p.digest) :
      (s.world b cache).LiveManifest options ⟨settings, n⟩ p.digest := by
    obtain ⟨t, accepted, target⟩ := isTagged
    exact .tagged accepted (by rw [s.run_find? cache h n accepted, target])
  rcases (Marking.mem_roots h).1 root with ⟨isTagged, -⟩ | ⟨linked, keeps | isTagged, -⟩
  · exact live isTagged
  · exact .kept keeps (by rwa [Site.record?_world])
  · exact live isTagged

end

namespace Collector

open Marking

variable {s : Site} {b : Bucket} {cache : DescriptorCache} {settings first second : Settings}
  {options : CollectionOptions} {scope : Option RepositoryName} {found found' : Marking}
  {b₁ b₂ : Bucket}

lemma retains_of_unveils (unveils : settings.Unveils first)
    (outcome : Outcome options first scope b cache found b₁) {n : RepositoryName} {d : Digest}
    (marked : found.marks.containsIn n d = true) : b.Retains b₁ ⟨settings, n⟩ d :=
  unveils.retains_iff.1 (bucket_retains_of_marked outcome.settled outcome.drops marked)

lemma retains_references (h : b.IsLedger) (faithful : cache.IsFaithful)
    (active : options.dryRun = false) (unveils : settings.Unveils first)
    (outcome : Outcome options first scope b cache found b₁) {n : RepositoryName}
    (hn : n ∈ sweptNames scope b) {d e : Digest} {m : Manifest}
    (given : b.given cache ⟨settings.unhidden, n⟩ d = .ok m)
    (direct : ¬(settings.isHidden d = true ∨
      (s.world b cache).LiveBlob options ⟨settings.unhidden, n⟩ d ∨
        ¬(s.world b cache).Holds ⟨settings, n⟩ d))
    (kept : b.Retains b₁ ⟨settings, n⟩ d) (mem : e ∈ m.references.map Descriptor.digest) :
    b.Retains b₁ ⟨settings, n⟩ e := by
  obtain ⟨visible, notBlob, holds⟩ : settings.isHidden d = false ∧
      ¬(s.world b cache).LiveBlob options ⟨settings.unhidden, n⟩ d ∧
        (s.world b cache).Holds ⟨settings, n⟩ d := by simpa using direct
  -- the run marks the manifest, as it would remove it otherwise
  have marked : found.marks.containsIn n d = true :=
    marked_of_retains outcome.settled outcome.drops active hn (unveils.holds_iff.2 holds)
      (Site.retains_world_iff.2 (unveils.retains_iff.2 kept) :
        (s.world b cache).Retains (s.world b₁ cache) ⟨first, n⟩ d)
  have found_of_read {p : Pending} {m : Manifest}
      (read : b.reading cache first n p = .ok (some m)) : ((s.world b cache).run
        (Manifests.get ⟨settings.unhidden, n⟩ p.digest)).1 = .ok m := by
    rw [Manifests.run_get_given h faithful]
    exact Bucket.given_unhidden unveils (loaded_eq_some read)
  -- and it marks it as a manifest, which it has read then
  obtain ⟨q, live, ⟨loaded, read, all⟩, rfl | ⟨m', whole, part⟩⟩ :=
    survey_cases (nodup_sweptNames scope b) (exists_of_surveyed outcome.done).1 hn
      (V := fun q => (s.world b cache).LiveManifest options ⟨settings.unhidden, n⟩ q.digest)
      (fun q m live read _ e child => .child live (found_of_read read) child)
      (fun q root => liveManifest_of_root h root) marked
  · have again : b.reading cache first n q = .ok (some m) := by
      rw [Bucket.reading, Bucket.given_of_visible unveils visible, given]
      rfl
    exact retains_of_unveils unveils outcome (all m (Except.ok.inj (read.symm.trans again)) e mem)
  · exact absurd ⟨q.digest, m', live, found_of_read whole, part⟩ notBlob

/-- What one run marks another one over the same records leaves: they begin with the same manifests
and find the same below those that both read, if the references of manifests that divert them are
left by the second where they are by the first. -/
theorem retains_of_marked_by_other (h : b.IsLedger) (faithful : cache.IsFaithful)
    (active : options.dryRun = false) (unveils : settings.Unveils first)
    (unveils' : settings.Unveils second) (outcome : Outcome options first scope b cache found b₁)
    (outcome' : Outcome options second scope b cache found' b₂) {n : RepositoryName}
    (diverted : ∀ d m, (s.world b cache).Diverts options settings n d m →
      ∀ e ∈ m.references.map Descriptor.digest,
        b.Retains b₁ ⟨settings, n⟩ e → b.Retains b₂ ⟨settings, n⟩ e)
    {d : Digest} (marked : found.marks.containsIn n d = true) : b.Retains b₂ ⟨settings, n⟩ d := by
  have hn := outcome.settled.only n d marked
  have nodup := nodup_sweptNames scope b
  have surveyed := (exists_of_surveyed outcome.done).1
  have surveyed' := (exists_of_surveyed outcome'.done).1
  let live : Digest → Prop := (s.world b cache).LiveManifest options ⟨settings.unhidden, n⟩
  have get (d : Digest) : ((s.world b cache).run (Manifests.get ⟨settings.unhidden, n⟩ d)).1 =
      b.given cache ⟨settings.unhidden, n⟩ d := by
    rw [Manifests.run_get_given h faithful]
  have below {p : Pending} {m : Manifest} (isLive : live p.digest)
      (kept : b.Retains b₂ ⟨settings, n⟩ p.digest)
      (read : b.reading cache first n p = .ok (some m))
      (refers : ∀ e ∈ m.references.map Descriptor.digest, found.marks.containsIn n e = true) :
      ∀ e ∈ m.references.map Descriptor.digest, b.Retains b₂ ⟨settings, n⟩ e := by
    intro e mem
    have given := Bucket.given_unhidden unveils (loaded_eq_some read)
    by_cases aside : settings.isHidden p.digest = true ∨
        (s.world b cache).LiveBlob options ⟨settings.unhidden, n⟩ p.digest ∨
          ¬(s.world b cache).Holds ⟨settings, n⟩ p.digest
    · exact diverted p.digest m ⟨isLive, (get p.digest).trans given, aside⟩ e mem
        (retains_of_unveils unveils outcome (refers e mem))
    · exact retains_references h faithful active unveils' outcome' hn given aside kept mem
  obtain ⟨p, ⟨isLive, kept⟩, ⟨loaded, read, all⟩, rfl | ⟨m, whole, part⟩⟩ :=
    survey_cases nodup surveyed hn
      (V := fun p => live p.digest ∧ b.Retains b₂ ⟨settings, n⟩ p.digest)
      (fun p m visited read refers e child =>
        ⟨.child visited.1 ((get p.digest).trans
            (Bucket.given_unhidden unveils (loaded_eq_some read))) child,
          below visited.1 visited.2 read refers e (mem_references_iff.2 (.inl child))⟩)
      (fun p root => ⟨liveManifest_of_root h root,
        retains_of_unveils unveils' outcome' (marked_of_survey nodup surveyed' hn p root)⟩) marked
  · exact kept
  · refine below isLive kept whole (all m ?_) d (mem_references_iff.2 (.inr part))
    exact Except.ok.inj (read.symm.trans whole)

lemma condemned_of_retains (same : second.separateBlobs = first.separateBlobs)
    (outcome : Outcome options first scope b cache found b₁)
    (outcome' : Outcome options second scope b cache found' b₂)
    (kept : ∀ n d, found'.marks.containsIn n d = true → b.Retains b₁ ⟨first, n⟩ d) {r : Record}
    (lawful : r.IsLawful) (has : b.Has r)
    (condemned : Condemned first options scope (sweptNames scope b) found b r) :
    Condemned second options scope (sweptNames scope b) found' b r := by
  have lost {q : Record} (lawful : q.IsLawful) (has : b.Has q)
      (condemned : Condemned first options scope (sweptNames scope b) found b q) :
      b₁.at? q ≠ b.at? q := by
    intro left
    rw [(outcome.drops.2 q lawful).1 condemned] at left
    rw [Bucket.Has, ← left] at has
    cases has
  have whole := condemned
  obtain ⟨active, ⟨deletion, mem, record⟩ | ⟨n, hn, d, unmarked, record, stored⟩ |
    ⟨unscoped, shared, d, unmarked, rfl⟩⟩ := condemned
  · obtain ⟨hn, unmarked, tags⟩ := outcome.settled.unmarked deletion mem
    have linked := outcome.settled.listed deletion mem
    have unmarked' : found'.marks.containsIn deletion.repository deletion.digest = false := by
      refine Bool.eq_false_iff.2 fun marked => ?_
      exact lost (q := .link .revision _ _) trivial linked
        ⟨active, .inl ⟨deletion, mem, .inl ⟨_, rfl⟩⟩⟩ ((kept _ _ marked).2 .revision)
    obtain ⟨deletion', mem', named, digest⟩ := outcome'.settled.garbage _ hn _ linked unmarked'
    have tags' := (outcome'.settled.unmarked deletion' mem').2.2
    refine ⟨active, .inl ⟨deletion', mem', ?_⟩⟩
    rw [named] at tags' ⊢
    rw [digest]
    refine record.imp_right ?_
    rintro ⟨t, isTag, same⟩
    exact ⟨t, (tags' t).2 ((tags t).1 isTag), same⟩
  · have unmarked' : found'.marks.containsIn n d = false := by
      refine Bool.eq_false_iff.2 fun marked => lost lawful has whole ?_
      rcases record with rfl | ⟨separate, rfl⟩
      · exact (kept n d marked).2 .layer
      · have content := (kept n d marked).1
        rwa [Repository.blobStore, Settings.blobStore, if_pos separate] at content
    refine ⟨active, .inr (.inl ⟨n, hn, d, unmarked', ?_, by rwa [same]⟩)⟩
    rwa [Removal.blobRecords, same]
  · have unmarked' : found'.marks.contains d = false := by
      refine Bool.eq_false_iff.2 fun marked => lost (q := .blob .shared d) trivial has whole ?_
      obtain ⟨n, marked⟩ := MarkSet.contains_iff.1 marked
      have content := (kept n d marked).1
      rwa [Repository.blobStore, Settings.blobStore, if_neg (by simp [shared])] at content
    exact ⟨active, .inr (.inr ⟨unscoped, by rwa [same], d, unmarked', rfl⟩)⟩

/-- Two runs over the same records leave the same, if each of them leaves of the references of
manifests that divert it what the other one does. -/
theorem eq_of_diverted (h : b.IsLedger) (faithful : cache.IsFaithful)
    (unveils : settings.Unveils first) (unveils' : settings.Unveils second)
    (outcome : Outcome options first scope b cache found b₁)
    (outcome' : Outcome options second scope b cache found' b₂)
    (diverted : ∀ n ∈ sweptNames scope b, ∀ d m, (s.world b cache).Diverts options settings n d m →
      ∀ e ∈ m.references.map Descriptor.digest,
        (b.Retains b₁ ⟨settings, n⟩ e ↔ b.Retains b₂ ⟨settings, n⟩ e)) : b₁ = b₂ := by
  by_cases dry : options.dryRun = true
  · have spared {other : Settings} {found : Marking} (r : Record) :
        ¬Condemned other options scope (sweptNames scope b) found b r := by
      rintro ⟨active, -⟩
      rw [dry] at active
      cases active
    rw [outcome.drops.eq_of_none h spared, outcome'.drops.eq_of_none h spared]
  have active : options.dryRun = false := Bool.eq_false_iff.2 dry
  have same : second.separateBlobs = first.separateBlobs :=
    unveils'.separateBlobs_eq.trans unveils.separateBlobs_eq.symm
  have kept (n : RepositoryName) (d : Digest) (marked : found.marks.containsIn n d = true) :
      b.Retains b₂ ⟨settings, n⟩ d :=
    retains_of_marked_by_other h faithful active unveils unveils' outcome outcome'
      (fun d m diverts e mem =>
        (diverted n (outcome.settled.only n _ marked) d m diverts e mem).1) marked
  have kept' (n : RepositoryName) (d : Digest) (marked : found'.marks.containsIn n d = true) :
      b.Retains b₁ ⟨settings, n⟩ d :=
    retains_of_marked_by_other h faithful active unveils' unveils outcome' outcome
      (fun d m diverts e mem =>
        (diverted n (outcome'.settled.only n _ marked) d m diverts e mem).2) marked
  refine outcome.drops.unique (outcome'.drops.congr fun r lawful has => ⟨fun condemned => ?_,
    fun condemned => ?_⟩)
  · exact condemned_of_retains same.symm outcome' outcome
      (fun n d marked => unveils'.retains_iff.2 (kept n d marked)) lawful has condemned
  · exact condemned_of_retains same outcome outcome'
      (fun n d marked => unveils.retains_iff.2 (kept' n d marked)) lawful has condemned

/-- A survey finds the same if nothing is hidden, where what is hidden of what is in use is missing
anyway. -/
lemma surveyed_unhidden (h : b.IsLedger) (faithful : cache.IsFaithful)
    (done : surveyed options settings scope b cache = .ok found)
    (missing : ∀ n ∈ sweptNames scope b, ∀ d,
      (s.world b cache).LiveManifest options ⟨settings.unhidden, n⟩ d →
        settings.isHidden d = true → b.given cache ⟨settings.unhidden, n⟩ d =
          .error (Manifests.unknown ⟨settings, n⟩ d)) :
    surveyed options settings.unhidden scope b cache = .ok found := by
  obtain ⟨marked, deletions⟩ := exists_of_surveyed done
  have again : survey options b (b.reading cache settings.unhidden)
      ((sweptNames scope b).filter fun _ => true) {} = .ok found.marks := by
    refine survey_congr
      (V := fun n p => (s.world b cache).LiveManifest options ⟨settings.unhidden, n⟩ p.digest)
      marked (fun n p m isLive read e child => ?_) (fun n _ p root => liveManifest_of_root h root)
      (fun n hn p isLive _ => ?_) (fun _ _ _ => rfl) (fun _ _ => nofun)
    · refine .child isLive ?_ child
      rw [Manifests.run_get_given h faithful]
      exact Bucket.given_unhidden (.inl rfl) (loaded_eq_some read)
    · rw [Bucket.reading, Bucket.reading, Bucket.given_eq_unhidden b cache settings]
      split_ifs with hidden
      · rw [missing n hn p.digest isLive hidden]
      · rfl
  rw [List.filter_true] at again
  rw [surveyed_of_survey again, ← deletions]

lemma inScope_of_mem_sweptNames {n : RepositoryName} (hn : n ∈ sweptNames scope b) :
    scope = none ∨ scope = some n := by
  cases scope with
  | none => exact .inl rfl
  | some m => exact .inr (congrArg some (List.mem_singleton.1 hn).symm)

section

variable {report reported : CollectionReport} {wh ws : World}

/-- Of two runs that succeed, one of them without the access controller, both leave the same exactly
if they leave the same of what diverts them. -/
lemma backend_eq_iff_of_diverted (h : b.IsLedger) (faithful : cache.IsFaithful)
    (ran : (s.world b cache).run (collect options settings scope) = (.ok report, wh))
    (ran' : (s.world b cache).run (collect options settings.unhidden scope) = (.ok reported, ws)) :
    ws.backend = wh.backend ↔
      ∀ n, scope = none ∨ scope = some n → ∀ d m, (s.world b cache).Diverts options settings n d m →
        ∀ e ∈ m.references.map Descriptor.digest,
          ((s.world b cache).Retains wh ⟨settings, n⟩ e ↔
            (s.world b cache).Retains ws ⟨settings, n⟩ e) := by
  obtain ⟨_, _, _, _, rfl, -, -, -, outcome⟩ := exists_outcome h faithful ran
  obtain ⟨_, _, _, _, rfl, -, -, -, outcome'⟩ := exists_outcome h faithful ran'
  constructor
  · intro equal n _ d m _ e _
    simp only [World.Retains, World.record?, equal]
    rfl
  · intro alike
    simp only [Site.retains_world_iff] at alike
    rw [eq_of_diverted h faithful (.inl rfl) (.inr rfl) outcome outcome'
      fun n hn => alike n (inScope_of_mem_sweptNames hn)]
    rfl

/-- A run comes to the same without the access controller, if whatever is hidden of what is in use
is missing anyway. -/
lemma run_collect_unhidden (h : b.IsLedger) (faithful : cache.IsFaithful)
    (ran : (s.world b cache).run (collect options settings scope) = (.ok report, wh))
    (missing : ∀ n, scope = none ∨ scope = some n → ∀ d,
      (s.world b cache).LiveManifest options ⟨settings.unhidden, n⟩ d →
        settings.isHidden d = true →
          ((s.world b cache).run (Manifests.get ⟨settings.unhidden, n⟩ d)).1 =
            .error (Manifests.unknown ⟨settings.unhidden, n⟩ d)) :
    ∃ ws, (s.world b cache).run (collect options settings.unhidden scope) = (.ok report, ws) ∧
      ws.backend = wh.backend := by
  obtain ⟨_, found, _, _, rfl, rfl, -, deletes, outcome⟩ := exists_outcome h faithful ran
  obtain ⟨_, -, -, succeeds⟩ :=
    run_collect_surveyed (s := s) h faithful options settings.unhidden scope
  have done := surveyed_unhidden h faithful outcome.done fun n hn d isLive hidden =>
    (congrArg Prod.fst (Manifests.run_get_given h faithful _ _)).symm.trans
      (missing n (inScope_of_mem_sweptNames hn) d isLive hidden)
  obtain ⟨_, _, ran', deletes', outcome'⟩ := succeeds found done
  obtain rfl := deletes.unique deletes'
  obtain rfl := outcome.drops.unique outcome'.drops
  exact ⟨_, ran', rfl⟩

end

open Manifests (outerIndex)

/-- The bucket of the example in which a list that has the list of no manifests as its child was
stored as a blob, and a tag stands for it. -/
def listedBucket : Bucket :=
  let name := exampleRepository.name
  let outer := Digest.ofContent outerIndex.payload
  ((exampleRepository.blobs.pushed exampleBucket outerIndex.payload).put
    (Record.tagTarget name "latest").key (Octets.ofText outer.text)).put
    (Record.tagEntry name "latest" outer).key (Octets.ofText outer.text)

lemma written_listedBucket :
    Written ((⟨"registry", ∅, none⟩ : Site).world listedBucket .empty) := by
  have reached : Reached exampleRepository.settings (fun _ _ => True)
      ((⟨"registry", ∅, none⟩ : Site).world exampleBucket .empty) :=
    reached_exampleBucket fun _ => trivial
  have performed : (Operation.assignTag exampleRepository.name "latest"
      (.ofContent outerIndex.payload)).perform exampleRepository.settings
        ((Operation.putBlob exampleRepository.name "" outerIndex.payload).perform
          exampleRepository.settings ((⟨"registry", ∅, none⟩ : Site).world exampleBucket .empty)) =
      (⟨"registry", ∅, none⟩ : Site).world listedBucket .empty := by
    simp only [Operation.perform, Operation.within_of_opens exampleRepository_uncached,
      LinkStore.run_put, Tags.run_assign accepts_latest]
    rfl
  rw [← performed]
  exact .operation _ _ (.operation _ _ reached.written)

lemma isLedger_listedBucket : listedBucket.IsLedger :=
  ((LinkStore.isLedger_pushed isLedger_exampleBucket _ _).put (r := .tagTarget _ _) accepts_latest
    ⟨_, rfl⟩).put (r := .tagEntry _ _ _) accepts_latest rfl

lemma digest_outerIndex_ne :
    Digest.ofContent outerIndex.payload ≠ Digest.ofContent emptyIndex := by decide +kernel

lemma at?_listedBucket {r : Record} (lawful : r.IsLawful) : listedBucket.at? r =
    if r = .tagTarget exampleRepository.name "latest" ∨
        r = .tagEntry exampleRepository.name "latest" (.ofContent outerIndex.payload) ∨
        r = .link .layer exampleRepository.name (.ofContent outerIndex.payload) then
      some (Octets.ofText (Digest.ofContent outerIndex.payload).text)
    else if r = .blob .shared (.ofContent outerIndex.payload) then some outerIndex.payload
    else exampleBucket.at? r := by
  have fresh : ¬exampleBucket.Has (.blob .shared (.ofContent outerIndex.payload)) := by
    have other := digest_outerIndex_ne
    simp [Bucket.Has, at?_exampleBucket (r := .blob _ _) trivial, other]
  have links : exampleRepository.blobs.current = .layer ∧
      exampleRepository.blobs.repository = exampleRepository.name ∧
      exampleRepository.blobs.blobs = .shared := ⟨rfl, rfl, rfl⟩
  rw [listedBucket, Bucket.at?_put (r := .tagEntry _ _ _) accepts_latest lawful,
    Bucket.at?_put (r := .tagTarget _ _) accepts_latest lawful, Bucket.at?_pushed lawful, links.1,
    links.2.1, links.2.2]
  simp only [eq_comm (b := r)]
  by_cases isBlob : r = .blob .shared (.ofContent outerIndex.payload)
  · subst isBlob
    simp [fresh]
  · simp only [isBlob, false_and, if_false]
    split_ifs <;> simp_all

lemma target?_listedBucket : listedBucket.target? exampleRepository.name "latest" =
    some (.ofContent outerIndex.payload) := by
  rw [isLedger_listedBucket.target?_eq_some_iff accepts_latest,
    at?_listedBucket (r := .tagTarget _ _) accepts_latest, if_pos (.inl rfl)]

lemma latest_of_has {t : String} (accepted : TagName.accepts t = true)
    (has : listedBucket.Has (.tagTarget exampleRepository.name t)) : t = "latest" := by
  by_contra other
  rw [Bucket.Has, at?_listedBucket (r := .tagTarget _ _) accepted,
    at?_exampleBucket (r := .tagTarget _ _) accepted] at has
  simp [other] at has

lemma roots_listedBucket : roots {} listedBucket exampleRepository.name =
    [⟨.ofContent outerIndex.payload, true⟩] := by
  have ledger := isLedger_listedBucket
  have tags : listedBucket.tags exampleRepository.name = ["latest"] := by
    refine eq_of_ascending (pairwise_ascending _) (List.pairwise_singleton _ _) fun t => ?_
    rw [ledger.mem_tags, List.mem_singleton]
    constructor
    · rintro ⟨accepted, has⟩
      exact latest_of_has accepted has
    · rintro rfl
      refine ⟨accepts_latest, ?_⟩
      simp [Bucket.Has, at?_listedBucket (r := .tagTarget _ _) accepts_latest]
  have listed : listedBucket.linkedDigests exampleRepository.name .revision =
      [.ofContent emptyIndex] := by
    refine eq_of_ascending (pairwise_ascending _) (List.pairwise_singleton _ _) fun d => ?_
    rw [ledger.mem_linkedDigests, List.mem_singleton, Bucket.Has,
      at?_listedBucket (r := .link _ _ _) trivial, at?_exampleBucket (r := .link _ _ _) trivial]
    simp
  have other := digest_outerIndex_ne
  simp [roots, tags, target?_listedBucket, listed, isRoot, other]

lemma children_outerIndex : children (.index outerIndex) = [.ofContent emptyIndex] := rfl

lemma stored_outerIndex :
    listedBucket.Has (.link .layer exampleRepository.name (.ofContent outerIndex.payload)) ∧
      listedBucket.at? (.blob .shared (.ofContent outerIndex.payload)) =
        some outerIndex.payload := by
  constructor
  · simp [Bucket.Has, at?_listedBucket (r := .link _ _ _) trivial]
  · simp [at?_listedBucket (r := .blob _ _) trivial]

lemma holds_listedBucket (s : Site) (settings : Settings)
    (shared : settings.separateBlobs = false) : (s.world listedBucket .empty).Holds
      ⟨settings, exampleRepository.name⟩ (.ofContent outerIndex.payload) := by
  have inShared : Repository.blobStore ⟨settings, exampleRepository.name⟩ = .shared := by
    simp [Repository.blobStore, Settings.blobStore, shared]
  rw [s.holds_world_iff, inShared]
  exact ⟨⟨.layer, stored_outerIndex.1⟩, by rw [Bucket.Has, stored_outerIndex.2]; rfl⟩

lemma given_listedBucket :
    listedBucket.given .empty exampleRepository (.ofContent outerIndex.payload) =
      .ok (.index outerIndex) ∧
    ∃ i : ImageIndex, i.children = [] ∧
      listedBucket.given .empty exampleRepository (.ofContent emptyIndex) = .ok (.index i) := by
  have inShared : exampleRepository.blobStore = .shared := rfl
  have reread : Manifest.ofPayload none outerIndex.payload = .ok (.index outerIndex) :=
    Manifest.isReread_index .oci (by decide) none (by simp)
  have linkedChild : listedBucket.Has
      (.link .revision exampleRepository.name (.ofContent emptyIndex)) := by
    simp [Bucket.Has, at?_listedBucket (r := .link _ _ _) trivial,
      at?_exampleBucket (r := .link _ _ _) trivial]
  constructor
  · exact Bucket.given_of_stored rfl stored_outerIndex.1 stored_outerIndex.2 reread
  · obtain ⟨i, read, childless, -⟩ := exists_ofPayload_emptyIndex
    refine ⟨i, childless, Bucket.given_of_stored rfl linkedChild ?_ read⟩
    have other := digest_outerIndex_ne.symm
    rw [at?_listedBucket (r := .blob _ _) trivial, at?_exampleBucket (r := .blob _ _) trivial]
    simp [inShared, other]

lemma list_unmarked : ¬({} : MarkSet).containsIn exampleRepository.name
    (.ofContent outerIndex.payload) = true :=
  Bool.false_ne_true

lemma child_unmarked : (({} : MarkSet).mark exampleRepository.name
    (.ofContent outerIndex.payload)).containsIn exampleRepository.name (.ofContent emptyIndex) =
      false := by
  have other := digest_outerIndex_ne
  rw [Bool.eq_false_iff, ne_eq, MarkSet.containsIn_mark]
  rintro (⟨-, same⟩ | ⟨⟨⟩⟩)
  exact other same.symm

lemma survey_listedBucket (settings : Settings)
    (same : settings.unhidden = exampleRepository.settings)
    (shown : settings.isHidden (.ofContent outerIndex.payload) = false) :
    survey {} listedBucket (listedBucket.reading .empty settings) [exampleRepository.name] {} = .ok
      ((({} : MarkSet).mark exampleRepository.name (.ofContent outerIndex.payload)).mark
        exampleRepository.name (.ofContent emptyIndex)) := by
  obtain ⟨outer, i, childless, inner⟩ := given_listedBucket
  have first : listedBucket.reading .empty settings exampleRepository.name
      ⟨.ofContent outerIndex.payload, true⟩ = .ok (some (.index outerIndex)) := by
    rw [Bucket.reading, Bucket.given_eq_unhidden, if_neg (by simp [shown]), same]
    exact congrArg (loaded _) outer
  have second : listedBucket.reading .empty settings exampleRepository.name
        ⟨.ofContent emptyIndex, true⟩ = .ok none ∨
      listedBucket.reading .empty settings exampleRepository.name
        ⟨.ofContent emptyIndex, true⟩ = .ok (some (.index i)) := by
    rw [Bucket.reading, Bucket.given_eq_unhidden, same]
    split_ifs
    · exact .inl rfl
    · exact .inr (congrArg (loaded _) inner)
  have pending : (children (.index outerIndex)).reverse.map (fun d => (⟨d, true⟩ : Pending)) ++ [] =
      [⟨.ofContent emptyIndex, true⟩] := by
    simp [children_outerIndex]
  have noParts (marks : MarkSet) (j : ImageIndex) :
      marks.markAll exampleRepository.name (parts (.index j)) = marks := rfl
  have last : (children (.index i)).reverse.map (fun d => (⟨d, true⟩ : Pending)) ++ [] = [] := by
    simp [children, childless]
  rw [survey_singleton, roots_listedBucket, visit, dif_neg list_unmarked, first]
  dsimp only
  rw [pending, noParts, visit, dif_neg (Bool.eq_false_iff.1 child_unmarked)]
  rcases second with missing | read
  · rw [missing]
    dsimp only
    rw [visit]
  · rw [read]
    dsimp only
    rw [last, noParts, visit]

lemma survey_listedBucket_of_hidden (settings : Settings)
    (hidden : settings.isHidden (.ofContent outerIndex.payload) = true) :
    survey {} listedBucket (listedBucket.reading .empty settings) [exampleRepository.name] {} =
      .ok (({} : MarkSet).mark exampleRepository.name (.ofContent outerIndex.payload)) := by
  have missing : listedBucket.reading .empty settings exampleRepository.name
      ⟨.ofContent outerIndex.payload, true⟩ = .ok none := by
    rw [Bucket.reading, Bucket.given_eq_unhidden, if_pos hidden]
    rfl
  rw [survey_singleton, roots_listedBucket, visit, dif_neg list_unmarked, missing]
  dsimp only
  rw [visit]

lemma liveManifest_listedBucket (s : Site) : (s.world listedBucket .empty).LiveManifest {}
    exampleRepository (.ofContent emptyIndex) := by
  have ledger := isLedger_listedBucket
  have found : ((s.world listedBucket .empty).run
      (Tags.find? exampleRepository.name "latest")).1 =
        .ok (some (.ofContent outerIndex.payload)) := by
    rw [s.run_find? _ ledger _ accepts_latest, target?_listedBucket]
  have got : ((s.world listedBucket .empty).run (Manifests.get exampleRepository
      (.ofContent outerIndex.payload))).1 = .ok (.index outerIndex) := by
    rw [Manifests.run_get_given ledger DescriptorCache.isFaithful_empty, given_listedBucket.1]
  refine .child (.tagged accepts_latest found) got ?_
  rw [children_outerIndex]
  exact List.mem_singleton_self _

lemma lists_of_liveManifest {s : Site} {d : Digest} {m : Manifest}
    (live : (s.world listedBucket .empty).LiveManifest {} exampleRepository d)
    (found : ((s.world listedBucket .empty).run (Manifests.get exampleRepository d)).1 = .ok m) :
    (d = .ofContent outerIndex.payload ∧ m = .index outerIndex) ∨
      d = .ofContent emptyIndex ∧ ∃ i : ImageIndex, i.children = [] ∧ m = .index i := by
  have ledger := isLedger_listedBucket
  obtain ⟨outer, i, childless, inner⟩ := given_listedBucket
  have get (e : Digest) : ((s.world listedBucket .empty).run
      (Manifests.get exampleRepository e)).1 = listedBucket.given .empty exampleRepository e := by
    rw [Manifests.run_get_given ledger DescriptorCache.isFaithful_empty]
  have isList : d = .ofContent outerIndex.payload ∨ d = .ofContent emptyIndex := by
    clear found
    induction live with
    | @tagged t _ accepted found =>
      rw [s.run_find? _ ledger _ accepted, Except.ok.injEq] at found
      obtain rfl : t = "latest" := latest_of_has accepted (by
        rw [ledger.target?_eq_some_iff accepted] at found
        rw [Bucket.Has, found]
        rfl)
      rw [target?_listedBucket] at found
      exact .inl (Option.some.inj found).symm
    | kept keeps linked => cases keeps
    | @child _ e _ _ found isChild ih =>
      rcases ih with rfl | rfl
      · rw [get, outer] at found
        cases found
        rw [children_outerIndex] at isChild
        exact .inr (List.mem_singleton.1 isChild)
      · rw [get, inner] at found
        cases found
        simp [children, childless] at isChild
  rcases isList with rfl | rfl
  · rw [get, outer] at found
    exact .inl ⟨rfl, (Except.ok.inj found).symm⟩
  · rw [get, inner] at found
    exact .inr ⟨rfl, i, childless, (Except.ok.inj found).symm⟩

variable {report : CollectionReport} {w wh : World}

/-- Let a run succeed though an access controller hides something, and compare the same run without
the controller. If that one fails it changes nothing. Otherwise both leave the same exactly if they
leave the same of the references of manifests in use that are hidden, or that a run need not read.
If whatever is hidden of the manifests in use is missing anyway, both runs come to the same. -/
theorem collect_hiding_iff (written : Written w)
    (ran : w.run (collect options settings scope) = (.ok report, wh)) :
    let shown := w.run (collect options settings.unhidden scope)
    (∀ e, shown.1 = .error e → shown.2.backend = w.backend) ∧
    (∀ reported, shown.1 = .ok reported → (shown.2.backend = wh.backend ↔
      ∀ n, scope = none ∨ scope = some n → ∀ d m, w.Diverts options settings n d m →
        ∀ e ∈ m.references.map Descriptor.digest,
          (w.Retains wh ⟨settings, n⟩ e ↔ w.Retains shown.2 ⟨settings, n⟩ e))) ∧
    ((∀ n, scope = none ∨ scope = some n → ∀ d,
        w.LiveManifest options ⟨settings.unhidden, n⟩ d → settings.isHidden d = true →
          (w.run (Manifests.get ⟨settings.unhidden, n⟩ d)).1 =
            .error (Manifests.unknown ⟨settings.unhidden, n⟩ d)) →
      shown.1 = .ok report ∧ shown.2.backend = wh.backend) := by
  obtain ⟨s, ⟨b, cache⟩, rfl, ledger, faithful⟩ := written.isSound
  refine ⟨fun e failed => backend_of_error ledger faithful failed, fun reported ran' => ?_,
    fun missing => ?_⟩
  · exact backend_eq_iff_of_diverted ledger faithful ran (Prod.ext ran' rfl)
  · obtain ⟨ws, ran', same⟩ := run_collect_unhidden ledger faithful ran missing
    rw [ran']
    exact ⟨rfl, same⟩

/-- A child of a list can be hidden, if it refers to nothing. -/
theorem hiddenChild_harmless :
    let w := (⟨"registry", ∅, none⟩ : Site).world listedBucket .empty
    let name := exampleRepository.name
    let child := Digest.ofContent emptyIndex
    let veiled := exampleRepository.settings.concealing child
    ∃ report wh, Written w ∧ w.run (collect {} veiled (some name)) = (.ok report, wh) ∧
      w.LiveManifest {} exampleRepository child ∧ veiled.isHidden child = true ∧
      (w.run (collect {} exampleRepository.settings (some name))).2.backend = wh.backend := by
  intro w name child veiled
  let s : Site := ⟨"registry", ∅, none⟩
  have ledger := isLedger_listedBucket
  have written : Written w := written_listedBucket
  have other : veiled.isHidden (.ofContent outerIndex.payload) = false :=
    Bool.eq_false_iff.2 fun hidden => digest_outerIndex_ne (Settings.isHidden_concealing.1 hidden)
  obtain ⟨_, _, _, ran, -⟩ := exists_collect_of_survey s ledger
    DescriptorCache.isFaithful_empty (some name) (survey_listedBucket veiled rfl other)
  obtain ⟨_, _, _, ran', -⟩ := exists_collect_of_survey s ledger
    DescriptorCache.isFaithful_empty (some name)
    (survey_listedBucket exampleRepository.settings rfl rfl)
  refine ⟨_, _, written, ran, liveManifest_listedBucket s, Settings.isHidden_concealing.2 rfl, ?_⟩
  have same : veiled.unhidden = exampleRepository.settings := rfl
  have leaves := (collect_hiding_iff written ran).2.1
  rw [same] at leaves
  refine (leaves _ (congrArg Prod.fst ran')).2 fun n inScope d m diverts e mem => ?_
  obtain rfl : name = n := inScope.elim nofun Option.some.inj
  obtain ⟨live, found, aside⟩ := diverts
  rw [same] at live found
  rcases lists_of_liveManifest live found with ⟨rfl, rfl⟩ | ⟨rfl, i, childless, rfl⟩
  · rcases aside with hidden | ⟨_, _, live, found, isPart⟩ | absent
    · rw [other] at hidden
      cases hidden
    · rcases lists_of_liveManifest live found with ⟨-, rfl⟩ | ⟨-, i, -, rfl⟩ <;> cases isPart
    · exact absurd (holds_listedBucket s veiled rfl) absent
  · rw [Manifest.references, childless] at mem
    cases mem

/-- The child of a list that has a tag is removed if the list is hidden, and is left otherwise. -/
theorem hiddenList_loses :
    let w := (⟨"registry", ∅, none⟩ : Site).world listedBucket .empty
    let name := exampleRepository.name
    let child := Digest.ofContent emptyIndex
    let veiled := exampleRepository.settings.concealing (.ofContent outerIndex.payload)
    Written w ∧ w.LiveManifest {} exampleRepository child ∧
    ∃ report wh reported ws, w.run (collect {} veiled (some name)) = (.ok report, wh) ∧
      w.run (collect {} exampleRepository.settings (some name)) = (.ok reported, ws) ∧
      (w.record? (.link .revision name child)).isSome = true ∧
      wh.record? (.link .revision name child) = none ∧
      ws.record? (.link .revision name child) = w.record? (.link .revision name child) := by
  intro w name child veiled
  let s : Site := ⟨"registry", ∅, none⟩
  have ledger := isLedger_listedBucket
  have linked : listedBucket.Has (.link .revision name child) := by
    simp [Bucket.Has, name, child, at?_listedBucket (r := .link _ _ _) trivial,
      at?_exampleBucket (r := .link _ _ _) trivial]
  obtain ⟨_, bh, _, ran, -, settled, drops⟩ := exists_collect_of_survey s ledger
    DescriptorCache.isFaithful_empty (some name)
    (survey_listedBucket_of_hidden veiled (Settings.isHidden_concealing.2 rfl))
  obtain ⟨_, bs, _, ran', -, settled', drops'⟩ := exists_collect_of_survey s ledger
    DescriptorCache.isFaithful_empty (some name)
    (survey_listedBucket exampleRepository.settings rfl rfl)
  have swept : name ∈ sweptNames (some name) listedBucket := List.mem_singleton_self name
  obtain ⟨deletion, mem, named, same⟩ := settled.garbage name swept child linked child_unmarked
  have left : listedBucket.Retains bs exampleRepository child := by
    refine bucket_retains_of_marked settled' drops' ?_
    rw [MarkSet.containsIn_mark]
    exact .inl ⟨rfl, rfl⟩
  refine ⟨written_listedBucket, liveManifest_listedBucket s, _, _, _, _, ran, ran', ?_⟩
  simp only [w, Site.record?_world]
  refine ⟨linked, ?_, left.2 .revision⟩
  refine (drops.2 (.link .revision name child) trivial).1 ⟨rfl, .inl ?_⟩
  exact deletes_link_iff.2 ⟨deletion, mem, named, same⟩

end Collector
end ImageRegistry
