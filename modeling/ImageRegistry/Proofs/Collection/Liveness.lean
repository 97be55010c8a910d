import ImageRegistry.Crypto.Ed25519
import ImageRegistry.Location.WebLocation
import ImageRegistry.Proofs.Manifest.Rereading
import ImageRegistry.Proofs.Registry.History

/-! What garbage collection keeps. Live is what tags stand for and what live manifests refer to.
A digest is visited once, so a manifest that was first met as a part of another one is not read:
live content is lost below such a manifest, and nowhere else. -/

namespace ImageRegistry

open World

namespace World

/-- What the storage holds for a record. -/
def record? (w : World) (r : Record) : Option Octets :=
  (w.backend.download w.bucket r.key).toOption

/-- Whether a digest is linked in a repository and its content is stored. -/
def Holds (w : World) (r : Repository) (d : Digest) : Prop :=
  (∃ kind, (w.record? (.link kind r.name d)).isSome = true) ∧
    (w.record? (.blob r.blobStore d)).isSome = true

/-- Whether a digest has the same content and the same links afterwards. -/
def Retains (w w' : World) (r : Repository) (d : Digest) : Prop :=
  w'.record? (.blob r.blobStore d) = w.record? (.blob r.blobStore d) ∧
    ∀ kind, w'.record? (.link kind r.name d) = w.record? (.link kind r.name d)

/-- The manifests that are in use: those that a tag stands for, those that are linked if they are
kept without a tag, and the children of manifests in use. -/
inductive LiveManifest (w : World) (options : CollectionOptions) (r : Repository) :
    Digest → Prop
  | tagged {t : String} {d : Digest} (accepted : TagName.accepts t = true)
      (found : (w.run (Tags.find? r.name t)).1 = .ok (some d)) : LiveManifest w options r d
  | kept {d : Digest} (untagged : options.removeUntagged = false)
      (linked : (w.record? (.link .revision r.name d)).isSome = true) : LiveManifest w options r d
  | child {d e : Digest} {m : Manifest} (live : LiveManifest w options r d)
      (found : (w.run (Manifests.get r d)).1 = .ok m) (child : e ∈ Marking.children m) :
      LiveManifest w options r e

/-- The blobs that are in use: the parts of manifests in use. -/
def LiveBlob (w : World) (options : CollectionOptions) (r : Repository) (e : Digest) : Prop :=
  ∃ d m, w.LiveManifest options r d ∧ (w.run (Manifests.get r d)).1 = .ok m ∧ e ∈ Marking.parts m

end World

lemma Site.record?_world (s : Site) (b : Bucket) (cache : DescriptorCache) (r : Record) :
    (s.world b cache).record? r = b.at? r := by
  change ((⟨s.others.insert s.name b⟩ : Memory).download s.name r.key).toOption = _
  rw [Memory.download, s.bucket_world, Bucket.at?]
  cases h : b.content? r.key <;> simp [bind, Except.bind, h] <;> rfl

lemma Site.holds_world_iff (s : Site) (b : Bucket) (cache : DescriptorCache) (r : Repository)
    (d : Digest) : (s.world b cache).Holds r d ↔
      (∃ kind, b.Has (.link kind r.name d)) ∧ b.Has (.blob r.blobStore d) := by
  simp only [World.Holds, record?_world, Bucket.Has]

lemma Bucket.holds_of_manifest {b : Bucket} {r : Repository} {d : Digest} {m : Manifest}
    (h : b.manifest r d = .ok m) :
    (∃ kind, b.Has (.link kind r.name d)) ∧ b.Has (.blob r.blobStore d) := by
  unfold manifest at h
  cases found : b.descriptor? r.manifests d with
  | none => rw [found] at h; cases h
  | some descriptor =>
    obtain ⟨⟨kind, _, linked⟩, stored, _⟩ := descriptor?_eq_some found
    exact ⟨⟨kind, linked⟩, stored⟩

lemma Bucket.manifest_of_stored {b : Bucket} {r : Repository} {d : Digest} {content : Octets}
    {m : Manifest} {kind : LinkKind} (linked : b.Has (.link kind r.name d))
    (stored : b.at? (.blob r.blobStore d) = some content)
    (read : Manifest.ofPayload none content = .ok m) : b.manifest r d = .ok m := by
  have same : r.manifests.blobs = r.blobStore := rfl
  have kinds : r.manifests.kinds = [.revision, .layer] := rfl
  have followed : kind ∈ r.manifests.kinds := by cases kind <;> simp [kinds]
  rw [manifest, descriptor?, if_pos ⟨kind, followed, linked⟩, same, stored, Option.map_some,
    Option.bind_some, Option.elim_some, read]
  rfl

namespace Collector

section

variable {s : Site} {b b' : Bucket} {cache cache' : DescriptorCache} {settings : Settings}
  {options : CollectionOptions} {scope : Option RepositoryName} {names : List RepositoryName}
  {found : Marking} {n : RepositoryName} {d : Digest}
  {L : RepositoryName → Marking.Pending → Prop} {B : RepositoryName → Digest → Prop}
  {K : RepositoryName → Digest → Manifest → Prop}

lemma retains_of_marked (settled : Marking.Settles settings options b L B K names found)
    (drops : b.Drops b' (Condemned settings options scope names found b))
    (marked : found.marks.containsIn n d = true) :
    (s.world b cache).Retains (s.world b' cache') ⟨settings, n⟩ d := by
  simp only [Retains, Site.record?_world]
  constructor
  · exact (drops.2 (.blob _ d) trivial).2 (not_condemned_of_marked settled marked (.inr rfl))
  · exact fun kind => (drops.2 (.link kind n d) trivial).2
      (not_condemned_of_marked settled marked (.inl ⟨kind, rfl⟩))

lemma marked_of_retains (settled : Marking.Settles settings options b L B K names found)
    (drops : b.Drops b' (Condemned settings options scope names found b))
    (active : options.dryRun = false) (hn : n ∈ names)
    (holds : (s.world b cache).Holds ⟨settings, n⟩ d)
    (retains : (s.world b cache).Retains (s.world b' cache') ⟨settings, n⟩ d) :
    found.marks.containsIn n d = true := by
  by_contra unmarked
  rw [Site.holds_world_iff] at holds
  simp only [Retains, Site.record?_world] at retains
  obtain ⟨kind, has⟩ := holds.1
  have dropped := (drops.2 (.link kind n d) trivial).1 (condemned_of_unmarked scope settled active
    hn (Bool.not_eq_true _ ▸ unmarked) has holds.2)
  rw [retains.2 kind] at dropped
  rw [Bucket.Has, dropped] at has
  cases has

lemma mem_of_holds (swept : AreSwept scope b names) (inScope : scope = none ∨ scope = some n)
    (holds : (s.world b cache).Holds ⟨settings, n⟩ d) : n ∈ names := by
  rcases inScope with rfl | rfl
  · obtain ⟨⟨kind, linked⟩, _⟩ := holds
    rw [Site.record?_world] at linked
    exact (swept n).2 ⟨.link kind n d, trivial, linked, rfl⟩
  · rw [AreSwept] at swept
    simp [swept]

lemma retains_of_dry (drops : b.Drops b' (Condemned settings options scope names found b))
    (dry : options.dryRun = true) :
    (s.world b cache).Retains (s.world b' cache') ⟨settings, n⟩ d := by
  have spared (r : Record) : ¬Condemned settings options scope names found b r := by
    rintro ⟨active, -⟩
    rw [dry] at active
    cases active
  simp only [Retains, Site.record?_world]
  exact ⟨(drops.2 (.blob _ d) trivial).2 (spared _),
    fun kind => (drops.2 (.link kind n d) trivial).2 (spared _)⟩

/-- A digest is marked, or it is retained if it is held. -/
def IsSpared (w w' : World) (r : Repository) (found : Marking) (d : Digest) : Prop :=
  found.marks.containsIn r.name d = true ∨ (w.Holds r d → w.Retains w' r d)

lemma IsSpared.marked (settled : Marking.Settles settings options b L B K names found)
    (drops : b.Drops b' (Condemned settings options scope names found b))
    (active : options.dryRun = false) (hn : n ∈ names)
    (spared : IsSpared (s.world b cache) (s.world b' cache') ⟨settings, n⟩ found d)
    (holds : (s.world b cache).Holds ⟨settings, n⟩ d) : found.marks.containsIn n d = true :=
  spared.elim id fun retains => marked_of_retains settled drops active hn holds (retains holds)

lemma IsSpared.of_reference
    (settled : Marking.Settles settings options b L B
      (fun n d m => b.manifest ⟨settings, n⟩ d = .ok m) names found)
    (drops : b.Drops b' (Condemned settings options scope names found b))
    (swept : AreSwept scope b names) (active : options.dryRun = false)
    (inScope : scope = none ∨ scope = some n) {m : Manifest} {e : Digest}
    (spared : IsSpared (s.world b cache) (s.world b' cache') ⟨settings, n⟩ found d)
    (known : b.manifest ⟨settings, n⟩ d = .ok m) (refers : e ∈ m.references.map Descriptor.digest)
    (twofold : B n d → (s.world b cache).Holds ⟨settings, n⟩ e →
      (s.world b cache).Retains (s.world b' cache') ⟨settings, n⟩ e) :
    IsSpared (s.world b cache) (s.world b' cache') ⟨settings, n⟩ found e := by
  have holds : (s.world b cache).Holds ⟨settings, n⟩ d := by
    rw [Site.holds_world_iff]
    exact Bucket.holds_of_manifest known
  have hn := mem_of_holds swept inScope holds
  rcases settled.closed n hn d (spared.marked settled drops active hn holds) with isBlob | closed
  · exact .inr (twofold isBlob)
  · exact .inl ((closed m known e refers).resolve_right (by simp))

/-- If the references of live manifests that are live blobs as well are spared, all live manifests
are. -/
lemma isSpared_of_live (ledger : b.IsLedger)
    (read : ∀ d, ((s.world b cache).run (Manifests.get ⟨settings, n⟩ d)).1 =
      b.manifest ⟨settings, n⟩ d)
    (settled : Marking.Settles settings options b L B
      (fun n d m => b.manifest ⟨settings, n⟩ d = .ok m) names found)
    (drops : b.Drops b' (Condemned settings options scope names found b))
    (swept : AreSwept scope b names) (active : options.dryRun = false)
    (inScope : scope = none ∨ scope = some n)
    (twofold : ∀ d m, (s.world b cache).LiveManifest options ⟨settings, n⟩ d → B n d →
      b.manifest ⟨settings, n⟩ d = .ok m → ∀ e ∈ m.references.map Descriptor.digest,
        (s.world b cache).Holds ⟨settings, n⟩ e →
          (s.world b cache).Retains (s.world b' cache') ⟨settings, n⟩ e)
    (live : (s.world b cache).LiveManifest options ⟨settings, n⟩ d) :
    IsSpared (s.world b cache) (s.world b' cache') ⟨settings, n⟩ found d := by
  induction live with
  | @tagged t d accepted target =>
    refine .inr fun holds => retains_of_marked settled drops ?_
    rw [s.run_find? cache ledger n accepted] at target
    exact settled.tagged n (mem_of_holds swept inScope holds) d ⟨t, accepted, Except.ok.inj target⟩
  | kept untagged linked =>
    refine .inr fun holds => retains_of_marked settled drops ?_
    rw [Site.record?_world] at linked
    exact settled.kept untagged n (mem_of_holds swept inScope holds) _ linked
  | @child d e m live readable isChild ih =>
    have known := (read d).symm.trans readable
    have refers := Marking.mem_references_iff.2 (.inl isChild)
    exact ih.of_reference settled drops swept active inScope known refers
      fun isBlob => twofold d m live isBlob known e refers

/-- After a run that succeeds without a cache and with nothing hidden, whatever was marked is live,
and what is condemned is gone. -/
lemma settles_of_collect_plain (uncached : settings.cached = false)
    (unhidden : settings.hides = none) {h : Holdings} (sound : h.IsSound)
    {report : CollectionReport} {w' : World}
    (ran : (s.world h.bucket h.cache).run (collect options settings scope) = (.ok report, w')) :
    ∃ b' cache' names found, w' = s.world b' cache' ∧ AreSwept scope h.bucket names ∧
      Marking.Settles settings options h.bucket
        (fun n p => (s.world h.bucket h.cache).LiveManifest options ⟨settings, n⟩ p.digest)
        (fun n => (s.world h.bucket h.cache).LiveBlob options ⟨settings, n⟩)
        (fun n d m => h.bucket.manifest ⟨settings, n⟩ d = .ok m) names found ∧
      h.bucket.Drops b' (Condemned settings options scope names found h.bucket) := by
  obtain ⟨b, cache⟩ := h
  have ledger : b.IsLedger := sound.isLedger
  have target (n : RepositoryName) {t : String} (accepted : TagName.accepts t = true) :=
    congrArg Prod.fst (s.run_find? cache ledger n accepted)
  have read (n : RepositoryName) (d : Digest) :
      ((s.world b cache).run (Manifests.get ⟨settings, n⟩ d)).1 = b.manifest ⟨settings, n⟩ d := by
    rw [Manifests.run_get_plain ledger uncached unhidden]
  obtain ⟨x, b', cache', ran', -, -, -, good, -⟩ := run_collect options
    (L := fun n p => (s.world b cache).LiveManifest options ⟨settings, n⟩ p.digest)
    (B := fun n => (s.world b cache).LiveBlob options ⟨settings, n⟩)
    ledger
    (fun n => Marking.loading_of_plain (s := s) ledger (r := ⟨settings, n⟩) uncached unhidden
      fun p live m known => ⟨fun d child => .child live ((read n p.digest).trans known) child,
        fun d part => ⟨p.digest, m, live, (read n p.digest).trans known, part⟩⟩)
    (fun n d linked root => root.elim
      (fun kept => .kept kept (by rwa [Site.record?_world]))
      fun ⟨t, accepted, stands⟩ => .tagged accepted ((target n accepted).trans (by rw [stands])))
    (fun n d ⟨t, accepted, stands⟩ => .tagged accepted ((target n accepted).trans (by rw [stands])))
    scope sound.isFaithful
  rw [ran] at ran'
  obtain ⟨rfl, rfl⟩ := Prod.mk.inj ran'
  obtain ⟨names, found, swept, settled, drops⟩ := good report rfl
  exact ⟨b', cache', names, found, rfl, swept, settled, drops⟩

end

section

variable {settings : Settings} {w w' : World} {options : CollectionOptions}
  {scope : Option RepositoryName} {report : CollectionReport}

lemma retains_of_twofold (uncached : settings.cached = false) (unhidden : settings.hides = none)
    (reached : Reached settings (fun _ _ => True) w)
    (ran : w.run (collect options settings scope) = (.ok report, w'))
    (twofold : ∀ n, scope = none ∨ scope = some n → ∀ d m,
      w.LiveManifest options ⟨settings, n⟩ d → w.LiveBlob options ⟨settings, n⟩ d →
        (w.run (Manifests.get ⟨settings, n⟩ d)).1 = .ok m →
          ∀ e ∈ m.references.map Descriptor.digest,
            w.Holds ⟨settings, n⟩ e → w.Retains w' ⟨settings, n⟩ e)
    {n : RepositoryName} (inScope : scope = none ∨ scope = some n) {d : Digest}
    (live : w.LiveManifest options ⟨settings, n⟩ d ∨ w.LiveBlob options ⟨settings, n⟩ d)
    (holds : w.Holds ⟨settings, n⟩ d) : w.Retains w' ⟨settings, n⟩ d := by
  obtain ⟨s, ⟨b, cache⟩, rfl, sound⟩ := reached.isSound
  have ledger : b.IsLedger := sound.isLedger
  obtain ⟨b', cache', names, found, rfl, swept, settled, drops⟩ :=
    settles_of_collect_plain uncached unhidden sound ran
  by_cases dry : options.dryRun = true
  · exact retains_of_dry drops dry
  have active : options.dryRun = false := Bool.eq_false_iff.2 dry
  have read (d : Digest) :
      ((s.world b cache).run (Manifests.get ⟨settings, n⟩ d)).1 = b.manifest ⟨settings, n⟩ d := by
    rw [Manifests.run_get_plain ledger uncached unhidden]
  have below (d : Digest) (m : Manifest)
      (live : (s.world b cache).LiveManifest options ⟨settings, n⟩ d)
      (isBlob : (s.world b cache).LiveBlob options ⟨settings, n⟩ d)
      (known : b.manifest ⟨settings, n⟩ d = .ok m) :=
    twofold n inScope d m live isBlob ((read d).trans known)
  have manifests {d : Digest} (live : (s.world b cache).LiveManifest options ⟨settings, n⟩ d) :=
    isSpared_of_live ledger read settled drops swept active inScope below live
  have spared : IsSpared (s.world b cache) (s.world b' cache') ⟨settings, n⟩ found d := by
    rcases live with live | ⟨c, m, live, readable, isPart⟩
    · exact manifests live
    · have known := (read c).symm.trans readable
      have refers := Marking.mem_references_iff.2 (.inr isPart)
      exact (manifests live).of_reference settled drops swept active inScope known refers
        fun isBlob => below c m live isBlob known d refers
  exact spared.elim (retains_of_marked settled drops) fun retains => retains holds

/-- If a run succeeds, everything live in the repositories that it sweeps keeps its content and its
links, exactly if everything does that is referred to by manifests that are live blobs as well. -/
theorem retains_live_iff {settings : Settings} (uncached : settings.cached = false)
    (unhidden : settings.hides = none) {w : World} (reached : Reached settings (fun _ _ => True) w)
    {options : CollectionOptions} {scope : Option RepositoryName} {report : CollectionReport}
    {w' : World} (ran : w.run (collect options settings scope) = (.ok report, w')) :
    (∀ n, scope = none ∨ scope = some n → ∀ d,
      w.LiveManifest options ⟨settings, n⟩ d ∨ w.LiveBlob options ⟨settings, n⟩ d →
        w.Holds ⟨settings, n⟩ d → w.Retains w' ⟨settings, n⟩ d) ↔
    (∀ n, scope = none ∨ scope = some n → ∀ d m,
      w.LiveManifest options ⟨settings, n⟩ d → w.LiveBlob options ⟨settings, n⟩ d →
        (w.run (Manifests.get ⟨settings, n⟩ d)).1 = .ok m →
          ∀ e ∈ m.references.map Descriptor.digest,
            w.Holds ⟨settings, n⟩ e → w.Retains w' ⟨settings, n⟩ e) := by
  constructor
  · intro all n inScope d m live _ found e refers
    refine all n inScope e ?_
    rcases Marking.mem_references_iff.1 refers with child | part
    · exact .inl (.child live found child)
    · exact .inr ⟨d, m, live, found, part⟩
  · intro twofold n inScope d live holds
    exact retains_of_twofold uncached unhidden reached ran twofold inScope live holds

/-- If nothing is live both as a manifest and as a blob, whatever is live keeps its content and its
links. -/
theorem retains_live_of_apart (uncached : settings.cached = false)
    (unhidden : settings.hides = none) (reached : Reached settings (fun _ _ => True) w)
    (ran : w.run (collect options settings scope) = (.ok report, w'))
    (apart : ∀ n, scope = none ∨ scope = some n → ∀ d,
      w.LiveManifest options ⟨settings, n⟩ d → ¬w.LiveBlob options ⟨settings, n⟩ d)
    {n : RepositoryName} (inScope : scope = none ∨ scope = some n) {d : Digest}
    (live : w.LiveManifest options ⟨settings, n⟩ d ∨ w.LiveBlob options ⟨settings, n⟩ d)
    (holds : w.Holds ⟨settings, n⟩ d) : w.Retains w' ⟨settings, n⟩ d :=
  retains_of_twofold uncached unhidden reached ran
    (fun m inScope e _ live isBlob => absurd isBlob (apart m inScope e live)) inScope live holds

lemma lost_of_not_live (uncached : settings.cached = false) (unhidden : settings.hides = none)
    (reached : Reached settings (fun _ _ => True) w)
    (ran : w.run (collect options settings scope) = (.ok report, w'))
    (active : options.dryRun = false) {n : RepositoryName} (inScope : scope = none ∨ scope = some n)
    {d : Digest}
    (dead : ¬(w.LiveManifest options ⟨settings, n⟩ d ∨ w.LiveBlob options ⟨settings, n⟩ d))
    (holds : w.Holds ⟨settings, n⟩ d) (kind : LinkKind) : w'.record? (.link kind n d) = none := by
  obtain ⟨s, ⟨b, cache⟩, rfl, sound⟩ := reached.isSound
  obtain ⟨b', cache', names, found, rfl, swept, settled, drops⟩ :=
    settles_of_collect_plain uncached unhidden sound ran
  have hn := mem_of_holds swept inScope holds
  have unmarked : found.marks.containsIn n d = false := Bool.eq_false_iff.2 fun marked =>
    dead ((settled.live n d marked).imp_left fun ⟨_, live⟩ => live)
  rw [Site.record?_world]
  by_cases has : b.Has (.link kind n d)
  · have stored := ((s.holds_world_iff b cache _ d).1 holds).2
    exact (drops.2 (.link kind n d) trivial).1
      (condemned_of_unmarked scope settled active hn unmarked has stored)
  · have gone : ¬b'.Has (.link kind n d) := fun left =>
      has ((drops.has (r := .link kind n d) trivial).1 left).1
    simpa [Bucket.Has] using gone

end

section

variable {s : Site} {b : Bucket} {cache : DescriptorCache} {settings : Settings}
  {n : RepositoryName} {d e : Digest}

/-- Whether each tag stands for a manifest that can be read and has no children, or for something
that is not linked as a manifest and cannot be read. -/
def IsFlat (settings : Settings) (b : Bucket) : Prop :=
  ∀ n d, b.IsTagged n d →
    (∃ m, b.manifest ⟨settings, n⟩ d = .ok m ∧ Marking.children m = []) ∨
      b.manifest ⟨settings, n⟩ d = .error (Manifests.unknown ⟨settings, n⟩ d) ∧
        ¬b.Has (.link .revision n d)

/-- Whether a manifest that a tag stands for has the digest as a part. -/
def IsTaggedPart (settings : Settings) (b : Bucket) (n : RepositoryName) (e : Digest) : Prop :=
  ∃ d m, b.IsTagged n d ∧ b.manifest ⟨settings, n⟩ d = .ok m ∧ e ∈ Marking.parts m

namespace IsFlat

variable (flat : IsFlat settings b) (ledger : b.IsLedger) (uncached : settings.cached = false)
  (unhidden : settings.hides = none)

include flat ledger uncached unhidden

lemma liveManifest_iff :
    (s.world b cache).LiveManifest {} ⟨settings, n⟩ d ↔ b.IsTagged n d := by
  constructor
  · intro live
    induction live with
    | tagged accepted target =>
      rw [s.run_find? cache ledger n accepted] at target
      exact ⟨_, accepted, Except.ok.inj target⟩
    | kept untagged => cases untagged
    | child _ found child isTagged =>
      rw [Manifests.run_get_plain ledger uncached unhidden] at found
      rcases flat n _ isTagged with ⟨m, known, childless⟩ | ⟨unknown, -⟩
      · obtain rfl := Except.ok.inj (known.symm.trans found)
        rw [childless] at child
        cases child
      · cases unknown.symm.trans found
  · rintro ⟨t, accepted, target⟩
    refine .tagged accepted ?_
    rw [s.run_find? cache ledger n accepted, target]

lemma liveBlob_iff :
    (s.world b cache).LiveBlob {} ⟨settings, n⟩ e ↔ IsTaggedPart settings b n e := by
  simp only [LiveBlob, flat.liveManifest_iff ledger uncached unhidden,
    Manifests.run_get_plain (r := ⟨settings, n⟩) ledger uncached unhidden, IsTaggedPart]

lemma loading : Marking.Loading s b ⟨settings, n⟩ DescriptorCache.IsFaithful
    (fun p => b.IsTagged n p.digest ∧ (p.mayBeMissing = true ∨ b.Has (.link .revision n p.digest)))
    (IsTaggedPart settings b n) fun d m => b.manifest ⟨settings, n⟩ d = .ok m := by
  refine Marking.loading_of_plain ledger uncached unhidden fun p live m known => ⟨?_, ?_⟩
  · rcases flat n _ live.1 with ⟨m', known', childless⟩ | ⟨unknown, -⟩
    · obtain rfl := Except.ok.inj (known'.symm.trans known)
      simp [childless]
    · cases unknown.symm.trans known
  · exact fun e part => ⟨p.digest, m, live.1, known, part⟩

lemma loads : Marking.Loads s b ⟨settings, n⟩ DescriptorCache.IsFaithful
    fun p => b.IsTagged n p.digest ∧
      (p.mayBeMissing = true ∨ b.Has (.link .revision n p.digest)) := by
  rintro later - p ⟨isTagged, present⟩
  rw [Marking.run_load (Manifests.run_get_plain ledger uncached unhidden p.digest)]
  rcases flat n _ isTagged with ⟨m, known, -⟩ | ⟨unknown, unlinked⟩
  · rw [known]
    rfl
  · rw [unknown, Manifests.unknown, Marking.loaded, if_pos (present.resolve_right unlinked)]
    rfl

lemma exists_markRepository (faithful : cache.IsFaithful) (n : RepositoryName) :
    ∃ found, ((s.world b cache).run (Marking.markRepository {} ⟨settings, n⟩ {})).1 = .ok found ∧
      ∀ m d, found.marks.containsIn m d = true →
        m = n ∧ (b.IsTagged n d ∨ IsTaggedPart settings b n d) := by
  have start : Marking.Settles settings {} b (fun n p => b.IsTagged n p.digest ∧
      (p.mayBeMissing = true ∨ b.Has (.link .revision n p.digest))) (IsTaggedPart settings b)
      (fun n d m => b.manifest ⟨settings, n⟩ d = .ok m) [] {} := Marking.settles_nil
  obtain ⟨x, cache', ran, -, good, ok⟩ := Marking.run_markRepository (s := s) ledger
    (flat.loading ledger uncached unhidden (n := n))
    (fun d linked (root : Marking.IsRoot {} b n d) => ⟨root.resolve_left nofun, .inr linked⟩)
    (fun d isTagged => ⟨isTagged, .inl rfl⟩) List.not_mem_nil start faithful
  cases x with
  | error e => cases ok (flat.loads ledger uncached unhidden)
  | ok found =>
    refine ⟨found, congrArg Prod.fst ran, fun m d marked => ?_⟩
    obtain rfl := List.mem_singleton.1 ((good found rfl).only m d marked)
    exact ⟨rfl, ((good found rfl).live m d marked).imp_left fun ⟨_, isTagged, _⟩ => isTagged⟩

lemma exists_collect (faithful : cache.IsFaithful) (scope : Option RepositoryName) :
    ∃ report w', (s.world b cache).run (collect {} settings scope) = (.ok report, w') := by
  obtain ⟨x, b', cache', ran, -, -, -, -, ok⟩ := run_collect (s := s) {} ledger
    (fun n => flat.loading ledger uncached unhidden (n := n))
    (fun n d linked root => ⟨root.resolve_left nofun, .inr linked⟩)
    (fun n d isTagged => ⟨isTagged, .inl rfl⟩) scope faithful
  have isOk := ok (fun n => flat.loads ledger uncached unhidden) fun cached => by
    rw [uncached] at cached
    cases cached
  cases x with
  | error e => cases isOk
  | ok report => exact ⟨report, _, ran⟩

end IsFlat

end

/-- A list of no manifests. -/
def emptyIndex : Octets := Octets.ofText "\x7b\"schemaVersion\":2,\"manifests\":[]\x7d"

def listsNothing (payload : Octets) : Bool :=
  match Manifest.ofPayload none payload with
  | .ok (.index i) => i.children.isEmpty && i.payload == payload
  | _ => false

lemma exists_ofPayload_emptyIndex :
    ∃ i : ImageIndex, Manifest.ofPayload none emptyIndex = .ok (.index i) ∧ i.children = [] ∧
      i.payload = emptyIndex := by
  have read : listsNothing emptyIndex = true := by decide +kernel
  unfold listsNothing at read
  split at read
  · simp only [Bool.and_eq_true, List.isEmpty_iff, beq_iff_eq] at read
    exact ⟨_, ‹_›, read⟩
  · cases read

/-- The repository of an example. -/
def exampleRepository : Repository where
  settings := { scheme := Ed25519.scheme, reader := .plain }
  name := ⟨"library/app", RepositoryName.accepts_libraryApp⟩

lemma exampleRepository_uncached {p : Prop} : exampleRepository.settings.cached = true → p := nofun

lemma exists_perform_emptyIndex (r : Repository) : ∃ descriptor : Descriptor,
    descriptor.digest = .ofContent emptyIndex ∧
    (Operation.putManifest r.name none emptyIndex "" none).perform r.settings
        (.fresh "registry" none) =
      (⟨"registry", ∅, none⟩ : Site).world (r.manifests.pushed ∅ emptyIndex)
        (r.manifests.noted .empty (.ofContent emptyIndex) descriptor) := by
  obtain ⟨i, read, childless, payload⟩ := exists_ofPayload_emptyIndex
  let descriptor : Descriptor :=
    { mediaType := i.format.mediaType, size := emptyIndex.length, digest := .ofContent emptyIndex }
  refine ⟨descriptor, rfl, ?_⟩
  rw [World.fresh_eq, Operation.perform, Operation.within_of_opens fun _ => rfl]
  rw [run_bind, run_orFail, read]
  change (World.run _ (Manifests.put _ _ _ _)).2 = _
  rw [Manifests.put, run_bind, Manifests.prepare, childless]
  change (World.run _ _).2 = _
  rw [run_bind, LinkStore.run_put]
  simp only [Manifest.payload, payload]
  rfl

/-- The bucket of a registry in which a list of no manifests was stored. -/
def exampleBucket : Bucket := exampleRepository.manifests.pushed ∅ emptyIndex

lemma reached_exampleBucket {Allowed : World → Operation → Prop}
    (allowed : ∀ w, Allowed w (.putManifest exampleRepository.name none emptyIndex "" none)) :
    Reached exampleRepository.settings Allowed
      ((⟨"registry", ∅, none⟩ : Site).world exampleBucket .empty) := by
  obtain ⟨descriptor, -, performed⟩ := exists_perform_emptyIndex exampleRepository
  have same : (⟨"registry", ∅, none⟩ : Site).world exampleBucket .empty = _ := performed.symm
  rw [same]
  exact .step _ (.start "registry" none) (allowed _)

lemma isLedger_exampleBucket : exampleBucket.IsLedger :=
  LinkStore.isLedger_pushed Bucket.isLedger_empty _ _

lemma at?_exampleBucket {r : Record} (lawful : r.IsLawful) : exampleBucket.at? r =
    if r = .link .revision exampleRepository.name (.ofContent emptyIndex) then
      some (Octets.ofText (Digest.ofContent emptyIndex).text)
    else if r = .blob .shared (.ofContent emptyIndex) then some emptyIndex
    else none := by
  rw [exampleBucket, Bucket.at?_pushed lawful, Bucket.at?_empty]
  simp only [Bucket.Has, Bucket.at?_empty]
  simp
  rfl

lemma not_has_tagTarget_exampleBucket (n : RepositoryName) (t : String)
    (accepted : TagName.accepts t = true) : ¬exampleBucket.Has (.tagTarget n t) := by
  simp [Bucket.Has, at?_exampleBucket (r := .tagTarget n t) accepted]

lemma eq_of_has_blob_exampleBucket {store : BlobStore} {d : Digest}
    (stored : exampleBucket.Has (.blob store d)) : d = .ofContent emptyIndex := by
  rw [Bucket.Has, at?_exampleBucket (r := .blob _ _) trivial, if_neg (by simp)] at stored
  split_ifs at stored with isList
  · exact (Record.blob.inj isList).2
  · cases stored

lemma exists_descriptor?_exampleBucket : ∃ descriptor,
    exampleBucket.descriptor? exampleRepository.manifests (.ofContent emptyIndex) =
      some descriptor ∧
    exampleBucket.at? (.blob exampleRepository.blobStore (.ofContent emptyIndex)) =
      some emptyIndex := by
  have linked : exampleBucket.Has
      (.link .revision exampleRepository.name (.ofContent emptyIndex)) := by
    simp [Bucket.Has, at?_exampleBucket (r := .link _ _ _) trivial]
  have stored : exampleBucket.at?
      (.blob exampleRepository.blobStore (.ofContent emptyIndex)) = some emptyIndex := by
    rw [at?_exampleBucket (r := .blob _ _) trivial, if_neg (by simp), if_pos (by rfl)]
  rw [Bucket.descriptor?, if_pos ⟨.revision, List.mem_cons_self, linked⟩]
  exact ⟨_, Option.map_eq_some_iff.2 ⟨emptyIndex, stored, rfl⟩, stored⟩

lemma exists_manifest_exampleBucket : ∃ i : ImageIndex, i.children = [] ∧
    exampleBucket.manifest exampleRepository (.ofContent emptyIndex) = .ok (.index i) := by
  obtain ⟨i, read, childless, _⟩ := exists_ofPayload_emptyIndex
  obtain ⟨descriptor, found, stored⟩ := exists_descriptor?_exampleBucket
  refine ⟨i, childless, ?_⟩
  rw [Bucket.manifest, found, Option.bind_some, stored, Option.elim_some, read]
  rfl

lemma accepts_latest : TagName.accepts "latest" = true := by decide

def exampleConfig : Octets := Octets.ofText "\x7b\x7d"

def exampleLayer : Octets := Octets.ofText "layer"

/-- Something to refer to, with its digest and its size. -/
def referTo (content : Octets) : Descriptor :=
  { mediaType := "", size := content.length, digest := .ofContent content }

def exampleImage : DockerImage := .build (referTo exampleConfig) [referTo exampleLayer]

/-- The digests of the image and of its parts. -/
def imageDigests : List Digest :=
  [.ofContent exampleImage.payload, .ofContent exampleConfig, .ofContent exampleLayer]

lemma nodup_imageDigests_append : (imageDigests ++ [Digest.ofContent emptyIndex]).Nodup := by
  decide +kernel

lemma nodup_imageDigests : imageDigests.Nodup := (List.nodup_append.1 nodup_imageDigests_append).1

lemma ne_emptyIndex_of_mem_imageDigests {d : Digest} (mem : d ∈ imageDigests) :
    d ≠ .ofContent emptyIndex := fun same =>
  (List.nodup_append.1 nodup_imageDigests_append).2.2 d mem _ List.mem_cons_self same

lemma ofPayload_exampleImage :
    Manifest.ofPayload none exampleImage.payload = .ok (.docker exampleImage) :=
  Manifest.isReread_docker (by decide) (by decide) none List.mem_cons_self

lemma mem_parts_exampleImage {d : Digest} : d ∈ Marking.parts (.docker exampleImage) ↔
    d = .ofContent exampleConfig ∨ d = .ofContent exampleLayer := by
  change d ∈ [Digest.ofContent exampleConfig, Digest.ofContent exampleLayer] ↔ _
  simp

/-- The bucket after an image was pushed to a repository, its parts first, under a tag. -/
def withImage (r : Repository) (config layer payload : Octets) (b : Bucket) : Bucket :=
  (r.manifests.pushed (r.blobs.pushed (r.blobs.pushed b config) layer) payload).assigned r.name
    "latest" (.ofContent payload)

section

variable {b : Bucket} {r : Repository} {config layer payload : Octets}

lemma isLedger_withImage (ledger : b.IsLedger) : (withImage r config layer payload b).IsLedger :=
  (LinkStore.isLedger_pushed (LinkStore.isLedger_pushed (LinkStore.isLedger_pushed ledger _ _) _ _)
    _ _).assigned _ accepts_latest _

lemma has_withImage {q : Record} (has : b.Has q) : (withImage r config layer payload b).Has q :=
  (((has.pushed r.blobs config).pushed r.blobs layer).pushed r.manifests payload).assigned _ _ _

lemma holds_withImage {d : Digest}
    (mem : d ∈ [Digest.ofContent payload, .ofContent config, .ofContent layer]) :
    (∃ kind, (withImage r config layer payload b).Has (.link kind r.name d)) ∧
      (withImage r config layer payload b).Has (.blob r.blobStore d) := by
  obtain ⟨linkedConfig, storedConfig⟩ := Bucket.has_pushed b r.blobs config
  obtain ⟨linkedLayer, storedLayer⟩ := Bucket.has_pushed (r.blobs.pushed b config) r.blobs layer
  obtain ⟨linked, stored⟩ :=
    Bucket.has_pushed (r.blobs.pushed (r.blobs.pushed b config) layer) r.manifests payload
  simp only [List.mem_cons, List.not_mem_nil, or_false] at mem
  rcases mem with rfl | rfl | rfl
  · exact ⟨⟨_, linked.assigned _ _ _⟩, stored.assigned _ _ _⟩
  · exact ⟨⟨_, ((linkedConfig.pushed _ _).pushed _ _).assigned _ _ _⟩,
      ((storedConfig.pushed _ _).pushed _ _).assigned _ _ _⟩
  · exact ⟨⟨_, (linkedLayer.pushed _ _).assigned _ _ _⟩, (storedLayer.pushed _ _).assigned _ _ _⟩

lemma isTagged_withImage_iff (ledger : b.IsLedger)
    (untagged : ∀ n t, TagName.accepts t = true → ¬b.Has (.tagTarget n t))
    {n : RepositoryName} {d : Digest} :
    (withImage r config layer payload b).IsTagged n d ↔ n = r.name ∧ d = .ofContent payload := by
  refine Bucket.isTagged_assigned_iff ?_ accepts_latest fun n t accepted has => ?_
  · exact LinkStore.isLedger_pushed
      (LinkStore.isLedger_pushed (LinkStore.isLedger_pushed ledger _ _) _ _) _ _
  · have lawful : (Record.tagTarget n t).IsLawful := accepted
    rw [Bucket.has_pushed_iff lawful, Bucket.has_pushed_iff lawful,
      Bucket.has_pushed_iff lawful] at has
    exact absurd (by simpa using has) (untagged n t accepted)

lemma manifest_withImage
    (distinct : [Digest.ofContent payload, .ofContent config, .ofContent layer].Nodup)
    (fresh : ¬b.Has (.blob r.blobStore (.ofContent payload))) {m : Manifest}
    (read : Manifest.ofPayload none payload = .ok m) :
    (withImage r config layer payload b).manifest r (.ofContent payload) = .ok m := by
  have linked : (withImage r config layer payload b).Has
      (.link .revision r.name (.ofContent payload)) :=
    (Bucket.has_pushed _ r.manifests payload).1.assigned _ _ _
  have missing : ¬(r.blobs.pushed (r.blobs.pushed b config) layer).Has
      (.blob r.blobStore (.ofContent payload)) := by
    simp only [List.nodup_cons, List.mem_cons, not_or] at distinct
    rw [Bucket.has_pushed_iff (r := .blob _ _) trivial,
      Bucket.has_pushed_iff (r := .blob _ _) trivial]
    simp [distinct, fresh]
  refine Bucket.manifest_of_stored linked ?_ read
  rw [withImage, Bucket.at?_assigned accepts_latest (r := .blob _ _) trivial, if_neg (by simp),
    Bucket.at?_pushed (r := .blob _ _) trivial, if_neg (by simp), if_pos ⟨rfl, missing⟩]

end

def imagePushed (r : Repository) : Bucket → Bucket :=
  withImage r exampleConfig exampleLayer exampleImage.payload

/-- Whether the image is all that a tag stands for. -/
structure UsesImage (b : Bucket) : Prop where
  isLedger : b.IsLedger
  isTagged_iff : ∀ n d,
    b.IsTagged n d ↔ n = exampleRepository.name ∧ d = .ofContent exampleImage.payload
  manifest_eq : b.manifest exampleRepository (.ofContent exampleImage.payload) =
    .ok (.docker exampleImage)

lemma usesImage_imagePushed {b : Bucket} (ledger : b.IsLedger)
    (untagged : ∀ n t, TagName.accepts t = true → ¬b.Has (.tagTarget n t))
    (fresh : ¬b.Has (.blob exampleRepository.blobStore (.ofContent exampleImage.payload))) :
    UsesImage (imagePushed exampleRepository b) := by
  have tagged (n : RepositoryName) (d : Digest) : (imagePushed exampleRepository b).IsTagged n d ↔
      n = exampleRepository.name ∧ d = .ofContent exampleImage.payload :=
    isTagged_withImage_iff ledger untagged
  have known : (imagePushed exampleRepository b).manifest exampleRepository
      (.ofContent exampleImage.payload) = .ok (.docker exampleImage) :=
    manifest_withImage nodup_imageDigests fresh ofPayload_exampleImage
  exact ⟨isLedger_withImage ledger, tagged, known⟩

namespace UsesImage

variable {b : Bucket} {s : Site} {cache : DescriptorCache} {n : RepositoryName} {d e : Digest}

lemma isFlat (uses : UsesImage b) : IsFlat exampleRepository.settings b := by
  rintro n d isTagged
  obtain ⟨rfl, rfl⟩ := (uses.isTagged_iff n d).1 isTagged
  exact .inl ⟨_, uses.manifest_eq, rfl⟩

lemma isTaggedPart_iff (uses : UsesImage b) : IsTaggedPart exampleRepository.settings b n e ↔
    n = exampleRepository.name ∧ (e = .ofContent exampleConfig ∨ e = .ofContent exampleLayer) := by
  rw [← mem_parts_exampleImage]
  constructor
  · rintro ⟨d, m, isTagged, known, part⟩
    obtain ⟨rfl, rfl⟩ := (uses.isTagged_iff n d).1 isTagged
    obtain rfl := Except.ok.inj (uses.manifest_eq.symm.trans known)
    exact ⟨rfl, part⟩
  · rintro ⟨rfl, part⟩
    exact ⟨_, _, (uses.isTagged_iff _ _).2 ⟨rfl, rfl⟩, uses.manifest_eq, part⟩

lemma used_iff (uses : UsesImage b) :
    b.IsTagged n d ∨ IsTaggedPart exampleRepository.settings b n d ↔
      n = exampleRepository.name ∧ d ∈ imageDigests := by
  rw [uses.isTagged_iff, uses.isTaggedPart_iff, ← and_or_left]
  simp [imageDigests]

lemma live_iff (uses : UsesImage b) :
    (s.world b cache).LiveManifest {} ⟨exampleRepository.settings, n⟩ d ∨
        (s.world b cache).LiveBlob {} ⟨exampleRepository.settings, n⟩ d ↔
      n = exampleRepository.name ∧ d ∈ imageDigests := by
  rw [uses.isFlat.liveManifest_iff uses.isLedger rfl rfl,
    uses.isFlat.liveBlob_iff uses.isLedger rfl rfl, uses.used_iff]

lemma not_liveBlob (uses : UsesImage b)
    (live : (s.world b cache).LiveManifest {} ⟨exampleRepository.settings, n⟩ d) :
    ¬(s.world b cache).LiveBlob {} ⟨exampleRepository.settings, n⟩ d := by
  rw [uses.isFlat.liveManifest_iff uses.isLedger rfl rfl, uses.isTagged_iff] at live
  rw [uses.isFlat.liveBlob_iff uses.isLedger rfl rfl, uses.isTaggedPart_iff]
  obtain ⟨rfl, rfl⟩ := live
  have apart : Digest.ofContent exampleImage.payload ∉
      [Digest.ofContent exampleConfig, .ofContent exampleLayer] :=
    (List.nodup_cons.1 nodup_imageDigests).1
  exact fun isPart => apart (by simpa using isPart.2)

end UsesImage

def imageOperations (n : RepositoryName) : List Operation :=
  [.putBlob n "" exampleConfig, .putBlob n "" exampleLayer,
    .putManifest n none exampleImage.payload "" (some "latest")]

lemma perform_imageOperations (s : Site) (cache : DescriptorCache) {b : Bucket} {r : Repository}
    (ledger : b.IsLedger) (uncached : r.settings.cached = false)
    (unhidden : r.settings.hides = none) :
    (imageOperations r.name).foldl (Operation.perform r.settings) (s.world b cache) =
      s.world (imagePushed r b) cache := by
  have ledger' := LinkStore.isLedger_pushed (LinkStore.isLedger_pushed ledger r.blobs exampleConfig)
    r.blobs exampleLayer
  obtain ⟨linkedConfig, storedConfig⟩ := Bucket.has_pushed b r.blobs exampleConfig
  obtain ⟨linkedLayer, storedLayer⟩ :=
    Bucket.has_pushed (r.blobs.pushed b exampleConfig) r.blobs exampleLayer
  have prepared : (s.world _ cache).run (Manifests.prepare r "" (.docker exampleImage)) = _ :=
    Manifests.run_prepare_docker exampleImage ""
      (Manifests.run_requireBlob_plain ledger' uncached unhidden
        (linkedConfig.pushed r.blobs exampleLayer) (storedConfig.pushed r.blobs exampleLayer))
      fun layer mem => by
        rw [List.mem_singleton.1 mem, Manifests.checkDockerLayer, if_neg (by decide)]
        exact Manifests.run_requireBlob_plain ledger' uncached unhidden linkedLayer storedLayer
  simp only [imageOperations, List.foldl_cons, List.foldl_nil, Operation.perform_putBlob uncached]
  exact Operation.perform_putManifest uncached ofPayload_exampleImage prepared accepts_latest

/-- The bucket of a registry with the image beside a list of no manifests that has no tag. -/
def imageBucket : Bucket := imagePushed exampleRepository exampleBucket

lemma reached_imageBucket : Reached exampleRepository.settings (fun _ _ => True)
    ((⟨"registry", ∅, none⟩ : Site).world imageBucket .empty) := by
  have performed := perform_imageOperations ⟨"registry", ∅, none⟩ .empty (r := exampleRepository)
    isLedger_exampleBucket rfl rfl
  have start : Reached exampleRepository.settings (fun _ _ => True) _ :=
    reached_exampleBucket fun _ => trivial
  have reached := start.run (imageOperations exampleRepository.name)
  rw [performed] at reached
  exact reached

lemma usesImage_imageBucket : UsesImage imageBucket :=
  usesImage_imagePushed isLedger_exampleBucket not_has_tagTarget_exampleBucket fun stored =>
    ne_emptyIndex_of_mem_imageDigests List.mem_cons_self (eq_of_has_blob_exampleBucket stored)

lemma holds_imageBucket {s : Site} {cache : DescriptorCache} {d : Digest}
    (mem : d ∈ imageDigests) : (s.world imageBucket cache).Holds exampleRepository d :=
  (s.holds_world_iff _ _ _ _).2 (holds_withImage mem)

lemma exists_collect_imageBucket :
    let w := (⟨"registry", ∅, none⟩ : Site).world imageBucket .empty
    ∃ report w', w.run (collect {} exampleRepository.settings none) = (.ok report, w') ∧
      w.Holds exampleRepository (.ofContent emptyIndex) ∧
      ∀ kind, w'.record? (.link kind exampleRepository.name (.ofContent emptyIndex)) = none := by
  let s : Site := ⟨"registry", ∅, none⟩
  have uses := usesImage_imageBucket
  obtain ⟨report, w', ran⟩ := uses.isFlat.exists_collect (s := s) uses.isLedger rfl rfl
    DescriptorCache.isFaithful_empty none
  obtain ⟨linked, stored⟩ := Bucket.has_pushed ∅ exampleRepository.manifests emptyIndex
  have held : (s.world imageBucket .empty).Holds exampleRepository (.ofContent emptyIndex) :=
    (s.holds_world_iff _ _ _ _).2 ⟨⟨_, has_withImage linked⟩, has_withImage stored⟩
  refine ⟨report, w', ran, held,
    lost_of_not_live rfl rfl reached_imageBucket ran rfl (.inl rfl) (fun live => ?_) held⟩
  exact ne_emptyIndex_of_mem_imageDigests (uses.live_iff.1 live).2 rfl

/-- The image is retained with its parts, and the list of no manifests is lost. -/
theorem imageBucket_retained : ∃ w report w',
    Reached exampleRepository.settings (fun _ _ => True) w ∧
    w.run (collect {} exampleRepository.settings none) = (.ok report, w') ∧
    (∀ d ∈ imageDigests, w.Holds exampleRepository d ∧ w.Retains w' exampleRepository d) ∧
    w.Holds exampleRepository (.ofContent emptyIndex) ∧
    ∀ kind, w'.record? (.link kind exampleRepository.name (.ofContent emptyIndex)) = none := by
  have uses := usesImage_imageBucket
  obtain ⟨report, w', ran, lost⟩ := exists_collect_imageBucket
  have retained := (retains_live_iff rfl rfl reached_imageBucket ran).2
    fun n _ d m live isBlob => absurd isBlob (uses.not_liveBlob live)
  refine ⟨_, report, w', reached_imageBucket, ran, fun d mem => ⟨holds_imageBucket mem, ?_⟩, lost⟩
  exact retained _ (.inl rfl) d (uses.live_iff.2 ⟨rfl, mem⟩) (holds_imageBucket mem)

end Collector
end ImageRegistry
