import ImageRegistry.Registry.Manifests
import ImageRegistry.Registry.Uploads
import ImageRegistry.Proofs.Registry.Changes

/-! Which changes actions make. An action makes changes if it makes them in every sound registry,
whether it succeeds or fails; if it succeeds, its result may have a property besides. -/

namespace ImageRegistry

open World

/-- The action makes changes only, and a result of it has a property. -/
def Action.Makes {α : Type} (settings : Settings) (P : Digest → Prop) (Q : α → Prop)
    (a : Action α) : Prop :=
  ∀ (s : Site) (h : Holdings), h.IsSound → ∃ x h',
    (s.world h.bucket h.cache).run a = (x, s.world h'.bucket h'.cache) ∧
      Changes settings P h h' ∧ ∀ y, x = .ok y → Q y

namespace Action.Makes

variable {α β : Type} {settings : Settings} {P : Digest → Prop} {Q : α → Prop} {R : β → Prop}

lemma of_run {a : Action α} (reads : ∀ (s : Site) (h : Holdings), h.IsSound →
    ∃ x, (s.world h.bucket h.cache).run a = (x, s.world h.bucket h.cache) ∧ ∀ y, x = .ok y → Q y) :
    a.Makes settings P Q := by
  intro s h sound
  obtain ⟨x, ran, good⟩ := reads s h sound
  exact ⟨x, h, ran, .refl, good⟩

lemma pure {x : α} (good : Q x) : (Pure.pure x : Action α).Makes settings P Q :=
  of_run fun _ _ _ => ⟨_, run_pure _ x, fun _ same => Except.ok.inj same ▸ good⟩

lemma throw (e : RegistryError) : (throw e : Action α).Makes settings P Q :=
  of_run fun _ _ _ => ⟨_, run_throw _ e, fun _ => nofun⟩

lemma liftExcept {x : Except RegistryError α} (good : ∀ y, x = .ok y → Q y) :
    (liftM x : Action α).Makes settings P Q :=
  of_run fun _ _ _ => ⟨x, run_liftExcept _ x, good⟩

lemma orFail {ε : Type} {error : ε → RegistryError} {x : Except ε α}
    (good : ∀ y, x = .ok y → Q y) : (Action.orFail error x).Makes settings P Q := by
  refine of_run fun _ _ _ => ⟨_, run_orFail _ error x, fun y same => ?_⟩
  cases x with
  | ok z => cases same; exact good _ rfl
  | error e => cases same

lemma bind {a : Action α} {f : α → Action β} (ha : a.Makes settings P Q)
    (hf : ∀ x, Q x → (f x).Makes settings P R) : (a >>= f).Makes settings P R := by
  intro s h sound
  obtain ⟨x, h', ran, changes, good⟩ := ha s h sound
  rw [run_bind, ran]
  cases x with
  | error e => exact ⟨_, h', rfl, changes, fun _ => nofun⟩
  | ok x =>
    obtain ⟨y, h'', ran', changes', good'⟩ := hf x (good x rfl) s h' (changes.isSound sound)
    exact ⟨y, h'', ran', changes.trans changes', good'⟩

lemma map {a : Action α} {f : α → β} (ha : a.Makes settings P Q) (hf : ∀ x, Q x → R (f x)) :
    (f <$> a).Makes settings P R := by
  rw [map_eq_pure_bind]
  exact ha.bind fun x good => .pure (hf x good)

lemma tryCatch {a : Action α} {handle : RegistryError → Action α} (ha : a.Makes settings P Q)
    (hf : ∀ e, (handle e).Makes settings P Q) : (tryCatch a handle).Makes settings P Q := by
  intro s h sound
  obtain ⟨x, h', ran, changes, good⟩ := ha s h sound
  rw [run_tryCatch, ran]
  cases x with
  | ok x => exact ⟨_, h', rfl, changes, good⟩
  | error e =>
    obtain ⟨y, h'', ran', changes', good'⟩ := hf e s h' (changes.isSound sound)
    exact ⟨y, h'', ran', changes.trans changes', good'⟩

lemma weaken {a : Action α} {Q' : α → Prop} (ha : a.Makes settings P Q)
    (weaker : ∀ x, Q x → Q' x) : a.Makes settings P Q' := by
  intro s h sound
  obtain ⟨x, h', ran, changes, good⟩ := ha s h sound
  exact ⟨x, h', ran, changes, fun y same => weaker y (good y same)⟩

lemma forM {xs : List α} {f : α → Action PUnit}
    (hf : ∀ x ∈ xs, (f x).Makes settings P fun _ => True) :
    (xs.forM f).Makes settings P fun _ => True := by
  induction xs with
  | nil => exact .pure trivial
  | cons x xs ih =>
    change (f x >>= fun _ => xs.forM f).Makes settings P fun _ => True
    exact (hf x List.mem_cons_self).bind fun _ _ => ih fun y hy => hf y (List.mem_cons_of_mem x hy)

end Action.Makes

open ImageRegistry.Action

variable {settings : Settings} {P : Digest → Prop}

lemma Action.makes_fetch? (key : Path) : (Action.fetch? key).Makes settings P fun _ => True :=
  .of_run fun s h _ => ⟨_, s.run_fetch? h.bucket h.cache key, fun _ _ => trivial⟩

lemma Action.makes_size? (key : Path) : (Action.size? key).Makes settings P fun _ => True :=
  .of_run fun s h _ => ⟨_, s.run_size? h.bucket h.cache key, fun _ _ => trivial⟩

lemma Action.makes_urlFor (key : Path) :
    (Action.call (.urlFor key)).Makes settings P fun _ => True :=
  .of_run fun _ _ _ => ⟨_, run_call _ _, fun _ _ => trivial⟩

lemma Repository.mem_kinds_manifests (r : Repository) (kind : LinkKind) :
    kind ∈ r.manifests.kinds := by
  cases kind <;> simp [LinkStore.kinds, manifests]

lemma Repository.makes_openNamed (name : RepositoryName) :
    (Repository.openNamed settings name).Makes settings P
      fun r => r.settings = settings ∧ r.name = name := by
  refine .of_run fun s h _ => ⟨_, s.run_openNamed h.cache settings name, fun r same => ?_⟩
  generalize (if settings.cached then h.cache.openFor name else .ok ()) = reply at same
  cases reply with
  | error e => cases same
  | ok u =>
    cases same
    exact ⟨rfl, rfl⟩

namespace LinkStore

variable (links : LinkStore) (s : Site) (b : Bucket) (cache : DescriptorCache)

lemma run_remember (d : Digest) (descriptor : Descriptor) :
    (s.world b cache).run (links.remember d descriptor) =
      (.ok (), s.world b (links.noted cache d descriptor)) := by
  unfold remember noted
  split_ifs
  · rw [run_bind, run_call, s.answer_remember]
    rfl
  · rfl

def told? (b : Bucket) (cache : DescriptorCache) (d : Digest) : Option Descriptor :=
  if links.settings.isHidden d then none
  else
    (if links.settings.cached then (cache.lookUp (some links.repository) d).toOption else none).or
      (b.descriptor? links d)

lemma digest_of_told? {b : Bucket} {cache : DescriptorCache} (faithful : cache.IsFaithful)
    {d : Digest} {descriptor : Descriptor} (h : links.told? b cache d = some descriptor) :
    descriptor.digest = d := by
  unfold told? at h
  split_ifs at h with hidden cached
  · cases kept : cache.lookUp (some links.repository) d with
    | ok kept' =>
      rw [kept] at h
      obtain rfl := Option.some.inj h
      exact faithful.named _ _ _ kept
    | error e =>
      rw [kept] at h
      exact (Bucket.descriptor?_eq_some h).2.2
  · exact (Bucket.descriptor?_eq_some h).2.2

/-- The cache after it was asked what a digest stands for: it keeps what only the links told. -/
def asked (b : Bucket) (cache : DescriptorCache) (d : Digest) : DescriptorCache :=
  if links.settings.isHidden d then cache
  else match cache.lookUp (some links.repository) d with
    | .ok _ => cache
    | .error _ => (b.descriptor? links d).elim cache (links.noted cache d)

lemma asked_of_lookUp {cache : DescriptorCache} {d : Digest} {descriptor : Descriptor}
    (kept : cache.lookUp (some links.repository) d = .ok descriptor) (b : Bucket) :
    links.asked b cache d = cache := by
  rw [asked, kept, ite_self]

lemma asked_cases (b : Bucket) (cache : DescriptorCache) (d : Digest) :
    links.asked b cache d = cache ∨ ∃ descriptor, b.descriptor? links d = some descriptor ∧
      links.asked b cache d = links.noted cache d descriptor := by
  unfold asked
  split_ifs
  · exact .inl rfl
  split
  · exact .inl rfl
  · cases b.descriptor? links d with
    | none => exact .inl rfl
    | some descriptor => exact .inr ⟨descriptor, rfl, rfl⟩

lemma isFaithful_asked {b : Bucket} {cache : DescriptorCache} (faithful : cache.IsFaithful)
    (d : Digest) : (links.asked b cache d).IsFaithful := by
  rcases links.asked_cases b cache d with same | ⟨descriptor, found, same⟩ <;> rw [same]
  · exact faithful
  · exact isFaithful_noted faithful (Bucket.descriptor?_eq_some found).2.2

lemma told?_plain (uncached : links.settings.cached = false)
    (unhidden : links.settings.hides = none) (b : Bucket) (cache : DescriptorCache) (d : Digest) :
    links.told? b cache d = b.descriptor? links d ∧ links.asked b cache d = cache := by
  have shown : links.settings.isHidden d = false := by simp [Settings.isHidden, unhidden]
  refine ⟨by simp [told?, shown, uncached], ?_⟩
  rcases links.asked_cases b cache d with same | ⟨descriptor, -, same⟩
  · exact same
  · rw [same, noted, uncached]
    rfl

theorem run_stat {b : Bucket} (h : b.IsLedger) (d : Digest) :
    (s.world b cache).run (links.stat d) =
      ((links.told? b cache d).elim (.error (.blobUnknown d)) .ok,
        s.world b (links.asked b cache d)) := by
  unfold stat told? asked lookUp
  split_ifs with hidden cached
  · rfl
  · rw [run_bind, run_call, s.answer_lookUp]
    cases cache.lookUp (some links.repository) d with
    | ok descriptor => rfl
    | error e =>
      simp only [run_bind, s.run_resolve cache h links d]
      cases b.descriptor? links d with
      | none => rfl
      | some descriptor =>
        simp only [run_remember, run_pure]
        rfl
  · rw [s.run_resolve cache h links d]
    have unchanged (descriptor : Descriptor) : links.noted cache d descriptor = cache :=
      if_neg cached
    cases cache.lookUp (some links.repository) d <;> cases b.descriptor? links d <;>
      simp [unchanged]

lemma run_forget (d : Digest) : ∃ x, (s.world b cache).run (links.forget d) =
    (x, s.world b (links.dropped cache d)) ∧
    ((links.settings.cached = true → cache.IsTable) → x = .ok ()) := by
  unfold forget dropped
  split_ifs with cached
  · rw [run_bind, run_call, s.answer_forget]
    cases reply : (cache.forget (some links.repository) d).1 with
    | ok _ => exact ⟨_, rfl, fun _ => rfl⟩
    | error e =>
      simp only
      split_ifs with expected
      · exact ⟨_, rfl, fun _ => rfl⟩
      · refine ⟨_, rfl, fun table => absurd ?_ expected⟩
        obtain ⟨entries, rfl⟩ := table cached
        rw [DescriptorCache.forget] at reply
        split_ifs at reply
        cases reply
        rfl
  · exact ⟨_, rfl, fun _ => rfl⟩

theorem run_put (mediaType : String) (content : Octets) :
    let descriptor : Descriptor :=
      { mediaType, size := content.length, digest := .ofContent content }
    (s.world b cache).run (links.put mediaType content) =
      (.ok descriptor, s.world (links.pushed b content)
        (links.noted cache (.ofContent content) descriptor)) := by
  intro descriptor
  have stored : (s.world b cache).run (links.blobs.put mediaType content) =
      (.ok descriptor, s.world
        (if b.Has (.blob links.blobs (.ofContent content)) then b
          else b.put (links.blobs.key (.ofContent content)) content) cache) := by
    rw [BlobStore.put, run_bind, BlobStore.contains, Site.run_holds]
    by_cases has : b.Has (.blob links.blobs (.ofContent content))
    · have held : (b.content? (links.blobs.key (.ofContent content))).isSome = true := has
      simp [held, has, descriptor]
    · have held : (b.content? (links.blobs.key (.ofContent content))).isSome = false := by
        rwa [Bucket.Has, Bool.not_eq_true] at has
      simp [held, has, descriptor]
  rw [LinkStore.put, run_bind, stored]
  simp only [run_bind, LinkStore.link, Site.run_store, run_remember, run_pure]
  rfl

lemma run_eraseLinks (d : Digest) (kinds : List LinkKind) :
    (s.world b cache).run (links.eraseLinks d kinds) =
      (.ok (kinds.any fun kind => (b.at? (.link kind links.repository d)).isSome),
        s.world (kinds.foldl (fun b kind => b.remove (links.key kind d)) b) cache) := by
  induction kinds generalizing b with
  | nil => rfl
  | cons kind kinds ih =>
    simp only [eraseLinks, run_bind, Site.run_eraseIfHeld, ih]
    cases held : b.content? (links.key kind d) with
    | none =>
      have missing : b.at? (.link kind links.repository d) = none := held
      simp [Bucket.remove_of_content?_eq_none held, missing]
    | some content =>
      have found : b.at? (.link kind links.repository d) = some content := held
      simp [found]

def isLinked (b : Bucket) (d : Digest) : Bool :=
  links.kinds.any fun kind => (b.at? (.link kind links.repository d)).isSome

/-- All links to a digest are removed, and it is said whether there was one if the cache is kept in
memory. -/
lemma run_unlink (d : Digest) : ∃ x, (s.world b cache).run (links.unlink d) =
    (x, s.world (links.unlinked b d) (links.dropped cache d)) ∧
    ((links.settings.cached = true → cache.IsTable) → x = .ok (links.isLinked b d)) := by
  obtain ⟨x, ran, ok⟩ := run_forget links s (links.unlinked b d) cache d
  rw [unlink, run_bind, run_eraseLinks]
  change ∃ y, (s.world (links.unlinked b d) cache).run _ = _ ∧ _
  rw [run_bind, ran]
  cases x with
  | error e => exact ⟨_, rfl, fun table => nomatch ok table⟩
  | ok u => exact ⟨_, rfl, fun _ => rfl⟩

variable {s b cache}

lemma run_contains_told (ledger : b.IsLedger) (d : Digest) :
    (s.world b cache).run (links.contains d) =
      (.ok (links.told? b cache d).isSome, s.world b (links.asked b cache d)) := by
  rw [contains, run_tryCatch, run_bind, run_stat links s cache ledger]
  cases links.told? b cache d <;> rfl

lemma run_get_told (ledger : b.IsLedger) (faithful : cache.IsFaithful) (d : Digest) :
    (s.world b cache).run (links.get d) =
      (((links.told? b cache d).bind fun _ => b.at? (.blob links.blobs d)).elim
        (.error (.blobUnknown d)) .ok, s.world b (links.asked b cache d)) := by
  rw [get, run_bind, run_stat links s cache ledger]
  cases found : links.told? b cache d with
  | none => rfl
  | some descriptor =>
    obtain rfl := links.digest_of_told? faithful found
    simp only [Option.elim_some, s.run_getBlob, Option.bind_some]
    cases b.at? (.blob links.blobs descriptor.digest) <;> rfl

end LinkStore

lemma BlobStore.makes_known {α : Type} (d : Digest) (found : Option α) :
    (BlobStore.known d found).Makes settings P fun _ => True := by
  cases found with
  | none => exact .throw _
  | some a => exact .pure trivial

lemma BlobStore.makes_get (store : BlobStore) (d : Digest) :
    (store.get d).Makes settings P fun _ => True :=
  (makes_fetch? _).bind fun _ _ => makes_known d _

lemma BlobStore.makes_location (store : BlobStore) (d : Digest) :
    (store.location d).Makes settings P fun _ => True := by
  refine (makes_urlFor _).bind fun reply _ => Makes.bind (Q := fun _ => True) ?_ fun _ _ =>
    makes_known d _
  unfold unlessMissing
  split
  · exact .pure trivial
  · split_ifs
    · exact .pure trivial
    · exact .throw _

namespace LinkStore

variable {links : LinkStore} (same : links.settings = settings)
include same

lemma makes_stat (d : Digest) : (links.stat d).Makes settings P fun x => x.digest = d := by
  intro s h sound
  have ran := run_stat links s h.cache sound.isLedger d
  have named (x : Descriptor) (told : (links.told? h.bucket h.cache d).elim
      (.error (.blobUnknown d)) .ok = Except.ok (ε := RegistryError) x) : x.digest = d := by
    cases found : links.told? h.bucket h.cache d with
    | none => simp [found] at told
    | some descriptor =>
      obtain rfl : descriptor = x := by simpa [found] using told
      exact links.digest_of_told? sound.isFaithful found
  rcases links.asked_cases h.bucket h.cache d with kept | ⟨descriptor, found, kept⟩
  · exact ⟨_, h, by rw [ran, kept], .refl, named⟩
  · exact ⟨_, ⟨h.bucket, links.noted h.cache d descriptor⟩, by rw [ran, kept],
      .single (.note same found), named⟩

lemma makes_contains (d : Digest) : (links.contains d).Makes settings P fun _ => True := by
  refine .tryCatch ((makes_stat same d).bind fun _ _ => .pure trivial) fun e => ?_
  split_ifs
  · exact .pure trivial
  · exact .throw e

lemma makes_get (d : Digest) : (links.get d).Makes settings P fun _ => True :=
  (makes_stat same d).bind fun _ _ => BlobStore.makes_get _ _

lemma makes_location (d : Digest) : (links.location d).Makes settings P fun _ => True := by
  unfold location
  split_ifs
  · exact (makes_stat same d).bind fun _ _ => BlobStore.makes_location _ _
  · exact .pure trivial

lemma makes_put (mediaType : String) {content : Octets}
    (manifest : links.current = .revision → P (.ofContent content)) :
    (links.put mediaType content).Makes settings P fun x => x.digest = .ofContent content := by
  intro s h sound
  refine ⟨_, ⟨_, _⟩, run_put links s h.bucket h.cache mediaType content,
    .single (.push same rfl manifest), fun y found => ?_⟩
  obtain rfl := Except.ok.inj found
  rfl

lemma makes_unlink (d : Digest) : (links.unlink d).Makes settings P fun _ => True := by
  intro s h sound
  obtain ⟨x, ran, -⟩ := run_unlink links s h.bucket h.cache d
  exact ⟨x, ⟨_, _⟩, ran, .single (.unlink d same), fun _ _ => trivial⟩

lemma makes_delete (d : Digest) : (links.delete d).Makes settings P fun _ => True := by
  unfold delete
  dsimp only
  split_ifs
  · refine (makes_stat same d).bind fun _ _ => (makes_unlink same d).bind fun held _ => ?_
    split_ifs
    · exact .pure trivial
    · exact .throw _
  · exact .throw _

end LinkStore

namespace Tags

lemma makes_find? (n : RepositoryName) (t : String) :
    (find? n t).Makes settings P fun _ => True := by
  refine (makes_fetch? _).bind fun found _ => ?_
  cases found with
  | none => exact .pure trivial
  | some content =>
    exact Makes.bind (Q := fun _ => True) (.liftExcept fun _ _ => trivial) fun _ _ => .pure trivial

lemma makes_all (n : RepositoryName) :
    (all n).Makes settings P fun ts => ∀ t ∈ ts, TagName.accepts t = true := by
  refine .of_run fun s h sound => ?_
  obtain ⟨ts, ran, mem⟩ := s.run_allTags h.cache sound.isLedger n
  exact ⟨_, ran, fun y found t ht => ((mem t).1 (Except.ok.inj found ▸ ht)).1⟩

lemma makes_lookup (n : RepositoryName) (d : Digest) :
    (lookup n d).Makes settings P fun ts => ∀ t ∈ ts, TagName.accepts t = true := by
  refine .of_run fun s h sound => ?_
  obtain ⟨ts, ran, mem⟩ := s.run_lookup h.cache sound.isLedger n d
  exact ⟨_, ran, fun y found t ht => ((mem t).1 (Except.ok.inj found ▸ ht)).1⟩

lemma run_assign {t : String} (accepted : TagName.accepts t = true) (s : Site) (b : Bucket)
    (cache : DescriptorCache) (n : RepositoryName) (d : Digest) :
    (s.world b cache).run (assign n t d) =
      (.ok (), s.world (b.assigned n t d) cache) := by
  rw [assign, run_bind, run_liftExcept, TagName.check, if_pos accepted]
  simp [run_bind, Bucket.assigned]

lemma changes_assign {t : String} (accepted : TagName.accepts t = true) (b : Bucket)
    (cache : DescriptorCache) (n : RepositoryName) {d : Digest} (good : P d) :
    Changes settings P ⟨b, cache⟩ ⟨b.assigned n t d, cache⟩ :=
  .tail (.single (.write (r := .tagTarget n t) accepted trivial ⟨d, rfl⟩
      (fun _ _ _ _ same => Digest.eq_of_ofText_text same ▸ good) fun _ _ _ same => nomatch same))
    (.write (r := .tagEntry n t d) accepted trivial rfl (fun _ _ _ same => nomatch same)
      fun _ _ _ same => by cases same; exact Bucket.has_put b (.tagTarget n t) _)

lemma makes_assign (n : RepositoryName) (t : String) {d : Digest} (good : P d) :
    (assign n t d).Makes settings P fun _ => True := by
  intro s h _
  by_cases accepted : TagName.accepts t = true
  · exact ⟨_, ⟨_, _⟩, run_assign accepted s h.bucket h.cache n d,
      changes_assign accepted h.bucket h.cache n good, fun _ _ => trivial⟩
  · refine ⟨.error (.tagInvalid t), h, ?_, .refl, fun _ => nofun⟩
    rw [assign, run_bind, run_liftExcept, TagName.check, if_neg accepted]

end Tags

lemma Action.makes_store {r : Record}
    (session : ∃ n id, r = .uploadContent n id ∨ r = .uploadStart n id) (content : Octets) :
    (Action.store r.key content).Makes settings P fun _ => True := by
  intro s h sound
  refine ⟨_, ⟨_, h.cache⟩, s.run_store h.bucket h.cache r.key content, .single ?_,
    fun _ _ => trivial⟩
  obtain ⟨n, id, rfl | rfl⟩ := session
  · exact .write trivial trivial trivial (fun _ _ _ same => nomatch same)
      fun _ _ _ same => nomatch same
  · exact .write trivial trivial trivial (fun _ _ _ same => nomatch same)
      fun _ _ _ same => nomatch same

/-- Everything is erased below a path where there are loose records only, and all that a tag
remembers beside what it stands for. -/
lemma Action.makes_eraseBelow {base : Path}
    (loose : ∀ {r : Record}, r.IsLawful → r.key.startsWith base = true → r.IsLoose)
    (whole : ∀ n t d, TagName.accepts t = true →
      (Record.tagTarget n t).key.startsWith base = true →
        (Record.tagEntry n t d).key.startsWith base = true) :
    (do
      let keys ← Action.keysBelow base
      keys.forM Action.erase
      return !keys.isEmpty : Action Bool).Makes settings P fun _ => True := by
  intro s h sound
  have drops := Bucket.Drops.removeBelow sound.isLedger base
  exact ⟨_, ⟨_, h.cache⟩, s.run_eraseBelow h.bucket h.cache base,
    .single (.discard drops (fun r gone => loose gone.1 gone.2)
      fun n t d gone => ⟨gone.1, whole n t d gone.1 gone.2⟩), fun _ _ => trivial⟩

lemma Tags.makes_erase (n : RepositoryName) {t : String} (accepted : TagName.accepts t = true) :
    (erase n t).Makes settings P fun _ => True := by
  refine makes_eraseBelow (fun lawful below => ?_) fun m u d accepted' below => ?_
  · rcases (Layout.startsWith_tag_iff lawful n accepted).1 below with rfl | ⟨d, rfl⟩ <;> trivial
  · rcases (Layout.startsWith_tag_iff (r := .tagTarget m u) accepted' n accepted).1 below with
      same | ⟨e, same⟩
    · cases same
      exact (Layout.startsWith_tag_iff (r := .tagEntry n t d) accepted n accepted).2 (.inr ⟨d, rfl⟩)
    · cases same

namespace Uploads

variable {r : Repository}

lemma makes_known {α : Type} (id : UploadId) (found : Option α) :
    (known id found).Makes settings P fun _ => True := by
  cases found with
  | none => exact .throw _
  | some a => exact .pure trivial

lemma makes_content (r : Repository) (id : UploadId) :
    (content r id).Makes settings P fun _ => True :=
  (makes_fetch? _).bind fun _ _ => makes_known id _

lemma makes_start (r : Repository) (id : UploadId) (time : String) :
    (start r id time).Makes settings P fun _ => True :=
  (makes_store ⟨_, _, .inl rfl⟩ _).bind fun _ _ =>
    (makes_store ⟨_, _, .inr rfl⟩ _).bind fun _ _ => .pure trivial

lemma makes_status (r : Repository) (session : String) :
    (status r session).Makes settings P fun _ => True :=
  (Makes.liftExcept fun _ _ => trivial).bind fun id (_ : True) => (makes_size? _).bind fun _ _ =>
    (makes_known id _).bind fun _ _ => .pure trivial

lemma makes_append (r : Repository) (session : String) (chunk : Octets) :
    (append r session chunk).Makes settings P fun _ => True := by
  unfold append
  dsimp only
  split_ifs
  · exact (Makes.liftExcept fun _ _ => trivial).bind fun id (_ : True) =>
      (makes_content r id).bind fun _ _ =>
        (makes_store ⟨_, _, .inl rfl⟩ _).bind fun _ _ => .pure trivial
  · exact .throw _

lemma makes_erase (r : Repository) (id : UploadId) :
    (erase r id).Makes settings P fun _ => True := by
  refine makes_eraseBelow (fun lawful below => ?_) fun n t d accepted below => ?_
  · rcases (Layout.startsWith_upload_iff lawful r.name id).1 below with rfl | rfl <;> trivial
  · rcases (Layout.startsWith_upload_iff (r := .tagTarget n t) accepted r.name id).1 below with
      same | same <;> cases same

lemma makes_putBlob (same : r.settings = settings) (mediaType : String) (content : Octets) :
    (r.blobs.put mediaType content).Makes settings P fun x => x.digest = .ofContent content :=
  LinkStore.makes_put same mediaType fun revision => nomatch revision

lemma makes_commit (same : r.settings = settings) (session : String) (d : Digest)
    (last : Octets) : (commit r session d last).Makes settings P fun _ => True :=
  (Makes.liftExcept fun _ _ => trivial).bind fun id (_ : True) => (makes_content r id).bind
    fun _ _ => (Makes.liftExcept fun _ _ => trivial).bind fun _ (_ : True) =>
      (makes_putBlob same _ _).bind fun _ _ => (makes_erase r id).bind fun _ _ => .pure trivial

lemma makes_whole (same : r.settings = settings) (d : Digest) (content : Octets) :
    (whole r d content).Makes settings P fun _ => True :=
  (Makes.liftExcept fun _ _ => trivial).bind fun _ (_ : True) =>
    (makes_putBlob same _ _).weaken fun _ _ => trivial

lemma makes_cancel (r : Repository) (session : String) :
    (cancel r session).Makes settings P fun _ => True := by
  refine (Makes.liftExcept fun _ _ => trivial).bind fun id (_ : True) =>
    (makes_erase r id).bind fun held _ => ?_
  split_ifs
  · exact .pure trivial
  · exact .throw _

end Uploads

namespace Manifests

/-- What a manifest is when it is stored: itself, unless it has to be signed. -/
def PreparesTo (settings : Settings) (time : String) : Manifest → Manifest → Prop
  | .legacy m, m' =>
    if m.isSigned then m' = .legacy m
    else ∃ seed signed, settings.signingKey = some seed ∧
      m.sign settings.scheme seed time = .ok signed ∧ m' = .legacy signed
  | m, m' => m' = m

lemma makes_whenBlobUnknown {α : Type} {Q : α → Prop} (other : RegistryError) {a : Action α}
    (ha : a.Makes settings P Q) : (whenBlobUnknown other a).Makes settings P Q := by
  refine ha.tryCatch fun e => ?_
  split <;> exact .throw _

variable {r : Repository} (same : r.settings = settings)
include same

lemma makes_contains (d : Digest) : (contains r d).Makes settings P fun _ => True :=
  LinkStore.makes_contains same d

lemma makes_get (d : Digest) : (get r d).Makes settings P fun _ => True :=
  (makes_whenBlobUnknown _ (LinkStore.makes_get same d)).bind fun _ _ =>
    .orFail fun _ _ => trivial

lemma makes_requireBlob (d : Digest) : (requireBlob r d).Makes settings P fun _ => True :=
  (makes_whenBlobUnknown _ (LinkStore.makes_stat same d)).bind fun _ _ => .pure trivial

lemma makes_requireManifest (d : Digest) :
    (requireManifest r d).Makes settings P fun _ => True := by
  refine (makes_contains same d).bind fun held _ => ?_
  split_ifs
  · exact .pure trivial
  · exact .throw _

lemma makes_checkDockerLayer (layer : Descriptor) :
    (checkDockerLayer r layer).Makes settings P fun _ => True := by
  unfold checkDockerLayer
  split_ifs
  · exact .throw _
  · exact .orFail fun _ _ => trivial
  · exact makes_requireBlob same _

lemma makes_checkOciLayer (layer : Descriptor) :
    (checkOciLayer r layer).Makes settings P fun _ => True := by
  unfold checkOciLayer
  split_ifs
  · exact .orFail fun _ _ => trivial
  · exact makes_requireBlob same _

lemma makes_prepareLegacy (time : String) (m : LegacyManifest) :
    (prepareLegacy r time m).Makes settings P
      fun m' => PreparesTo settings time (.legacy m) (.legacy m') := by
  unfold prepareLegacy
  dsimp only
  split
  · split
    · exact .throw _
    · split
      · exact .throw _
      · refine (Makes.forM fun _ _ => makes_requireBlob same _).bind fun _ _ => ?_
        split_ifs with signed
        · refine (Makes.orFail fun _ _ => trivial).bind fun _ (_ : True) => .pure ?_
          rw [PreparesTo, if_pos signed]
        · split
          · refine .orFail fun m' prepared => ?_
            rw [PreparesTo, if_neg signed]
            subst same
            exact ⟨_, m', ‹_›, prepared, rfl⟩
          · exact .throw _
  · exact .throw _

lemma makes_prepare (time : String) (m : Manifest) :
    (prepare r time m).Makes settings P (PreparesTo settings time m) := by
  cases m with
  | legacy m => exact (makes_prepareLegacy same time m).map fun _ prepared => prepared
  | docker m =>
    exact (makes_requireBlob same _).bind fun _ _ =>
      (Makes.forM fun _ _ => makes_checkDockerLayer same _).bind fun _ _ => .pure rfl
  | oci m =>
    exact (makes_requireBlob same _).bind fun _ _ =>
      (Makes.forM fun _ _ => makes_checkOciLayer same _).bind fun _ _ => .pure rfl
  | index m =>
    exact (Makes.forM fun _ _ => makes_requireManifest same _).bind fun _ _ => .pure rfl

lemma makes_put (time : String) {m : Manifest} (tag : Option String)
    (good : ∀ m', PreparesTo settings time m m' → P m'.digest) :
    (put r time m tag).Makes settings P fun _ => True := by
  refine (makes_prepare same time m).bind fun m' prepared => ?_
  refine (LinkStore.makes_put same _ fun _ => good m' prepared).bind fun descriptor named => ?_
  split
  · exact (Tags.makes_assign _ _ (named ▸ good m' prepared)).bind fun _ _ => .pure trivial
  · exact .pure trivial

/-- To store a manifest either fails and makes nothing a manifest, or it makes what the manifest
is then a manifest. The tag has to be one that is accepted. -/
theorem put_cases (time : String) (m : Manifest) {tag : Option String}
    (accepted : ∀ t, tag = some t → TagName.accepts t = true) (s : Site) {h : Holdings}
    (sound : h.IsSound) :
    ∃ x h', (s.world h.bucket h.cache).run (put r time m tag) =
        (x, s.world h'.bucket h'.cache) ∧
      ((∃ e, x = .error e ∧ Changes settings (fun _ => False) h h') ∨
        ∃ descriptor m', x = .ok descriptor ∧ PreparesTo settings time m m' ∧
          ∀ P : Digest → Prop, P m'.digest → Changes settings P h h') := by
  obtain ⟨x, h', ran, changes, prepared⟩ :=
    makes_prepare (P := fun _ => False) same time m s h sound
  rw [put, run_bind, ran]
  cases x with
  | error e => exact ⟨_, h', rfl, .inl ⟨e, rfl, changes⟩⟩
  | ok m' =>
    simp only [run_bind, LinkStore.run_put]
    have pushes {P : Digest → Prop} (good : P m'.digest) (descriptor : Descriptor)
        (named : descriptor.digest = .ofContent m'.payload) :
        Changes settings P h ⟨r.manifests.pushed h'.bucket m'.payload,
          r.manifests.noted h'.cache (.ofContent m'.payload) descriptor⟩ :=
      (changes.mono fun _ => False.elim).tail (.push same named fun _ => good)
    cases tag with
    | none =>
      exact ⟨_, ⟨_, _⟩, rfl, .inr ⟨_, m', rfl, prepared m' rfl, fun P good => pushes good _ rfl⟩⟩
    | some t =>
      simp only [run_bind, Tags.run_assign (accepted t rfl)]
      exact ⟨_, ⟨_, _⟩, rfl, .inr ⟨_, m', rfl, prepared m' rfl, fun P good =>
        (pushes good _ rfl).trans (Tags.changes_assign (accepted t rfl) _ _ _ good)⟩⟩

lemma makes_delete (d : Digest) : (delete r d).Makes settings P fun _ => True := by
  unfold delete
  dsimp only
  split_ifs
  · refine (makes_contains same d).bind fun held _ => ?_
    split_ifs
    · refine (Tags.makes_lookup r.name d).bind fun ts accepted => ?_
      refine (Makes.forM fun t mem =>
        (Tags.makes_erase r.name (accepted t mem)).bind fun _ _ => .pure trivial).bind fun _ _ => ?_
      exact makes_whenBlobUnknown _ (LinkStore.makes_delete same d)
    · exact .throw _
  · exact .throw _

end Manifests

end ImageRegistry
