import ImageRegistry.Proofs.Registry.Ledger

/-! What is found by asking a registry whose bucket is a ledger: the answers are those that the
records give. -/

namespace ImageRegistry

open World

namespace Bucket

def target? (b : Bucket) (n : RepositoryName) (t : String) : Option Digest :=
  (b.at? (.tagTarget n t)).bind fun content =>
    (Digest.read (trimBlanks content.toTextLenient)).toOption

lemma Drops.target?_eq {b b' : Bucket} {C : Record → Prop} (drops : b.Drops b' C)
    {n : RepositoryName} {t : String} (accepted : TagName.accepts t = true)
    (spared : ¬C (.tagTarget n t)) : b'.target? n t = b.target? n t := by
  rw [target?, target?, (drops.2 (.tagTarget n t) accepted).2 spared]

def IsTagged (b : Bucket) (n : RepositoryName) (d : Digest) : Prop :=
  ∃ t, TagName.accepts t = true ∧ b.target? n t = some d

def descriptor? (b : Bucket) (links : LinkStore) (d : Digest) : Option Descriptor :=
  if ∃ kind ∈ links.kinds, b.Has (.link kind links.repository d) then
    (b.at? (.blob links.blobs d)).map fun content =>
      { mediaType := MediaType.octets, size := content.length, digest := d }
  else none

/-- Whoever is found to be described has the digest that was asked for, and its content is
stored. -/
lemma descriptor?_eq_some {b : Bucket} {links : LinkStore} {d : Digest} {descriptor : Descriptor}
    (h : b.descriptor? links d = some descriptor) :
    (∃ kind ∈ links.kinds, b.Has (.link kind links.repository d)) ∧
      b.Has (.blob links.blobs d) ∧ descriptor.digest = d := by
  unfold descriptor? at h
  split_ifs at h with linked
  obtain ⟨content, stored, rfl⟩ := Option.map_eq_some_iff.1 h
  exact ⟨linked, by simp [Has, stored], rfl⟩

lemma descriptor?_ne_none_iff {b : Bucket} {links : LinkStore} {d : Digest} :
    b.descriptor? links d ≠ none ↔
      (∃ kind ∈ links.kinds, b.Has (.link kind links.repository d)) ∧
        b.Has (.blob links.blobs d) := by
  rw [descriptor?, Has, Option.isSome_iff_ne_none]
  split_ifs with linked <;> simp [linked]

lemma IsLedger.target?_eq_some_iff {b : Bucket} (h : b.IsLedger) {n : RepositoryName} {t : String}
    (accepted : TagName.accepts t = true) {d : Digest} :
    b.target? n t = some d ↔ b.at? (.tagTarget n t) = some (Octets.ofText d.text) := by
  have read (e : Digest) :
      Digest.read (trimBlanks (Octets.ofText e.text).toTextLenient) = .ok e := by
    rw [Octets.toTextLenient_ofText, e.read_trimBlanks_text]
  constructor
  · intro found
    obtain ⟨content, at_tag, named⟩ := Option.bind_eq_some_iff.1 found
    obtain ⟨e, rfl⟩ := h.mayHold (r := .tagTarget n t) accepted at_tag
    rw [read] at named
    obtain rfl := Option.some.inj named
    exact at_tag
  · intro found
    rw [target?, found, Option.bind_some, read]
    rfl

def linkedDigests (b : Bucket) (n : RepositoryName) (kind : LinkKind) : List Digest :=
  let base := Layout.links n kind
  ascending ((b.keys (some base)).filterMap (Layout.linkedDigest? base))

/-- The digests whose content a store holds, as they are listed. -/
def storedDigests (b : Bucket) (store : BlobStore) : List Digest :=
  let base := Layout.blobs store
  ascending ((b.keys (some base)).filterMap (Layout.blobDigest? base))

/-- The tags of a repository, as they are listed. -/
def tags (b : Bucket) (n : RepositoryName) : List String :=
  let base := Layout.tags n
  ascending ((b.keys (some base)).filterMap (Layout.tagName? base))

/-- The digests that a tag stood for, as they are listed. -/
def remembered (b : Bucket) (n : RepositoryName) (t : String) : List Digest :=
  let base := Layout.tagEntries n t
  ascending ((b.keys (some base)).filterMap (Layout.linkedDigest? base))

/-- The repositories that hold a record, as they are listed. -/
def repositories (b : Bucket) : List RepositoryName :=
  ascending ((b.keys (some Layout.repositories)).filterMap Layout.repositoryName?)

lemma IsCatalog.mem_decoded {b : Bucket} {α : Type} [DecidableEq α] [Ord α] [Std.TransOrd α]
    [Std.LawfulEqOrd α] (h : b.IsCatalog) {base : Path} {decode : Path → Option α}
    {record : α → Record}
    (told : ∀ {r : Record} (_ : r.IsLawful) x, decode r.key = some x ↔ r = record x)
    (below : ∀ key, Layout.namesBelow? base key = none → decode key = none) (x : α) :
    x ∈ ascending ((b.keys (some base)).filterMap decode) ↔
      (record x).IsLawful ∧ b.Has (record x) := by
  simp only [mem_ascending, List.mem_filterMap, h.mem_keys_iff]
  constructor
  · rintro ⟨_, ⟨r, hr, has, _, rfl⟩, found⟩
    obtain rfl := (told hr x).1 found
    exact ⟨hr, has⟩
  · rintro ⟨hr, has⟩
    have found := (told hr x).2 rfl
    refine ⟨_, ⟨record x, hr, has, (Layout.startsWith_iff _ _).2 ?_, rfl⟩, found⟩
    rw [← Option.ne_none_iff_exists']
    intro none
    rw [below _ none] at found
    cases found

lemma IsCatalog.mem_linkedDigests {b : Bucket} (h : b.IsCatalog) {n : RepositoryName}
    {kind : LinkKind} {d : Digest} : d ∈ b.linkedDigests n kind ↔ b.Has (.link kind n d) := by
  refine (h.mem_decoded (Layout.linkedDigest?_key · _ _) ?_ d).trans (and_iff_right trivial)
  intro key none
  rw [Layout.linkedDigest?, none]

lemma IsCatalog.mem_storedDigests {b : Bucket} (h : b.IsCatalog) {store : BlobStore}
    {d : Digest} : d ∈ b.storedDigests store ↔ b.Has (.blob store d) := by
  refine (h.mem_decoded (Layout.blobDigest?_key · _) ?_ d).trans (and_iff_right trivial)
  intro key none
  rw [Layout.blobDigest?, none]

lemma IsCatalog.mem_tags {b : Bucket} (h : b.IsCatalog) {n : RepositoryName} {t : String} :
    t ∈ b.tags n ↔ TagName.accepts t = true ∧ b.Has (.tagTarget n t) := by
  refine h.mem_decoded (Layout.tagName?_key · _) ?_ t
  intro key none
  rw [Layout.tagName?, none]

lemma IsCatalog.mem_remembered {b : Bucket} (h : b.IsCatalog) {n : RepositoryName} {t : String}
    (accepted : TagName.accepts t = true) {d : Digest} :
    d ∈ b.remembered n t ↔ b.Has (.tagEntry n t d) := by
  refine (h.mem_decoded (Layout.linkedDigest?_key_tagEntries · n accepted) ?_ d).trans
    (and_iff_right accepted)
  intro key none
  rw [Layout.linkedDigest?, none]

lemma IsCatalog.mem_repositories {b : Bucket} (h : b.IsCatalog) {n : RepositoryName} :
    n ∈ b.repositories ↔ ∃ r : Record, r.IsLawful ∧ b.Has r ∧ r.owner? = some n := by
  simp only [repositories, mem_ascending, List.mem_filterMap, h.mem_keys_iff]
  constructor
  · rintro ⟨_, ⟨r, hr, has, _, rfl⟩, named⟩
    exact ⟨r, hr, has, by rw [← Layout.repositoryName?_key hr, named]⟩
  · rintro ⟨r, hr, has, owner⟩
    have named : Layout.repositoryName? r.key = some n := by
      rw [Layout.repositoryName?_key hr, owner]
    refine ⟨r.key, ⟨r, hr, has, ?_, rfl⟩, named⟩
    rw [Layout.startsWith_iff]
    unfold Layout.repositoryName? at named
    obtain ⟨names, below, _⟩ := Option.bind_eq_some_iff.1 named
    exact ⟨names, below⟩

lemma IsLedger.mem_linkedDigests {b : Bucket} (h : b.IsLedger) {n : RepositoryName}
    {kind : LinkKind} {d : Digest} : d ∈ b.linkedDigests n kind ↔ b.Has (.link kind n d) :=
  h.isCatalog.mem_linkedDigests

lemma IsLedger.mem_storedDigests {b : Bucket} (h : b.IsLedger) {store : BlobStore} {d : Digest} :
    d ∈ b.storedDigests store ↔ b.Has (.blob store d) := h.isCatalog.mem_storedDigests

lemma IsLedger.mem_tags {b : Bucket} (h : b.IsLedger) {n : RepositoryName} {t : String} :
    t ∈ b.tags n ↔ TagName.accepts t = true ∧ b.Has (.tagTarget n t) := h.isCatalog.mem_tags

lemma IsLedger.linkedDigests_congr {b b' : Bucket} (h : b.IsLedger) (h' : b'.IsLedger)
    {n : RepositoryName} {kind : LinkKind}
    (same : ∀ d, b.Has (.link kind n d) ↔ b'.Has (.link kind n d)) :
    b.linkedDigests n kind = b'.linkedDigests n kind :=
  eq_of_ascending (pairwise_ascending _) (pairwise_ascending _) fun d => by
    exact h.mem_linkedDigests.trans ((same d).trans h'.mem_linkedDigests.symm)

lemma IsLedger.tags_congr {b b' : Bucket} (h : b.IsLedger) (h' : b'.IsLedger)
    {n : RepositoryName}
    (same : ∀ t, TagName.accepts t = true → (b.Has (.tagTarget n t) ↔ b'.Has (.tagTarget n t))) :
    b.tags n = b'.tags n :=
  eq_of_ascending (pairwise_ascending _) (pairwise_ascending _) fun t =>
    h.mem_tags.trans ((and_congr_right (same t)).trans h'.mem_tags.symm)

lemma IsLedger.remembered_congr {b b' : Bucket} (h : b.IsLedger) (h' : b'.IsLedger)
    {n : RepositoryName} {t : String} (accepted : TagName.accepts t = true)
    (same : ∀ d, b.Has (.tagEntry n t d) ↔ b'.Has (.tagEntry n t d)) :
    b.remembered n t = b'.remembered n t :=
  eq_of_ascending (pairwise_ascending _) (pairwise_ascending _) fun d => by
    rw [h.isCatalog.mem_remembered accepted, h'.isCatalog.mem_remembered accepted, same]

lemma IsLedger.storedDigests_congr {b b' : Bucket} (h : b.IsLedger) (h' : b'.IsLedger)
    {store : BlobStore} (same : ∀ d, b.Has (.blob store d) ↔ b'.Has (.blob store d)) :
    b.storedDigests store = b'.storedDigests store :=
  eq_of_ascending (pairwise_ascending _) (pairwise_ascending _) fun d => by
    exact h.mem_storedDigests.trans ((same d).trans h'.mem_storedDigests.symm)

end Bucket

namespace Site

variable (s : Site) (cache : DescriptorCache) {b : Bucket}

lemma run_whileListing {α : Type} {w w' : World} {a : Action α} {x : α} (what : String)
    (h : w.run a = (.ok x, w')) : w.run (Action.whileListing what a) = (.ok x, w') := by
  rw [Action.whileListing, run_tryCatch, h]

lemma run_openNamed (settings : Settings) (n : RepositoryName) :
    (s.world b cache).run (Repository.openNamed settings n) =
      ((if settings.cached then cache.openFor n else .ok ()).map fun _ => ⟨settings, n⟩,
        s.world b cache) := by
  unfold Repository.openNamed
  split_ifs
  · rw [run_bind, run_call, answer_openCache]
    generalize cache.openFor n = reply
    cases reply <;> rfl
  · rfl

lemma run_repositories : (s.world b cache).run Repository.names =
    (.ok b.repositories, s.world b cache) := by
  rw [Repository.names, run_bind, run_whileListing _ (s.run_keysBelow b cache _)]
  rfl

theorem run_names (h : b.IsLedger) :
    ∃ names, (s.world b cache).run Repository.names = (.ok names, s.world b cache) ∧
      names.Nodup ∧ ∀ n, n ∈ names ↔ ∃ r : Record, r.IsLawful ∧ b.Has r ∧ r.owner? = some n := by
  exact ⟨b.repositories, s.run_repositories cache, nodup_of_ascending (pairwise_ascending _),
    fun n => h.isCatalog.mem_repositories⟩

lemma run_enumerate (links : LinkStore) : (s.world b cache).run links.enumerate =
    (.ok (b.linkedDigests links.repository links.current), s.world b cache) := by
  rw [LinkStore.enumerate, run_bind, run_keysBelow]
  rfl

lemma run_tags (n : RepositoryName) : (s.world b cache).run (Tags.all n) =
    (.ok (b.tags n), s.world b cache) := by
  rw [Tags.all, run_bind, run_keysBelow]
  rfl

theorem run_allTags (h : b.IsLedger) (n : RepositoryName) :
    ∃ ts, (s.world b cache).run (Tags.all n) = (.ok ts, s.world b cache) ∧
      ∀ t, t ∈ ts ↔ TagName.accepts t = true ∧ b.Has (.tagTarget n t) :=
  ⟨b.tags n, s.run_tags cache n, fun _ => h.mem_tags⟩

lemma run_remembered (n : RepositoryName) (t : String) :
    (s.world b cache).run (Tags.history n t) = (.ok (b.remembered n t), s.world b cache) := by
  rw [Tags.history, run_bind, run_keysBelow]
  rfl

theorem run_history (h : b.IsLedger) (n : RepositoryName) {t : String}
    (accepted : TagName.accepts t = true) :
    ∃ ds, (s.world b cache).run (Tags.history n t) = (.ok ds, s.world b cache) ∧
      ∀ d, d ∈ ds ↔ b.Has (.tagEntry n t d) :=
  ⟨b.remembered n t, s.run_remembered cache n t, fun _ => h.isCatalog.mem_remembered accepted⟩

lemma run_enumerateBlobs (store : BlobStore) : (s.world b cache).run store.enumerate =
    (.ok (b.storedDigests store), s.world b cache) := by
  rw [BlobStore.enumerate, run_bind, run_keysBelow]
  rfl

lemma run_fetchRecord (r : Record) : (s.world b cache).run (Action.fetch? r.key) =
    (.ok (b.at? r), s.world b cache) := s.run_fetch? b cache r.key

theorem run_find? (h : b.IsLedger) (n : RepositoryName) {t : String}
    (accepted : TagName.accepts t = true) :
    (s.world b cache).run (Tags.find? n t) = (.ok (b.target? n t), s.world b cache) := by
  rw [Tags.find?, run_bind, run_fetchRecord]
  dsimp only
  cases found : b.at? (.tagTarget n t) with
  | none => simp [Bucket.target?, found]
  | some content =>
    obtain ⟨d, rfl⟩ := h.mayHold (r := .tagTarget n t) accepted found
    simp [d.read_trimBlanks_text, (h.target?_eq_some_iff accepted).2 found]

lemma exists_target?_iff (h : b.IsLedger) {n : RepositoryName} {t : String}
    (accepted : TagName.accepts t = true) :
    (∃ d, b.target? n t = some d) ↔ b.Has (.tagTarget n t) := by
  simp only [h.target?_eq_some_iff accepted, Bucket.has_iff]
  constructor
  · rintro ⟨d, found⟩
    exact ⟨_, found⟩
  · rintro ⟨content, found⟩
    obtain ⟨d, rfl⟩ := h.mayHold (r := .tagTarget n t) accepted found
    exact ⟨d, found⟩

lemma run_getTag (h : b.IsLedger) (n : RepositoryName) {t : String}
    (accepted : TagName.accepts t = true) : (s.world b cache).run (Tags.get n t) =
      ((b.target? n t).elim (.error (.tagUnknown t)) .ok, s.world b cache) := by
  rw [Tags.get, run_bind, run_find? s cache h n accepted]
  cases b.target? n t <;> rfl

lemma run_standingFor (h : b.IsLedger) (n : RepositoryName) (d : Digest) {ts : List String}
    (accepted : ∀ t ∈ ts, TagName.accepts t = true) :
    (s.world b cache).run (Tags.standingFor n d ts) =
      (.ok (ts.filter fun t => b.target? n t = some d), s.world b cache) := by
  induction ts with
  | nil => rfl
  | cons t ts ih =>
    rw [Tags.standingFor, run_bind, run_find? s cache h n (accepted t List.mem_cons_self)]
    simp only [run_bind, ih fun u hu => accepted u (List.mem_cons_of_mem t hu), run_pure,
      List.filter_cons, decide_eq_true_eq]

lemma run_lookupTags (h : b.IsLedger) (n : RepositoryName) (d : Digest) :
    (s.world b cache).run (Tags.lookup n d) =
      (.ok ((b.tags n).filter fun t => b.target? n t = some d), s.world b cache) := by
  rw [Tags.lookup, run_bind, run_tags]
  exact run_standingFor s cache h n d fun t mem => (h.mem_tags.1 mem).1

theorem run_lookup (h : b.IsLedger) (n : RepositoryName) (d : Digest) :
    ∃ ts, (s.world b cache).run (Tags.lookup n d) = (.ok ts, s.world b cache) ∧
      ∀ t, t ∈ ts ↔ TagName.accepts t = true ∧ b.target? n t = some d := by
  refine ⟨_, run_lookupTags s cache h n d, fun t => ?_⟩
  rw [List.mem_filter, h.mem_tags, decide_eq_true_eq, and_assoc]
  refine and_congr_right fun accepted => and_iff_right_of_imp fun target => ?_
  exact (exists_target?_iff h accepted).1 ⟨d, target⟩

lemma run_known {α : Type} (w : World) (d : Digest) (found : Option α) :
    w.run (BlobStore.known d found) =
      (match found with
        | some a => .ok a
        | none => .error (.blobUnknown d), w) := by
  cases found <;> rfl

lemma run_getBlob (store : BlobStore) (d : Digest) :
    (s.world b cache).run (store.get d) =
      (match b.at? (.blob store d) with
        | some content => .ok content
        | none => .error (.blobUnknown d), s.world b cache) := by
  rw [BlobStore.get, run_bind, run_fetch?]
  change (s.world b cache).run (BlobStore.known d (b.at? (.blob store d))) = _
  rw [run_known]
  cases b.at? (.blob store d) <;> rfl

lemma run_statBlob (store : BlobStore) (d : Digest) :
    (s.world b cache).run (store.stat d) =
      (match b.at? (.blob store d) with
        | some content =>
          .ok { mediaType := MediaType.octets, size := content.length, digest := d }
        | none => .error (.blobUnknown d), s.world b cache) := by
  rw [BlobStore.stat, run_bind, run_size?]
  change (s.world b cache).run ((BlobStore.known d ((b.at? _).map _)) >>= _) = _
  rw [run_bind, run_known]
  cases b.at? (.blob store d) <;> rfl

lemma run_follow (h : b.IsLedger) (links : LinkStore) (d : Digest) (kinds : List LinkKind) :
    (s.world b cache).run (LinkStore.resolve.follow links d kinds) =
      if ∃ kind ∈ kinds, b.Has (.link kind links.repository d) then
        (s.world b cache).run (links.blobs.stat d)
      else (.error (.blobUnknown d), s.world b cache) := by
  induction kinds with
  | nil => simp [LinkStore.resolve.follow]
  | cons kind kinds ih =>
    rw [LinkStore.resolve.follow]
    change (s.world b cache).run (Action.fetch? (Record.link kind links.repository d).key >>= _) = _
    rw [run_bind, run_fetchRecord]
    dsimp only
    cases found : b.at? (.link kind links.repository d) with
    | none =>
      have missing : ¬b.Has (.link kind links.repository d) := by simp [Bucket.Has, found]
      simp [ih, missing]
    | some content =>
      obtain rfl := h.at?_link found
      have has : b.Has (.link kind links.repository d) := by simp [Bucket.Has, found]
      simp [run_bind, LinkStore.target, d.read_trimBlanks_text, has]

theorem run_resolve (h : b.IsLedger) (links : LinkStore) (d : Digest) :
    (s.world b cache).run (links.resolve d) =
      (match b.descriptor? links d with
        | some descriptor => .ok descriptor
        | none => .error (.blobUnknown d), s.world b cache) := by
  rw [LinkStore.resolve, run_follow s cache h, run_statBlob, Bucket.descriptor?]
  split_ifs
  · cases b.at? (.blob links.blobs d) <;> rfl
  · rfl

end Site

namespace LinkStore

variable {links links' : LinkStore} (repository : links'.repository = links.repository)
  (blobs : links'.blobs = links.blobs)

include repository blobs

lemma follow_congr (d : Digest) (kinds : List LinkKind) :
    resolve.follow links' d kinds = resolve.follow links d kinds := by
  induction kinds with
  | nil => rfl
  | cons kind kinds ih => rw [resolve.follow, resolve.follow, ih, blobs, key, key, repository]

/-- What a digest stands for depends on the links, on where their blobs are, on the cache and on
what is hidden. -/
lemma stat_congr (kinds : links'.kinds = links.kinds)
    (cached : links'.settings.cached = links.settings.cached)
    (hides : links'.settings.hides = links.settings.hides) (d : Digest) :
    links'.stat d = links.stat d := by
  have same : links'.resolve d = links.resolve d := by
    rw [resolve, resolve, kinds, follow_congr repository blobs]
  have keeps (descriptor : Descriptor) : links'.remember d descriptor =
      links.remember d descriptor := by
    rw [remember, remember, cached, repository]
  have looked : links'.lookUp d = links.lookUp d := by
    rw [lookUp, lookUp, cached, repository, same]
    refine if_congr Iff.rfl (bind_congr fun reply => ?_) rfl
    cases reply with
    | ok descriptor => rfl
    | error e => simp only [keeps]
  rw [stat, stat, looked, Settings.isHidden, Settings.isHidden, hides]

end LinkStore
end ImageRegistry
