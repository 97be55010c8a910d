import ImageRegistry.Proofs.Registry.Backends
import ImageRegistry.Proofs.Registry.Isolation

/-! What a registry answers, and what it leaves, does not depend on where its bucket is kept: on a
disk or in memory. -/

namespace ImageRegistry

open World

/-- Two registries store the same, each in its own backend, and know the same. -/
structure World.Matches (w w' : World) : Prop where
  bucket : w'.bucket = w.bucket
  locationBase : w'.locationBase = w.locationBase
  cache : w'.cache = w.cache
  stores : ∃ b, w.Stores b ∧ w'.Stores b

/-- Registries that match stay so under the action, which comes to the same in both; and a result of
it has a property. -/
def Action.IsPortable {α : Type} (Q : α → Prop) (a : Action α) : Prop :=
  ∀ w w' : World, w.Matches w' → ∃ x v v',
    w.run a = (x, v) ∧ w'.run a = (x, v') ∧ v.Matches v' ∧ ∀ y, x = .ok y → Q y

namespace Action.IsPortable

variable {α β : Type} {Q : α → Prop} {R : β → Prop}

lemma of_run {a : Action α} (runs : ∀ w w' : World, w.Matches w' → ∃ x,
    w.run a = (x, w) ∧ w'.run a = (x, w') ∧ ∀ y, x = .ok y → Q y) : a.IsPortable Q := by
  intro w w' same
  obtain ⟨x, ran, ran', good⟩ := runs w w' same
  exact ⟨x, w, w', ran, ran', same, good⟩

lemma pure {x : α} (good : Q x) : (Pure.pure x : Action α).IsPortable Q :=
  of_run fun w w' _ =>
    ⟨_, run_pure w x, run_pure w' x, fun _ same => Except.ok.inj same ▸ good⟩

lemma throw (e : RegistryError) : (throw e : Action α).IsPortable Q :=
  of_run fun w w' _ => ⟨_, run_throw w e, run_throw w' e, fun _ => nofun⟩

lemma liftExcept {x : Except RegistryError α} (good : ∀ y, x = .ok y → Q y) :
    (liftM x : Action α).IsPortable Q :=
  of_run fun w w' _ => ⟨x, run_liftExcept w x, run_liftExcept w' x, good⟩

lemma orFail {ε : Type} {error : ε → RegistryError} {x : Except ε α} :
    (Action.orFail error x).IsPortable fun _ => True :=
  of_run fun w w' _ => ⟨_, run_orFail w error x, run_orFail w' error x, fun _ _ => trivial⟩

lemma bind {a : Action α} {f : α → Action β} (first : a.IsPortable Q)
    (second : ∀ x, Q x → (f x).IsPortable R) : (a >>= f).IsPortable R := by
  intro w w' same
  obtain ⟨x, v, v', ran, ran', same', good⟩ := first w w' same
  rw [run_bind, run_bind, ran, ran']
  cases x with
  | error e => exact ⟨_, v, v', rfl, rfl, same', fun _ => nofun⟩
  | ok x => exact second x (good x rfl) v v' same'

lemma map {a : Action α} (f : α → β) (portable : a.IsPortable Q) :
    (f <$> a).IsPortable fun _ => True := by
  rw [map_eq_pure_bind]
  exact portable.bind fun _ _ => .pure trivial

lemma tryCatch {a : Action α} {handle : RegistryError → Action α} (first : a.IsPortable Q)
    (second : ∀ e, (handle e).IsPortable Q) : (tryCatch a handle).IsPortable Q := by
  intro w w' same
  obtain ⟨x, v, v', ran, ran', same', good⟩ := first w w' same
  rw [run_tryCatch, run_tryCatch, ran, ran']
  cases x with
  | ok x => exact ⟨_, v, v', rfl, rfl, same', good⟩
  | error e => exact second e v v' same'

lemma forM {xs : List α} {f : α → Action PUnit}
    (each : ∀ x ∈ xs, (f x).IsPortable fun _ => True) : (xs.forM f).IsPortable fun _ => True := by
  induction xs with
  | nil => exact .pure trivial
  | cons x xs ih =>
    change (f x >>= fun _ => xs.forM f).IsPortable fun _ => True
    exact (each x List.mem_cons_self).bind fun _ _ =>
      ih fun y mem => each y (List.mem_cons_of_mem x mem)

lemma whileListing (what : String) {a : Action α} (portable : a.IsPortable Q) :
    (Action.whileListing what a).IsPortable Q := portable.tryCatch fun _ => .throw _

end Action.IsPortable

open ImageRegistry.Action

section

variable {w w' : World} {b : Bucket} {r : Record} {base : Path}

lemma World.Matches.after (same : w.Matches w') {backend backend' : Backend}
    (stores : { w with backend }.Stores b) (stores' : { w' with backend := backend' }.Stores b) :
    { w with backend }.Matches { w' with backend := backend' } :=
  ⟨same.bucket, same.locationBase, same.cache, b, stores, stores'⟩

lemma World.Matches.afterCache (same : w.Matches w') (cache : DescriptorCache) :
    { w with cache }.Matches { w' with cache } :=
  let ⟨b, stores, stores'⟩ := same.stores
  ⟨same.bucket, same.locationBase, rfl, b, ⟨stores.1, stores.2, stores.3⟩,
    ⟨stores'.1, stores'.2, stores'.3⟩⟩

namespace Action

lemma isPortable_fetch? (lawful : r.IsLawful) : (fetch? r.key).IsPortable fun _ => True :=
  .of_run fun _ _ same =>
    let ⟨_, stores, stores'⟩ := same.stores
    ⟨_, stores.run_fetch? lawful, stores'.run_fetch? lawful, fun _ _ => trivial⟩

lemma isPortable_size? (lawful : r.IsLawful) : (size? r.key).IsPortable fun _ => True :=
  .of_run fun _ _ same =>
    let ⟨_, stores, stores'⟩ := same.stores
    ⟨_, stores.run_size? lawful, stores'.run_size? lawful, fun _ _ => trivial⟩

lemma isPortable_store (lawful : r.IsLawful) (content : Octets) :
    (store r.key content).IsPortable fun _ => True := by
  intro w w' same
  obtain ⟨b, stores, stores'⟩ := same.stores
  obtain ⟨after, ran, kept⟩ := stores.run_store lawful content
  obtain ⟨after', ran', kept'⟩ := stores'.run_store lawful content
  exact ⟨_, _, _, ran, ran', same.after kept kept', fun _ _ => trivial⟩

lemma isPortable_eraseIfHeld (lawful : r.IsLawful) :
    (eraseIfHeld r.key).IsPortable fun _ => True := by
  intro w w' same
  obtain ⟨b, stores, stores'⟩ := same.stores
  obtain ⟨after, ran, kept⟩ := stores.run_eraseIfHeld lawful
  obtain ⟨after', ran', kept'⟩ := stores'.run_eraseIfHeld lawful
  exact ⟨_, _, _, ran, ran', same.after kept kept', fun _ _ => trivial⟩

lemma isPortable_keysBelow (folder : Layout.IsFolder base) :
    (keysBelow base).IsPortable fun keys =>
      ∀ key ∈ keys, ∃ r : Record, r.IsLawful ∧ r.key = key := by
  refine .of_run fun w w' same => ?_
  obtain ⟨b, stores, stores'⟩ := same.stores
  refine ⟨_, stores.run_keysBelow folder, stores'.run_keysBelow folder,
    fun keys listed key mem => ?_⟩
  obtain rfl := Except.ok.inj listed
  obtain ⟨r, lawful, -, -, same⟩ := stores.catalog.mem_keys_iff.1 mem
  exact ⟨r, lawful, same⟩

lemma isPortable_eraseBelow (folder : Layout.IsFolder base) :
    (do
      let keys ← keysBelow base
      keys.forM erase
      return !keys.isEmpty : Action Bool).IsPortable fun _ => True := by
  intro w w' same
  obtain ⟨b, stores, stores'⟩ := same.stores
  obtain ⟨after, ran, kept⟩ := stores.run_eraseBelow folder
  obtain ⟨after', ran', kept'⟩ := stores'.run_eraseBelow folder
  exact ⟨_, _, _, ran, ran', same.after kept kept', fun _ _ => trivial⟩

lemma isPortable_urlFor (key : Path) : (call (.urlFor key)).IsPortable fun _ => True := by
  refine .of_run fun w w' same => ?_
  obtain ⟨b, stores, stores'⟩ := same.stores
  rw [run_call, run_call, stores.answer, stores'.answer, reply, reply, same.bucket,
    same.locationBase]
  exact ⟨_, rfl, rfl, fun _ _ => trivial⟩

lemma isPortable_openCache (n : RepositoryName) :
    (call (.openCache n)).IsPortable fun _ => True := by
  refine .of_run fun w w' same => ?_
  rw [run_call, run_call]
  exact ⟨_, rfl, by simp only [World.answer, Call.storageSite?, reply, same.cache],
    fun _ _ => trivial⟩

lemma isPortable_lookUp (n : RepositoryName) (d : Digest) :
    (call (.lookUp n d)).IsPortable fun _ => True := by
  refine .of_run fun w w' same => ?_
  rw [run_call, run_call]
  exact ⟨_, rfl, by simp only [World.answer, Call.storageSite?, reply, same.cache],
    fun _ _ => trivial⟩

lemma isPortable_remember (n : RepositoryName) (d : Digest) (descriptor : Descriptor) :
    (call (.remember n d descriptor)).IsPortable fun _ => True := by
  intro w w' same
  refine ⟨_, _, _, run_call w _, ?_, same.afterCache (w.cache.remember (some n) d descriptor).2,
    fun _ _ => trivial⟩
  rw [run_call]
  simp only [World.answer, Call.storageSite?, reply, same.cache]

lemma isPortable_forget (n : RepositoryName) (d : Digest) :
    (call (.forget n d)).IsPortable fun _ => True := by
  intro w w' same
  refine ⟨_, _, _, run_call w _, ?_, same.afterCache (w.cache.forget (some n) d).2,
    fun _ _ => trivial⟩
  rw [run_call]
  simp only [World.answer, Call.storageSite?, reply, same.cache]

end Action

end

lemma Repository.isPortable_openNamed (settings : Settings) (n : RepositoryName) :
    (openNamed settings n).IsPortable fun _ => True := by
  unfold openNamed
  split_ifs
  · refine (isPortable_openCache n).bind fun reply _ => ?_
    split
    · exact .pure trivial
    · exact .throw _
  · exact .pure trivial

lemma Repository.isPortable_names : names.IsPortable fun _ => True :=
  ((isPortable_keysBelow Layout.isFolder_repositories).whileListing _).bind fun _ _ => .pure trivial

namespace BlobStore

variable (store : BlobStore) (d : Digest)

lemma isPortable_known {α : Type} (found : Option α) :
    (known d found).IsPortable fun _ => True := by
  cases found with
  | none => exact .throw _
  | some a => exact .pure trivial

lemma isPortable_contains : (store.contains d).IsPortable fun _ => True :=
  (isPortable_size? (r := .blob store d) trivial).bind fun _ _ => .pure trivial

lemma isPortable_get : (store.get d).IsPortable fun _ => True :=
  (isPortable_fetch? (r := .blob store d) trivial).bind fun _ _ => isPortable_known d _

lemma isPortable_stat : (store.stat d).IsPortable fun _ => True :=
  (isPortable_size? (r := .blob store d) trivial).bind fun _ _ =>
    (isPortable_known d _).bind fun _ _ => .pure trivial

lemma isPortable_put (mediaType : String) (content : Octets) :
    (store.put mediaType content).IsPortable fun _ => True := by
  refine (isPortable_contains store _).bind fun held _ => ?_
  split_ifs
  · exact .pure trivial
  · exact (isPortable_store (r := .blob store _) trivial _).bind fun _ _ => .pure trivial

lemma isPortable_delete : (store.delete d).IsPortable fun _ => True := by
  refine (isPortable_eraseIfHeld (r := .blob store d) trivial).bind fun held _ => ?_
  split_ifs
  · exact .pure trivial
  · exact .throw _

lemma isPortable_location : (store.location d).IsPortable fun _ => True := by
  refine (isPortable_urlFor _).bind fun reply _ => Action.IsPortable.bind (Q := fun _ => True) ?_
    fun _ _ => isPortable_known d _
  unfold unlessMissing
  split
  · exact .pure trivial
  · split_ifs
    · exact .pure trivial
    · exact .throw _

lemma isPortable_enumerate : store.enumerate.IsPortable fun _ => True :=
  (isPortable_keysBelow (Layout.isFolder_blobs store)).bind fun _ _ => .pure trivial

end BlobStore

namespace LinkStore

variable (links : LinkStore) (d : Digest)

lemma isPortable_resolve : (links.resolve d).IsPortable fun _ => True := by
  unfold resolve
  induction links.kinds with
  | nil => exact .throw _
  | cons kind kinds ih =>
    rw [resolve.follow]
    refine (isPortable_fetch? (r := .link kind links.repository d) trivial).bind fun found _ => ?_
    cases found with
    | none => exact ih
    | some content =>
      exact (IsPortable.liftExcept fun _ _ => trivial).bind fun e (_ : True) =>
        BlobStore.isPortable_stat _ e

lemma isPortable_remember (descriptor : Descriptor) :
    (links.remember d descriptor).IsPortable fun _ => True := by
  unfold remember
  split_ifs
  · exact (Action.isPortable_remember _ d descriptor).bind fun _ _ => .pure trivial
  · exact .pure trivial

lemma isPortable_stat : (links.stat d).IsPortable fun _ => True := by
  unfold stat lookUp
  split_ifs
  · exact .throw _
  · refine (isPortable_lookUp links.repository d).bind fun reply _ => ?_
    split
    · exact .pure trivial
    · exact (links.isPortable_resolve d).bind fun _ _ =>
        (links.isPortable_remember d _).bind fun _ _ => .pure trivial
  · exact links.isPortable_resolve d

lemma isPortable_contains : (links.contains d).IsPortable fun _ => True := by
  refine .tryCatch ((links.isPortable_stat d).bind fun _ _ => .pure trivial) fun e => ?_
  split_ifs
  · exact .pure trivial
  · exact .throw e

lemma isPortable_get : (links.get d).IsPortable fun _ => True :=
  (links.isPortable_stat d).bind fun _ _ => BlobStore.isPortable_get _ _

lemma isPortable_location : (links.location d).IsPortable fun _ => True := by
  unfold location
  split_ifs
  · exact (links.isPortable_stat d).bind fun _ _ => BlobStore.isPortable_location _ _
  · exact .pure trivial

lemma isPortable_link : (links.link d).IsPortable fun _ => True :=
  isPortable_store (r := .link links.current links.repository d) trivial _

lemma isPortable_put (mediaType : String) (content : Octets) :
    (links.put mediaType content).IsPortable fun _ => True :=
  (BlobStore.isPortable_put _ mediaType content).bind fun _ _ =>
    (links.isPortable_link _).bind fun _ _ =>
      (links.isPortable_remember _ _).bind fun _ _ => .pure trivial

lemma isPortable_forget : (links.forget d).IsPortable fun _ => True := by
  unfold forget
  split_ifs
  · refine (Action.isPortable_forget links.repository d).bind fun reply _ => ?_
    split
    · exact .pure trivial
    · split_ifs
      · exact .pure trivial
      · exact .throw _
  · exact .pure trivial

lemma isPortable_unlink : (links.unlink d).IsPortable fun _ => True := by
  have erased (kinds : List LinkKind) : (links.eraseLinks d kinds).IsPortable fun _ => True := by
    induction kinds with
    | nil => exact .pure trivial
    | cons kind kinds ih =>
      exact (isPortable_eraseIfHeld (r := .link kind links.repository d) trivial).bind fun _ _ =>
        ih.bind fun _ _ => .pure trivial
  exact (erased _).bind fun _ _ => (links.isPortable_forget d).bind fun _ _ => .pure trivial

lemma isPortable_delete : (links.delete d).IsPortable fun _ => True := by
  unfold delete
  dsimp only
  split_ifs
  · refine (links.isPortable_stat d).bind fun _ _ => (links.isPortable_unlink d).bind fun _ _ => ?_
    split_ifs
    · exact .pure trivial
    · exact .throw _
  · exact .throw _

lemma isPortable_enumerate : links.enumerate.IsPortable fun _ => True :=
  (isPortable_keysBelow (Layout.isFolder_links _ _)).bind fun _ _ => .pure trivial

end LinkStore

namespace Tags

variable {n : RepositoryName} {t : String}

lemma isPortable_find? (accepted : TagName.accepts t = true) :
    (find? n t).IsPortable fun _ => True := by
  refine (isPortable_fetch? (r := .tagTarget n t) accepted).bind fun found _ => ?_
  cases found with
  | none => exact .pure trivial
  | some content =>
    exact (IsPortable.liftExcept fun _ _ => trivial).bind fun _ (_ : True) => .pure trivial

lemma isPortable_get (accepted : TagName.accepts t = true) :
    (get n t).IsPortable fun _ => True := by
  refine (isPortable_find? accepted).bind fun found _ => ?_
  cases found with
  | none => exact .throw _
  | some d => exact .pure trivial

lemma isPortable_all : (all n).IsPortable fun ts => ∀ t ∈ ts, TagName.accepts t = true := by
  refine (isPortable_keysBelow (Layout.isFolder_tags n)).bind fun keys records =>
    .pure fun t mem => ?_
  rw [mem_ascending, List.mem_filterMap] at mem
  obtain ⟨key, mem, told⟩ := mem
  obtain ⟨r, lawful, rfl⟩ := records key mem
  obtain rfl := (Layout.tagName?_key lawful n t).1 told
  exact lawful

lemma isPortable_lookup (d : Digest) :
    (lookup n d).IsPortable fun ts => ∀ t ∈ ts, TagName.accepts t = true := by
  refine isPortable_all.bind fun tags accepted => ?_
  induction tags with
  | nil => exact .pure fun _ mem => absurd mem List.not_mem_nil
  | cons t tags ih =>
    have first := accepted t List.mem_cons_self
    refine (isPortable_find? first).bind fun current _ =>
      (ih fun u mem => accepted u (List.mem_cons_of_mem t mem)).bind fun others good => .pure ?_
    split_ifs
    · exact List.forall_mem_cons.2 ⟨first, good⟩
    · exact good

lemma isPortable_assign (t : String) (d : Digest) : (assign n t d).IsPortable fun _ => True := by
  refine IsPortable.bind (Q := fun _ => TagName.accepts t = true) (.liftExcept fun u checked => ?_)
    fun _ accepted => ?_
  · unfold TagName.check at checked
    split_ifs at checked with accepted
    exact accepted
  · exact (isPortable_store (r := .tagTarget n t) accepted _).bind fun _ _ =>
      isPortable_store (r := .tagEntry n t d) accepted _

lemma isPortable_erase (accepted : TagName.accepts t = true) :
    (erase n t).IsPortable fun _ => True :=
  isPortable_eraseBelow (Layout.isFolder_tag n accepted)

lemma isPortable_remove (accepted : TagName.accepts t = true) :
    (remove n t).IsPortable fun _ => True := by
  refine (isPortable_erase accepted).bind fun held _ => ?_
  split_ifs
  · exact .pure trivial
  · exact .throw _

lemma isPortable_history (accepted : TagName.accepts t = true) :
    (history n t).IsPortable fun _ => True :=
  (isPortable_keysBelow (Layout.isFolder_tagEntries n accepted)).bind fun _ _ => .pure trivial

end Tags

namespace Uploads

variable {r : Repository}

lemma isPortable_readId (session : String) :
    (liftM (readId session) : Action UploadId).IsPortable fun _ => True :=
  .liftExcept fun _ _ => trivial

lemma isPortable_known {α : Type} (id : UploadId) (found : Option α) :
    (known id found).IsPortable fun _ => True := by
  cases found with
  | none => exact .throw _
  | some a => exact .pure trivial

lemma isPortable_content (id : UploadId) : (content r id).IsPortable fun _ => True :=
  (isPortable_fetch? (r := .uploadContent r.name id) trivial).bind fun _ _ => isPortable_known id _

lemma isPortable_start (id : UploadId) (time : String) :
    (start r id time).IsPortable fun _ => True :=
  (isPortable_store (r := .uploadContent r.name id) trivial _).bind fun _ _ =>
    (isPortable_store (r := .uploadStart r.name id) trivial _).bind fun _ _ => .pure trivial

lemma isPortable_status (session : String) : (status r session).IsPortable fun _ => True :=
  (isPortable_readId session).bind fun id _ =>
    (isPortable_size? (r := .uploadContent r.name id) trivial).bind fun _ _ =>
      (isPortable_known id _).bind fun _ _ => .pure trivial

lemma isPortable_append (session : String) (chunk : Octets) :
    (append r session chunk).IsPortable fun _ => True := by
  unfold append
  dsimp only
  split_ifs
  · exact (isPortable_readId session).bind fun id _ => (isPortable_content id).bind fun _ _ =>
      (isPortable_store (r := .uploadContent r.name id) trivial _).bind fun _ _ => .pure trivial
  · exact .throw _

lemma isPortable_erase (id : UploadId) : (erase r id).IsPortable fun _ => True :=
  isPortable_eraseBelow (Layout.isFolder_upload r.name id)

lemma isPortable_commit (session : String) (d : Digest) (last : Octets) :
    (commit r session d last).IsPortable fun _ => True :=
  (isPortable_readId session).bind fun id _ => (isPortable_content id).bind fun _ _ =>
    (IsPortable.liftExcept fun _ _ => trivial).bind fun _ (_ : True) =>
      (r.blobs.isPortable_put _ _).bind fun _ _ =>
        (isPortable_erase id).bind fun _ _ => .pure trivial

lemma isPortable_whole (d : Digest) (content : Octets) :
    (whole r d content).IsPortable fun _ => True :=
  (IsPortable.liftExcept fun _ _ => trivial).bind fun _ (_ : True) => r.blobs.isPortable_put _ _

lemma isPortable_cancel (session : String) : (cancel r session).IsPortable fun _ => True := by
  refine (isPortable_readId session).bind fun id _ => (isPortable_erase id).bind fun _ _ => ?_
  split_ifs
  · exact .pure trivial
  · exact .throw _

end Uploads

namespace Manifests

variable {r : Repository}

lemma isPortable_whenBlobUnknown {α : Type} {Q : α → Prop} (other : RegistryError) {a : Action α}
    (portable : a.IsPortable Q) : (whenBlobUnknown other a).IsPortable Q := by
  refine portable.tryCatch fun e => ?_
  split <;> exact .throw _

lemma isPortable_contains (d : Digest) : (contains r d).IsPortable fun _ => True :=
  r.manifests.isPortable_contains d

lemma isPortable_get (d : Digest) : (get r d).IsPortable fun _ => True :=
  (isPortable_whenBlobUnknown _ (r.manifests.isPortable_get d)).bind fun _ _ => .orFail

lemma isPortable_requireBlob (d : Digest) : (requireBlob r d).IsPortable fun _ => True :=
  (isPortable_whenBlobUnknown _ (r.blobs.isPortable_stat d)).bind fun _ _ => .pure trivial

lemma isPortable_requireManifest (d : Digest) : (requireManifest r d).IsPortable fun _ => True := by
  refine (isPortable_contains d).bind fun held _ => ?_
  split_ifs
  · exact .pure trivial
  · exact .throw _

lemma isPortable_checkDockerLayer (layer : Descriptor) :
    (checkDockerLayer r layer).IsPortable fun _ => True := by
  unfold checkDockerLayer
  split_ifs
  · exact .throw _
  · exact .orFail
  · exact isPortable_requireBlob _

lemma isPortable_checkOciLayer (layer : Descriptor) :
    (checkOciLayer r layer).IsPortable fun _ => True := by
  unfold checkOciLayer
  split_ifs
  · exact .orFail
  · exact isPortable_requireBlob _

lemma isPortable_prepareLegacy (time : String) (m : LegacyManifest) :
    (prepareLegacy r time m).IsPortable fun _ => True := by
  unfold prepareLegacy
  dsimp only
  split
  · split
    · exact .throw _
    · split
      · exact .throw _
      · refine (IsPortable.forM fun _ _ => isPortable_requireBlob _).bind fun _ _ => ?_
        split_ifs
        · exact IsPortable.orFail.bind fun _ _ => .pure trivial
        · split
          · exact .orFail
          · exact .throw _
  · exact .throw _

lemma isPortable_prepare (time : String) (m : Manifest) :
    (prepare r time m).IsPortable fun _ => True := by
  cases m with
  | legacy m => exact (isPortable_prepareLegacy time m).map _
  | docker m =>
    exact (isPortable_requireBlob _).bind fun _ _ =>
      (IsPortable.forM fun _ _ => isPortable_checkDockerLayer _).bind fun _ _ => .pure trivial
  | oci m =>
    exact (isPortable_requireBlob _).bind fun _ _ =>
      (IsPortable.forM fun _ _ => isPortable_checkOciLayer _).bind fun _ _ => .pure trivial
  | index m =>
    exact (IsPortable.forM fun _ _ => isPortable_requireManifest _).bind fun _ _ => .pure trivial

lemma isPortable_put (time : String) (m : Manifest) (tag : Option String) :
    (put r time m tag).IsPortable fun _ => True := by
  refine (isPortable_prepare time m).bind fun _ _ =>
    (r.manifests.isPortable_put _ _).bind fun descriptor _ => ?_
  split
  · exact (Tags.isPortable_assign _ _).bind fun _ _ => .pure trivial
  · exact .pure trivial

lemma isPortable_delete (d : Digest) : (delete r d).IsPortable fun _ => True := by
  unfold delete
  dsimp only
  split_ifs
  · refine (isPortable_contains d).bind fun _ _ => ?_
    split_ifs
    · exact (Tags.isPortable_lookup d).bind fun tags accepted =>
        (IsPortable.forM fun t mem => (Tags.isPortable_erase (accepted t mem)).bind
          fun _ _ => .pure trivial).bind fun _ _ =>
            isPortable_whenBlobUnknown _ (r.manifests.isPortable_delete d)
    · exact .throw _
  · exact .throw _

end Manifests

namespace Marking

variable {options : CollectionOptions} {r : Repository} {n : RepositoryName}

lemma isPortable_load (p : Pending) : (load r p).IsPortable fun _ => True := by
  refine ((Manifests.isPortable_get p.digest).map some).tryCatch fun e => ?_
  cases e
  case manifestUnknown name d =>
    dsimp only
    split_ifs
    · exact .pure trivial
    · exact .throw _
  all_goals exact .throw _

lemma isPortable_trace (marks : MarkSet) (pending : List Pending) :
    (trace r marks pending).IsPortable fun _ => True := by
  induction marks, pending using trace.induct r with
  | case1 marks =>
    rw [trace]
    exact .pure trivial
  | case2 marks p rest marked ih =>
    rw [trace, dif_pos marked]
    exact ih
  | case3 marks p rest unmarked ihNone ihSome =>
    rw [trace, dif_neg unmarked]
    refine (isPortable_load p).bind fun found _ => ?_
    cases found with
    | none => exact ihNone
    | some m => exact ihSome m

/-- The tags that are removed with manifests are accepted. -/
def Accepts (deletions : List ManifestDeletion) : Prop :=
  ∀ deletion ∈ deletions, ∀ t ∈ deletion.tags, TagName.accepts t = true

lemma isPortable_sort (listed : List Digest) (pending : List Pending) :
    (sort options n listed pending).IsPortable fun x => Accepts x.2 := by
  induction listed generalizing pending with
  | nil => exact .pure fun _ mem => absurd mem List.not_mem_nil
  | cons d listed ih =>
    rw [sort]
    split_ifs
    · refine ((Tags.isPortable_lookup d).whileListing _).bind fun tags _ => ?_
      split_ifs
      · exact (Tags.isPortable_all.whileListing _).bind fun tags accepted =>
          (ih pending).bind fun found others => .pure (List.forall_mem_cons.2 ⟨accepted, others⟩)
      · exact ih _
    · exact ih _

lemma isPortable_addTagged (listed : List Digest) {tags : List String}
    (accepted : ∀ t ∈ tags, TagName.accepts t = true) (pending : List Pending) :
    (addTagged n listed tags pending).IsPortable fun _ => True := by
  induction tags generalizing pending with
  | nil => exact .pure trivial
  | cons t tags ih =>
    have rest := ih fun u mem => accepted u (List.mem_cons_of_mem t mem)
    refine ((Tags.isPortable_find? (accepted t List.mem_cons_self)).whileListing _).bind
      fun found _ => ?_
    cases found with
    | none => exact rest pending
    | some d =>
      dsimp only
      split_ifs
      · exact rest pending
      · exact rest _

lemma isPortable_markRepository (found : Marking) (accepted : Accepts found.deletions) :
    (markRepository options r found).IsPortable fun x => Accepts x.deletions := by
  refine (r.manifests.isPortable_enumerate.whileListing _).bind fun listed _ =>
    (isPortable_sort listed []).bind fun sorted others =>
      (Tags.isPortable_all.whileListing _).bind fun tags listedTags =>
        (isPortable_addTagged listed listedTags _).bind fun pending _ =>
          (isPortable_trace _ pending).bind fun marks _ => .pure fun deletion mem => ?_
  rcases List.mem_append.1 mem with mem | mem
  · exact accepted deletion mem
  · exact others deletion (List.mem_of_mem_filter mem)

lemma isPortable_markNamed (settings : Settings) (names : List RepositoryName) (found : Marking)
    (accepted : Accepts found.deletions) :
    (markNamed options settings names found).IsPortable fun x => Accepts x.2.deletions := by
  induction names generalizing found with
  | nil => exact .pure accepted
  | cons n names ih =>
    exact (Repository.isPortable_openNamed settings n).bind fun r _ =>
      (isPortable_markRepository found accepted).bind fun found accepted =>
        (ih found accepted).bind fun _ accepted => .pure accepted

lemma isPortable_markAll (settings : Settings) :
    (markAll options settings).IsPortable fun x => Accepts x.2.deletions :=
  Repository.isPortable_names.bind fun names _ =>
    isPortable_markNamed settings names {} fun _ mem => absurd mem List.not_mem_nil

end Marking

namespace Collector

variable {options : CollectionOptions}

lemma isPortable_erase {r : Record} (lawful : r.IsLawful) :
    (Removal.erase r).IsPortable fun _ => True :=
  (isPortable_eraseIfHeld lawful).bind fun _ _ => .pure trivial

lemma isPortable_removeManifest (n : RepositoryName) (d : Digest) {tags : List String}
    (accepted : ∀ t ∈ tags, TagName.accepts t = true) :
    (Removal.manifest n d tags).IsPortable fun _ => True :=
  (IsPortable.forM fun t mem =>
    isPortable_erase (r := .tagEntry n t d) (accepted t mem)).bind fun _ _ =>
      (isPortable_erase (r := .link .revision n d) trivial).bind fun _ _ =>
        isPortable_erase (r := .link .layer n d) trivial

lemma isPortable_removeBlob (settings : Settings) (n : RepositoryName) (d : Digest) :
    (Removal.repositoryBlob settings n d).IsPortable fun _ => True := by
  have link := isPortable_erase (r := .link .layer n d) trivial
  unfold Removal.repositoryBlob
  split_ifs
  · exact (isPortable_erase (r := .blob (.ofRepository n) d) trivial).bind fun _ _ => link
  · exact link

lemma isPortable_unlessDry {a : Action Unit} (portable : a.IsPortable fun _ => True) :
    (unlessDry options a).IsPortable fun _ => True := by
  unfold unlessDry
  split_ifs
  · exact .pure trivial
  · exact portable

lemma isPortable_sweepRepository (marks : MarkSet) (r : Repository) :
    (sweepRepository options marks r).IsPortable fun _ => True := by
  have listed : (candidates r).IsPortable fun _ => True := by
    refine .whileListing _ ?_
    split_ifs
    · exact BlobStore.isPortable_enumerate _
    · exact r.blobs.isPortable_enumerate
  exact listed.bind fun _ _ => (IsPortable.forM fun d _ =>
    isPortable_unlessDry (isPortable_removeBlob r.settings r.name d)).bind fun _ _ => .pure trivial

lemma isPortable_sweepAll (marks : MarkSet) (repositories : List Repository)
    (report : CollectionReport) :
    (sweepAll options marks repositories report).IsPortable fun _ => True := by
  induction repositories generalizing report with
  | nil => exact .pure trivial
  | cons r repositories ih => exact (isPortable_sweepRepository marks r).bind fun _ _ => ih _

lemma isPortable_sweep (repositories : List Repository) {found : Marking}
    (accepted : Marking.Accepts found.deletions) :
    (sweep options repositories found).IsPortable fun _ => True :=
  (IsPortable.forM fun deletion mem => isPortable_unlessDry
    (isPortable_removeManifest deletion.repository deletion.digest (accepted deletion mem))).bind
      fun _ _ => isPortable_sweepAll _ _ _

lemma isPortable_runRepository (settings : Settings) (n : RepositoryName) :
    (runRepository options settings n).IsPortable fun _ => True :=
  (Repository.isPortable_openNamed settings n).bind fun _ _ =>
    (Marking.isPortable_markRepository {} fun _ mem => absurd mem List.not_mem_nil).bind
      fun _ accepted => isPortable_sweep _ accepted

lemma isPortable_sweepShared (marks : MarkSet) :
    (sweepShared options marks).IsPortable fun _ => True :=
  ((BlobStore.isPortable_enumerate .shared).whileListing _).bind fun _ _ =>
    (IsPortable.forM fun d _ =>
      isPortable_unlessDry (isPortable_erase (r := .blob .shared d) trivial)).bind
        fun _ _ => .pure trivial

lemma isPortable_run (settings : Settings) : (run options settings).IsPortable fun _ => True := by
  refine (Marking.isPortable_markAll settings).bind fun x accepted => ?_
  obtain ⟨repositories, found⟩ := x
  refine (isPortable_sweep repositories accepted).bind fun report _ => ?_
  split_ifs
  · exact .pure trivial
  · exact (isPortable_sweepShared found.marks).bind fun _ _ => .pure trivial

end Collector

lemma Task.isPortable_perform (r : Repository) {task : Task} (named : task.NamesTag) :
    (task.perform r).IsPortable fun _ => True := by
  cases task with
  | put kind mediaType content => exact (LinkStore.isPortable_put _ mediaType content).map _
  | link kind d => exact (LinkStore.isPortable_link _ d).map _
  | unlink kind d => exact (LinkStore.isPortable_unlink _ d).map _
  | delete kind d => exact (LinkStore.isPortable_delete _ d).map _
  | stat kind d => exact (LinkStore.isPortable_stat _ d).map _
  | contains kind d => exact (LinkStore.isPortable_contains _ d).map _
  | get kind d => exact (LinkStore.isPortable_get _ d).map _
  | locate kind d => exact (LinkStore.isPortable_location _ d).map _
  | enumerate kind => exact (LinkStore.isPortable_enumerate _).map _
  | putManifest time m tag => exact (Manifests.isPortable_put time m tag).map _
  | getManifest d => exact (Manifests.isPortable_get d).map _
  | deleteManifest d => exact (Manifests.isPortable_delete d).map _
  | assignTag t d => exact (Tags.isPortable_assign t d).map _
  | getTag t => exact (Tags.isPortable_get named).map _
  | removeTag t => exact (Tags.isPortable_remove named).map _
  | tags => exact Tags.isPortable_all.map _
  | lookUpTags d => exact (Tags.isPortable_lookup d).map _
  | history t => exact (Tags.isPortable_history named).map _
  | startUpload id time => exact (Uploads.isPortable_start id time).map _
  | uploadStatus session => exact (Uploads.isPortable_status session).map _
  | appendUpload session chunk => exact (Uploads.isPortable_append session chunk).map _
  | commitUpload session d last => exact (Uploads.isPortable_commit session d last).map _
  | putWhole d content => exact (Uploads.isPortable_whole d content).map _
  | cancelUpload session => exact (Uploads.isPortable_cancel session).map _
  | collect options => exact (Collector.isPortable_runRepository _ _).map _

/-- What a registry is asked for: a task in a repository, or what concerns a blob store or all
repositories. -/
inductive Job where
  | within (n : RepositoryName) (task : Task)
  | putBlob (store : BlobStore) (mediaType : String) (content : Octets)
  | getBlob (store : BlobStore) (d : Digest)
  | statBlob (store : BlobStore) (d : Digest)
  | containsBlob (store : BlobStore) (d : Digest)
  | deleteBlob (store : BlobStore) (d : Digest)
  | locateBlob (store : BlobStore) (d : Digest)
  | enumerateBlobs (store : BlobStore)
  | repositories
  | collectAll (options : CollectionOptions)

/-- What a registry answers. -/
inductive JobResult where
  | of (result : TaskResult)
  | names (names : List RepositoryName)

namespace Job

def perform (settings : Settings) : Job → Action JobResult
  | within n task => .of <$> (do task.perform (← Repository.openNamed settings n))
  | putBlob store mediaType content =>
    (fun x => .of (.descriptor x)) <$> store.put mediaType content
  | getBlob store d => (fun x => .of (.content x)) <$> store.get d
  | statBlob store d => (fun x => .of (.descriptor x)) <$> store.stat d
  | containsBlob store d => (fun x => .of (.truth x)) <$> store.contains d
  | deleteBlob store d => (fun _ => .of .done) <$> store.delete d
  | locateBlob store d => (fun x => .of (.location x)) <$> store.location d
  | enumerateBlobs store => (fun x => .of (.digests x)) <$> store.enumerate
  | repositories => .names <$> Repository.names
  | collectAll options => (fun x => .of (.report x)) <$> Collector.run options settings

/-- Whether a job that does not check the name of a tag is given one that is accepted. -/
def NamesTag : Job → Prop
  | within _ task => task.NamesTag
  | _ => True

/-- What a registry answers to one job after another, and what it leaves. How it is set up may
change. -/
def performAll (w : World) : List (Settings × Job) → List (Except RegistryError JobResult) × World
  | [] => ([], w)
  | (settings, job) :: rest =>
    let (x, w) := w.run (job.perform settings)
    let (xs, w) := performAll w rest
    (x :: xs, w)

lemma isPortable_perform (settings : Settings) {job : Job} (named : job.NamesTag) :
    (job.perform settings).IsPortable fun _ => True := by
  cases job with
  | within n task =>
    exact ((Repository.isPortable_openNamed settings n).bind fun r _ =>
      task.isPortable_perform r named).map _
  | putBlob store mediaType content => exact (store.isPortable_put mediaType content).map _
  | getBlob store d => exact (store.isPortable_get d).map _
  | statBlob store d => exact (store.isPortable_stat d).map _
  | containsBlob store d => exact (store.isPortable_contains d).map _
  | deleteBlob store d => exact (store.isPortable_delete d).map _
  | locateBlob store d => exact (store.isPortable_location d).map _
  | enumerateBlobs store => exact store.isPortable_enumerate.map _
  | repositories => exact Repository.isPortable_names.map _
  | collectAll options => exact (Collector.isPortable_run settings).map _

lemma performAll_matches {w w' : World} {jobs : List (Settings × Job)}
    (named : ∀ job ∈ jobs, job.2.NamesTag) (same : w.Matches w') :
    (performAll w jobs).1 = (performAll w' jobs).1 ∧
      (performAll w jobs).2.Matches (performAll w' jobs).2 := by
  induction jobs generalizing w w' with
  | nil => exact ⟨rfl, same⟩
  | cons job rest ih =>
    obtain ⟨settings, job⟩ := job
    obtain ⟨x, v, v', ran, ran', same', -⟩ :=
      isPortable_perform settings (named _ List.mem_cons_self) w w' same
    obtain ⟨answers, left⟩ := ih (fun job mem => named job (List.mem_cons_of_mem _ mem)) same'
    simp only [performAll, ran, ran']
    exact ⟨congrArg (x :: ·) answers, left⟩

end Job

namespace World

/-- All keys that a registry stores. -/
def listing (w : World) : List Path := (w.backend.list w.bucket none).toOption.getD []

variable {w w' : World}

lemma Matches.listing_eq (same : w.Matches w') : w.listing = w'.listing :=
  let ⟨_, stores, stores'⟩ := same.stores
  stores.keeps.toOption_list.trans stores'.keeps.toOption_list.symm

lemma Matches.content?_eq (same : w.Matches w') {key : Path} (plain : key.IsPlain) :
    w.content? key = w'.content? key :=
  let ⟨_, stores, stores'⟩ := same.stores
  (stores.keeps.toOption_download plain).trans (stores'.keeps.toOption_download plain).symm

end World

/-- A registry over a disk and one over memory, both without content at first, give the same answers
to any jobs, and leave the same listing and the same content under every key. -/
theorem Job.performAll_portable {d : Disk} {m : Memory} {bucket : String}
    (ready : d.IsReady bucket) (empty : m.buckets[bucket]?.getD ∅ = ∅)
    (locationBase : Option String) (cache : DescriptorCache) {jobs : List (Settings × Job)}
    (named : ∀ job ∈ jobs, job.2.NamesTag) :
    let start (backend : Backend) : World := { backend, bucket, locationBase, cache }
    let onDisk := performAll (start (.disk d)) jobs
    let inMemory := performAll (start (.memory m)) jobs
    onDisk.1 = inMemory.1 ∧ onDisk.2.listing = inMemory.2.listing ∧
      ∀ key : Path, key.IsPlain → onDisk.2.content? key = inMemory.2.content? key := by
  have inMemory : (Backend.memory m).Keeps bucket ∅ := by
    change m.buckets[bucket]? = some ∅ ∨ m.buckets[bucket]? = none ∧ _
    cases found : m.buckets[bucket]? with
    | none => exact .inr ⟨rfl, rfl⟩
    | some b =>
      rw [found, Option.getD_some] at empty
      exact .inl (by rw [empty])
  have catalog : (∅ : Bucket).IsCatalog := Bucket.isLedger_empty.isCatalog
  intro start
  have same : (start (.disk d)).Matches (start (.memory m)) :=
    ⟨rfl, rfl, rfl, ∅, ⟨rfl, catalog, ready.keeps Layout.keyspace⟩, ⟨rfl, catalog, inMemory⟩⟩
  obtain ⟨answers, left⟩ := performAll_matches named same
  exact ⟨answers, left.listing_eq, fun key plain => left.content?_eq plain⟩

def Disk.bare : Disk where
  name := "local"
  root := ⟨"/srv/registry"⟩
  tree := { nodes := ∅, limits := .none }

/-- A content that is tagged, collected and looked for is told of alike on a disk and in memory. -/
theorem Job.collectedPush_portable :
    let n : RepositoryName := ⟨"library/app", RepositoryName.accepts_libraryApp⟩
    let settings : Settings :=
      { scheme := Ed25519.scheme, reader := .plain, deleteEnabled := true, cached := true }
    let d : Digest := .ofContent []
    let jobs := [Job.within n (.put .layer MediaType.octets []), .within n (.assignTag "latest" d),
      .repositories, .collectAll {}, .within n (.removeTag "latest"), .getBlob .shared d].map
        fun job => (settings, job)
    let m : Memory := .ofBuckets ["registry"]
    let start (backend : Backend) : World := { backend, bucket := "registry" }
    (∀ job ∈ jobs, job.2.NamesTag) ∧ Disk.bare.IsReady "registry" ∧
      m.buckets["registry"]?.getD ∅ = ∅ ∧
      (performAll (start (.disk .bare)) jobs).1 = (performAll (start (.memory m)) jobs).1 := by
  intro n settings d jobs m start
  have named : ∀ job ∈ jobs, job.2.NamesTag := by
    have latest : TagName.accepts "latest" = true := by decide +kernel
    simp [jobs, NamesTag, Task.NamesTag, latest]
  have ready : Disk.bare.IsReady "registry" := by
    have root : Disk.bare.root.components = .root :: ["srv", "registry"].map .name := by decide
    exact Disk.isReady_of_empty rfl root (by decide) (by decide)
  have empty : m.buckets["registry"]?.getD ∅ = ∅ := by
    simp [m, Memory.ofBuckets]
  exact ⟨named, ready, empty, (performAll_portable ready empty none .empty named).1⟩

end ImageRegistry
