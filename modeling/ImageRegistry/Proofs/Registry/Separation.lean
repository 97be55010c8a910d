import ImageRegistry.Collection.Collector
import ImageRegistry.Proofs.Collection.Piecewise

/-! Repositories that have blob stores of their own. What is done in one of them reads and writes
records of this repository only. So it comes to the same wherever registries look alike to the
repository, and is not seen by others. -/

namespace ImageRegistry

open World

variable {settings : Settings} {n m : RepositoryName} {h h' : Holdings}

lemma Record.mattersTo_iff (separate : settings.separateBlobs = true) {r : Record} :
    r.MattersTo settings n ↔ r.owner? = some n := by
  rw [MattersTo, Settings.blobStore, if_pos separate, or_iff_left_of_imp]
  rintro ⟨d, rfl⟩
  rfl

lemma Layout.owner?_of_startsWith {r : Record} (lawful : r.IsLawful) {base : Path} {part : String}
    {more : List String} (isPart : isPart part = true)
    (leads : Path.Leads (ownerSteps (some n) ++ part :: more) base)
    (below : r.key.startsWith base = true) : r.owner? = some n := by
  obtain ⟨names, below⟩ := (startsWith_iff _ _).1 below
  exact ((namesBelow?_key lawful isPart leads names).1 below).1

namespace DescriptorCache

variable {cache cache' : DescriptorCache} {d : Digest}

lemma forget_eq (cache : DescriptorCache) (n : RepositoryName) (d : Digest) :
    (cache.forget (some n) d).1 = (cache.lookUp (some n) d).map (fun _ => ()) ∧
    ∀ m e, (cache.forget (some n) d).2.lookUp (some m) e =
      if n = m ∧ d = e then (cache.lookUp (some n) d).bind fun _ => .error (.blobUnknown d)
      else cache.lookUp (some m) e := by
  cases cache with
  | table entries =>
    cases kept : entries[(some n, d)]? with
    | none =>
      have unknown : (table entries).lookUp (some n) d = .error (.blobUnknown d) := by
        rw [lookUp, kept]
      have unchanged : (table entries).forget (some n) d =
          (.error (.blobUnknown d), table entries) := by
        rw [forget, Std.ExtTreeMap.contains_eq_isSome_getElem?, kept]
        rfl
      rw [unchanged, unknown]
      refine ⟨rfl, fun m e => ?_⟩
      split_ifs with same
      · obtain ⟨rfl, rfl⟩ := same
        exact unknown
      · rfl
    | some descriptor =>
      have known : (table entries).lookUp (some n) d = .ok descriptor := by
        rw [lookUp, kept]
      have erased : (table entries).forget (some n) d =
          (.ok (), table (entries.erase (some n, d))) := by
        rw [forget, Std.ExtTreeMap.contains_eq_isSome_getElem?, kept]
        rfl
      rw [erased, known]
      refine ⟨rfl, fun m e => ?_⟩
      simp only [lookUp, Std.ExtTreeMap.getElem?_erase, CacheKey.order_eq_iff, Prod.mk.injEq,
        Option.some.injEq]
      split_ifs with same
      · obtain ⟨rfl, rfl⟩ := same
        rfl
      · rfl
  | failing | «sealed» =>
    refine ⟨rfl, fun m e => ?_⟩
    split_ifs <;> rfl

end DescriptorCache

namespace Action

variable {α : Type}

lemma IsLocal.of_records (separate : settings.separateBlobs = true) {a : Action α} {x : Bucket → α}
    {f : Record → Option Octets → Option Octets}
    (own : ∀ r content, r.IsLawful → r.owner? ≠ some n → f r content = content)
    (same : ∀ h h' : Holdings, h.Alike settings n h' → x h.bucket = x h'.bucket)
    (runs : ∀ (s : Site) (b : Bucket) cache, b.IsLedger → ∃ b' : Bucket,
      (s.world b cache).run a = (.ok (x b), s.world b' cache) ∧ b'.IsLedger ∧
        ∀ r : Record, r.IsLawful → b'.at? r = f r (b.at? r)) : a.IsLocal settings n := by
  intro s h h' alike
  obtain ⟨b, ran, ledger, changed⟩ := runs s h.bucket h.cache alike.sound.isLedger
  obtain ⟨b', ran', ledger', changed'⟩ := runs s h'.bucket h'.cache alike.sound'.isLedger
  have sound : Holdings.IsSound ⟨b, h.cache⟩ := ⟨ledger, alike.sound.isFaithful⟩
  have sound' : Holdings.IsSound ⟨b', h'.cache⟩ := ⟨ledger', alike.sound'.isFaithful⟩
  have unseen {m : RepositoryName} (other : m ≠ n) {r : Record} (lawful : r.IsLawful)
      (matters : r.MattersTo settings m) (content : Option Octets) : f r content = content := by
    refine own r content lawful fun owner => other ?_
    exact Option.some.inj (((Record.mattersTo_iff separate).1 matters).symm.trans owner)
  refine ⟨_, _, ⟨b, h.cache⟩, ⟨b', h'.cache⟩, ran, ran', .ok (same h h' alike),
    ⟨sound, sound', fun r lawful matters => ?_, alike.kept⟩, fun m other =>
      ⟨⟨alike.sound, sound, fun r lawful matters => ?_, fun _ => rfl⟩,
        alike.sound', sound', fun r lawful matters => ?_, fun _ => rfl⟩⟩
  · rw [changed r lawful, changed' r lawful, alike.records r lawful matters]
  · rw [changed r lawful, unseen other lawful matters]
  · rw [changed' r lawful, unseen other lawful matters]

section

variable {r : Record} (lawful : r.IsLawful) (owner : r.owner? = some n)
include lawful owner

lemma isLocal_fetch? : (fetch? r.key).IsLocal settings n :=
  Agrees.of_run fun s h h' alike => ⟨_, _, s.run_fetch? h.bucket h.cache r.key,
    s.run_fetch? h'.bucket h'.cache r.key, .ok (alike.records r lawful (.inl owner))⟩

lemma isLocal_size? : (size? r.key).IsLocal settings n :=
  Agrees.of_run fun s h h' alike => ⟨_, _, s.run_size? h.bucket h.cache r.key,
    s.run_size? h'.bucket h'.cache r.key,
    .ok (congrArg (Option.map List.length) (alike.records r lawful (.inl owner)))⟩

lemma isLocal_holds : (holds r.key).IsLocal settings n :=
  (isLocal_size? lawful owner).bind fun _ => .pure _

lemma isLocal_store (separate : settings.separateBlobs = true) {content : Octets}
    (holds : r.MayHold content) : (store r.key content).IsLocal settings n := by
  refine .of_records separate (f := fun q held => if r = q then some content else held) ?_
    (fun _ _ _ => rfl) fun s b cache ledger =>
      ⟨_, s.run_store b cache r.key content, ledger.put lawful holds,
        fun q lawful' => Bucket.at?_put lawful lawful' content⟩
  exact fun q held _ foreign => if_neg fun (same : r = q) => foreign (same ▸ owner)

lemma isLocal_eraseIfHeld (separate : settings.separateBlobs = true) :
    (eraseIfHeld r.key).IsLocal settings n := by
  refine .of_records separate (f := fun q held => if r = q then none else held) ?_
    (fun h h' alike => congrArg Option.isSome (alike.records r lawful (.inl owner)))
    fun s b cache ledger => ⟨_, s.run_eraseIfHeld b cache r.key, ledger.remove _,
      fun q lawful' => Bucket.at?_remove lawful lawful'⟩
  exact fun q held _ foreign => if_neg fun (same : r = q) => foreign (same ▸ owner)

end

lemma isLocal_eraseBelow (separate : settings.separateBlobs = true) {base : Path}
    (owned : ∀ r : Record, r.IsLawful → r.key.startsWith base = true → r.owner? = some n) :
    (do
      let keys ← keysBelow base
      keys.forM erase
      return !keys.isEmpty : Action Bool).IsLocal settings n := by
  have someBelow {b : Bucket} (ledger : b.IsLedger) : (b.keys (some base)).isEmpty = false ↔
      ∃ r : Record, r.IsLawful ∧ b.Has r ∧ r.key.startsWith base = true := by
    rw [List.isEmpty_eq_false_iff, ledger.keys_ne_nil_iff]
  refine .of_records separate (x := fun b => !(b.keys (some base)).isEmpty)
    (f := fun r held => if r.key.startsWith base = true then none else held)
    (fun r _ lawful foreign => if_neg fun below => foreign (owned r lawful below))
    (fun h h' alike => ?_) fun s b cache ledger => ?_
  · rw [Bool.eq_iff_iff, Bool.not_eq_true', Bool.not_eq_true', someBelow alike.sound.isLedger,
      someBelow alike.sound'.isLedger]
    refine exists_congr fun r => and_congr_right fun lawful => and_congr_left fun below => ?_
    exact alike.has_iff lawful (.inl (owned r lawful below))
  · have drops : b.Drops _ fun r => r.key.startsWith base = true :=
      (Bucket.Drops.removeBelow ledger base).congr fun r lawful _ => and_iff_right lawful
    refine ⟨_, s.run_eraseBelow b cache base, drops.1, fun r lawful => ?_⟩
    split_ifs with gone
    · exact (drops.2 r lawful).1 gone
    · exact (drops.2 r lawful).2 gone

end Action

open ImageRegistry.Action

namespace BlobStore

lemma isLocal_known {α : Type} (d : Digest) (found : Option α) :
    (known d found).IsLocal settings n := by
  cases found with
  | none => exact Agrees.throw _
  | some a => exact .pure a

lemma isLocal_get (d : Digest) : ((ofRepository n).get d).IsLocal settings n :=
  (isLocal_fetch? (r := .blob (.ofRepository n) d) trivial rfl).bind fun _ => isLocal_known d _

lemma isLocal_location (d : Digest) : ((ofRepository n).location d).IsLocal settings n := by
  have replied : (Action.call (.urlFor ((ofRepository n).key d))).IsLocal settings n :=
    Agrees.of_run fun s h h' _ => ⟨_, _, run_call _ _, run_call _ _, .ok rfl⟩
  refine replied.bind fun reply => IsLocal.bind ?_ fun found => isLocal_known d _
  unfold unlessMissing
  split
  · exact .pure _
  · split_ifs
    · exact .pure _
    · exact Agrees.throw _

lemma isLocal_put (separate : settings.separateBlobs = true) (mediaType : String)
    (content : Octets) : ((ofRepository n).put mediaType content).IsLocal settings n := by
  let r : Record := .blob (.ofRepository n) (.ofContent content)
  refine (isLocal_holds (r := r) trivial rfl).bind fun held => ?_
  split_ifs
  · exact .pure _
  · exact (isLocal_store (r := r) trivial rfl separate rfl).bind fun _ => .pure _

lemma isLocal_enumerate : (ofRepository n).enumerate.IsLocal settings n :=
  Agrees.of_run fun s h h' alike => ⟨_, _, s.run_enumerateBlobs h.cache _,
    s.run_enumerateBlobs h'.cache _, .ok <|
      alike.sound.isLedger.storedDigests_congr alike.sound'.isLedger fun d =>
        alike.has_iff (r := .blob (.ofRepository n) d) trivial (.inl rfl)⟩

end BlobStore

namespace LinkStore

variable (links : LinkStore)

lemma blobs_of_separate (separate : links.settings.separateBlobs = true) :
    links.blobs = .ofRepository links.repository := if_pos separate

lemma isLocal_remember {d : Digest} {descriptor : Descriptor} (named : descriptor.digest = d) :
    (links.remember d descriptor).IsLocal settings links.repository := by
  have noted {h : Holdings} (sound : h.IsSound) :
      Holdings.IsSound ⟨h.bucket, links.noted h.cache d descriptor⟩ :=
    ⟨sound.isLedger, isFaithful_noted sound.isFaithful named⟩
  have unseen {h : Holdings} (sound : h.IsSound) {m : RepositoryName}
      (other : m ≠ links.repository) :
      h.Alike settings m ⟨h.bucket, links.noted h.cache d descriptor⟩ :=
    ⟨sound, noted sound, fun _ _ _ => rfl, fun e => (lookUp_noted_of_ne other d descriptor e).symm⟩
  intro s h h' alike
  refine ⟨_, _, ⟨h.bucket, links.noted h.cache d descriptor⟩,
    ⟨h'.bucket, links.noted h'.cache d descriptor⟩, run_remember links s h.bucket h.cache d _,
    run_remember links s h'.bucket h'.cache d _, .ok rfl,
    ⟨noted alike.sound, noted alike.sound', alike.records, fun e => ?_⟩,
    fun m other => ⟨unseen alike.sound other, unseen alike.sound' other⟩⟩
  unfold LinkStore.noted
  split_ifs
  · exact DescriptorCache.lookUp_remember_congr alike.kept e
  · exact alike.kept e

lemma isLocal_callForget (n : RepositoryName) (d : Digest) :
    (Action.call (.forget n d)).IsLocal settings n := by
  have dropped {h : Holdings} (sound : h.IsSound) :
      Holdings.IsSound ⟨h.bucket, (h.cache.forget (some n) d).2⟩ :=
    ⟨sound.isLedger, fun m => by rw [DescriptorCache.openFor_forget, sound.isFaithful.opens],
      fun m e found looked =>
        sound.isFaithful.named m e found (DescriptorCache.lookUp_forget looked).2⟩
  have unseen {h : Holdings} (sound : h.IsSound) {m : RepositoryName} (other : m ≠ n) :
      h.Alike settings m ⟨h.bucket, (h.cache.forget (some n) d).2⟩ := by
    refine ⟨sound, dropped sound, fun _ _ _ => rfl, fun e => ?_⟩
    rw [(h.cache.forget_eq n d).2, if_neg fun both => other both.1.symm]
  intro s h h' alike
  obtain ⟨reply, looked⟩ := h.cache.forget_eq n d
  obtain ⟨reply', looked'⟩ := h'.cache.forget_eq n d
  refine ⟨_, _, ⟨h.bucket, _⟩, ⟨h'.bucket, (h'.cache.forget (some n) d).2⟩, run_call _ _,
    run_call _ _, .ok ?_, ⟨dropped alike.sound, dropped alike.sound', alike.records, fun e => ?_⟩,
    fun m other => ⟨unseen alike.sound other, unseen alike.sound' other⟩⟩
  · rw [s.answer_forget, s.answer_forget, reply, reply', alike.kept d]
  · rw [looked, looked', alike.kept d, alike.kept e]

lemma isLocal_forget (d : Digest) : (links.forget d).IsLocal settings links.repository := by
  unfold forget
  split_ifs
  · refine (isLocal_callForget links.repository d).bind fun reply => ?_
    split
    · exact .pure _
    · split_ifs
      · exact .pure _
      · exact Agrees.throw _
  · exact .pure _

variable (same : links.settings = settings)
include same

lemma isLocal_stat (d : Digest) : (links.stat d).IsLocal settings links.repository := by
  intro s h h' alike
  refine ⟨_, _, ⟨h.bucket, _⟩, ⟨h'.bucket, _⟩, run_stat links s h.cache alike.sound.isLedger d,
    run_stat links s h'.cache alike.sound'.isLedger d, ?_, links.alike_asked same alike d,
    fun m other => ⟨links.alike_asked_of_ne other alike.sound d,
      links.alike_asked_of_ne other alike.sound' d⟩⟩
  rw [alike.told?_eq same]
  cases links.told? h'.bucket h'.cache d with
  | none => exact .error _
  | some descriptor => exact .ok rfl

lemma isLocal_contains (d : Digest) : (links.contains d).IsLocal settings links.repository := by
  refine Agrees.tryCatch ((links.isLocal_stat same d).bind fun _ => .pure _) fun e => ?_
  split_ifs
  · exact Agrees.pure rfl
  · exact Agrees.throw e

variable (separate : settings.separateBlobs = true)
include separate

lemma isLocal_get (d : Digest) : (links.get d).IsLocal settings links.repository := by
  refine (links.isLocal_stat same d).bind fun _ => ?_
  rw [links.blobs_of_separate (same ▸ separate)]
  exact BlobStore.isLocal_get _

lemma isLocal_location (d : Digest) : (links.location d).IsLocal settings links.repository := by
  unfold location
  split_ifs
  · refine (links.isLocal_stat same d).bind fun _ => ?_
    rw [links.blobs_of_separate (same ▸ separate)]
    exact BlobStore.isLocal_location _
  · exact .pure _

omit same in
lemma isLocal_link (d : Digest) : (links.link d).IsLocal settings links.repository :=
  isLocal_store (r := .link links.current links.repository d) trivial rfl separate rfl

lemma isLocal_put (mediaType : String) (content : Octets) :
    (links.put mediaType content).IsLocal settings links.repository := by
  unfold put
  rw [links.blobs_of_separate (same ▸ separate)]
  exact (BlobStore.isLocal_put separate mediaType content).bind fun _ =>
    (links.isLocal_link separate _).bind fun _ => (links.isLocal_remember rfl).bind fun _ => .pure _

omit same in
lemma isLocal_unlink (d : Digest) : (links.unlink d).IsLocal settings links.repository := by
  have erased (kinds : List LinkKind) :
      (links.eraseLinks d kinds).IsLocal settings links.repository := by
    induction kinds with
    | nil => exact .pure _
    | cons kind kinds ih =>
      exact (isLocal_eraseIfHeld (r := .link kind links.repository d) trivial rfl separate).bind
        fun _ => ih.bind fun _ => .pure _
  exact (erased _).bind fun _ => (links.isLocal_forget d).bind fun _ => .pure _

lemma isLocal_delete (d : Digest) : (links.delete d).IsLocal settings links.repository := by
  unfold delete
  dsimp only
  split_ifs
  · refine (links.isLocal_stat same d).bind fun _ =>
      (links.isLocal_unlink separate d).bind fun _ => ?_
    split_ifs
    · exact .pure _
    · exact Agrees.throw _
  · exact Agrees.throw _

end LinkStore

namespace Tags

variable (separate : settings.separateBlobs = true) {t : String}
include separate

lemma isLocal_assign (t : String) (d : Digest) : (assign n t d).IsLocal settings n := by
  refine Agrees.bind (R := fun _ _ => TagName.accepts t = true) (.liftExcept fun u checked => ?_)
    fun _ _ accepted => ?_
  · unfold TagName.check at checked
    split_ifs at checked with accepted
    exact accepted
  · exact (isLocal_store (r := .tagTarget n t) accepted rfl separate ⟨d, rfl⟩).bind fun _ =>
      isLocal_store (r := .tagEntry n t d) accepted rfl separate rfl

lemma isLocal_erase (accepted : TagName.accepts t = true) : (erase n t).IsLocal settings n :=
  isLocal_eraseBelow separate fun _ lawful =>
    Layout.owner?_of_startsWith lawful (by decide) (Layout.leads_tag n accepted)

lemma isLocal_remove (accepted : TagName.accepts t = true) : (remove n t).IsLocal settings n := by
  refine (isLocal_erase separate accepted).bind fun _ => ?_
  split_ifs
  · exact .pure _
  · exact Agrees.throw _

omit separate in
lemma isLocal_history (accepted : TagName.accepts t = true) : (history n t).IsLocal settings n := by
  refine Agrees.of_run fun s h h' alike => ⟨_, _, s.run_remembered h.cache n t,
    s.run_remembered h'.cache n t, .ok ?_⟩
  refine alike.sound.isLedger.remembered_congr alike.sound'.isLedger accepted fun d => ?_
  exact alike.has_iff (r := .tagEntry n t d) accepted (.inl rfl)

end Tags

namespace Uploads

variable {r : Repository}

lemma isLocal_readId (session : String) :
    (liftM (readId session) : Action UploadId).IsLocal settings n :=
  Agrees.liftExcept fun _ _ => rfl

lemma isLocal_known {α : Type} (id : UploadId) (found : Option α) :
    (known id found).IsLocal settings n := by
  cases found with
  | none => exact Agrees.throw _
  | some a => exact .pure a

lemma isLocal_content (id : UploadId) : (content r id).IsLocal settings r.name :=
  (isLocal_fetch? (r := .uploadContent r.name id) trivial rfl).bind fun _ => isLocal_known id _

lemma isLocal_status (session : String) : (status r session).IsLocal settings r.name :=
  (isLocal_readId session).bind fun id =>
    (isLocal_size? (r := .uploadContent r.name id) trivial rfl).bind fun _ =>
      (isLocal_known id _).bind fun _ => .pure _

variable (separate : settings.separateBlobs = true)
include separate

lemma isLocal_start (id : UploadId) (time : String) : (start r id time).IsLocal settings r.name :=
  (isLocal_store (r := .uploadContent r.name id) trivial rfl separate trivial).bind fun _ =>
    (isLocal_store (r := .uploadStart r.name id) trivial rfl separate trivial).bind fun _ => .pure _

lemma isLocal_append (session : String) (chunk : Octets) :
    (append r session chunk).IsLocal settings r.name := by
  unfold append
  dsimp only
  split_ifs
  · exact (isLocal_readId session).bind fun id => (isLocal_content id).bind fun _ =>
      (isLocal_store (r := .uploadContent r.name id) trivial rfl separate trivial).bind
        fun _ => .pure _
  · exact Agrees.throw _

lemma isLocal_erase (id : UploadId) : (erase r id).IsLocal settings r.name :=
  isLocal_eraseBelow separate fun _ lawful =>
    Layout.owner?_of_startsWith lawful (by decide) (Layout.leads_upload r.name id)

lemma isLocal_cancel (session : String) : (cancel r session).IsLocal settings r.name := by
  refine (isLocal_readId session).bind fun id => (isLocal_erase separate id).bind fun _ => ?_
  split_ifs
  · exact .pure _
  · exact Agrees.throw _

variable (same : r.settings = settings)
include same

lemma isLocal_putBlob (content : Octets) :
    (r.blobs.put MediaType.octets content).IsLocal settings r.name :=
  r.blobs.isLocal_put same separate _ content

lemma isLocal_commit (session : String) (d : Digest) (last : Octets) :
    (commit r session d last).IsLocal settings r.name :=
  (isLocal_readId session).bind fun id => (isLocal_content id).bind fun _ =>
    IsLocal.bind (Agrees.liftExcept fun _ _ => rfl) fun _ =>
      (isLocal_putBlob separate same _).bind fun _ =>
        (isLocal_erase separate id).bind fun _ => .pure _

lemma isLocal_whole (d : Digest) (content : Octets) :
    (whole r d content).IsLocal settings r.name :=
  IsLocal.bind (Agrees.liftExcept fun _ _ => rfl) fun _ => isLocal_putBlob separate same content

end Uploads

namespace Manifests

lemma isLocal_whenBlobUnknown {α : Type} (other : RegistryError) {a : Action α}
    (isLocal : a.IsLocal settings n) : (whenBlobUnknown other a).IsLocal settings n := by
  refine Agrees.tryCatch isLocal fun e => ?_
  split <;> exact Agrees.throw _

variable {r : Repository} (same : r.settings = settings)
include same

lemma isLocal_contains (d : Digest) : (contains r d).IsLocal settings r.name :=
  r.manifests.isLocal_contains same d

lemma isLocal_requireBlob (d : Digest) : (requireBlob r d).IsLocal settings r.name :=
  (isLocal_whenBlobUnknown _ (r.blobs.isLocal_stat same d)).bind
    fun _ => .pure _

lemma isLocal_requireManifest (d : Digest) : (requireManifest r d).IsLocal settings r.name := by
  refine (isLocal_contains same d).bind fun held => ?_
  split_ifs
  · exact .pure _
  · exact Agrees.throw _

lemma isLocal_checkDockerLayer (layer : Descriptor) :
    (checkDockerLayer r layer).IsLocal settings r.name := by
  unfold checkDockerLayer
  split_ifs
  · exact Agrees.throw _
  · exact Agrees.orFail fun _ _ => rfl
  · exact isLocal_requireBlob same _

lemma isLocal_checkOciLayer (layer : Descriptor) :
    (checkOciLayer r layer).IsLocal settings r.name := by
  unfold checkOciLayer
  split_ifs
  · exact Agrees.orFail fun _ _ => rfl
  · exact isLocal_requireBlob same _

lemma isLocal_prepareLegacy (time : String) (m : LegacyManifest) :
    (prepareLegacy r time m).IsLocal settings r.name := by
  unfold prepareLegacy
  dsimp only
  split
  · split
    · exact Agrees.throw _
    · split
      · exact Agrees.throw _
      · refine (IsLocal.forM fun _ _ => isLocal_requireBlob same _).bind fun _ => ?_
        split_ifs
        · exact IsLocal.bind (Agrees.orFail fun _ _ => rfl) fun _ => .pure _
        · split
          · exact Agrees.orFail fun _ _ => rfl
          · exact Agrees.throw _
  · exact Agrees.throw _

lemma isLocal_prepare (time : String) (m : Manifest) :
    (prepare r time m).IsLocal settings r.name := by
  cases m with
  | legacy m => exact (isLocal_prepareLegacy same time m).map _
  | docker m =>
    exact (isLocal_requireBlob same _).bind fun _ =>
      (IsLocal.forM fun _ _ => isLocal_checkDockerLayer same _).bind fun _ => .pure _
  | oci m =>
    exact (isLocal_requireBlob same _).bind fun _ =>
      (IsLocal.forM fun _ _ => isLocal_checkOciLayer same _).bind fun _ => .pure _
  | index m =>
    exact (IsLocal.forM fun _ _ => isLocal_requireManifest same _).bind fun _ => .pure _

variable (separate : settings.separateBlobs = true)
include separate

lemma isLocal_put (time : String) (m : Manifest) (tag : Option String) :
    (put r time m tag).IsLocal settings r.name := by
  refine (isLocal_prepare same time m).bind fun _ =>
    (r.manifests.isLocal_put same separate _ _).bind fun descriptor => ?_
  split
  · exact (Tags.isLocal_assign separate _ _).bind fun _ => .pure _
  · exact .pure _

lemma isLocal_delete (d : Digest) : (delete r d).IsLocal settings r.name := by
  unfold delete
  dsimp only
  split_ifs
  · refine (isLocal_contains same d).bind fun _ => ?_
    split_ifs
    · refine Agrees.bind (Tags.agrees_lookup d) fun tags tags' listed => ?_
      obtain ⟨rfl, accepted⟩ := listed
      refine (IsLocal.forM fun t mem =>
        (Tags.isLocal_erase separate (accepted t mem)).bind fun _ => .pure _).bind fun _ => ?_
      exact isLocal_whenBlobUnknown _
        (r.manifests.isLocal_delete same separate d)
    · exact Agrees.throw _
  · exact Agrees.throw _

end Manifests

lemma Repository.agrees_openNamed : (openNamed settings n).Agrees settings n
    (fun r r' => r = ⟨settings, n⟩ ∧ r' = r) (openNamed settings n) :=
  .of_run fun s h h' alike =>
    ⟨_, _, alike.sound.isFaithful.run_openNamed s h.bucket settings n,
      alike.sound'.isFaithful.run_openNamed s h'.bucket settings n, .ok ⟨rfl, rfl⟩⟩

namespace Collector

variable {options : CollectionOptions} (separate : settings.separateBlobs = true)
include separate

lemma isLocal_erase {r : Record} (lawful : r.IsLawful) (owner : r.owner? = some n) :
    (Removal.erase r).IsLocal settings n :=
  (isLocal_eraseIfHeld lawful owner separate).bind fun _ => .pure _

lemma isLocal_removeManifest (d : Digest) {tags : List String}
    (accepted : ∀ t ∈ tags, TagName.accepts t = true) :
    (Removal.manifest n d tags).IsLocal settings n :=
  (IsLocal.forM fun t mem =>
    isLocal_erase separate (r := .tagEntry n t d) (accepted t mem) rfl).bind fun _ =>
      (isLocal_erase separate (r := .link .revision n d) trivial rfl).bind fun _ =>
        isLocal_erase separate (r := .link .layer n d) trivial rfl

lemma isLocal_removeBlob (d : Digest) :
    (Removal.repositoryBlob settings n d).IsLocal settings n := by
  unfold Removal.repositoryBlob
  rw [if_pos separate]
  exact (isLocal_erase separate (r := .blob (.ofRepository n) d) trivial rfl).bind fun _ =>
    isLocal_erase separate (r := .link .layer n d) trivial rfl

omit separate in
lemma isLocal_unlessDry {a : Action Unit} (isLocal : a.IsLocal settings n) :
    (unlessDry options a).IsLocal settings n := by
  unfold unlessDry
  split_ifs
  · exact .pure _
  · exact isLocal

lemma isLocal_sweepRepository (marks : MarkSet) :
    (sweepRepository options marks ⟨settings, n⟩).IsLocal settings n := by
  have listed : (candidates ⟨settings, n⟩).IsLocal settings n := by
    unfold candidates Repository.blobStore Settings.blobStore
    rw [if_pos separate, if_pos separate]
    exact Agrees.whileListing _ BlobStore.isLocal_enumerate
  exact listed.bind fun _ => (IsLocal.forM fun d _ =>
    isLocal_unlessDry (isLocal_removeBlob separate d)).bind fun _ => .pure _

theorem isLocal_runRepository : (runRepository options settings n).IsLocal settings n := by
  refine Agrees.bind Repository.agrees_openNamed fun r r' opened => ?_
  obtain ⟨rfl, rfl⟩ := opened
  refine Agrees.bind (Marking.agrees_markRepository fun _ => rfl) fun found found' marked => ?_
  obtain ⟨-, -, marks, garbage, own, deletions, deletions'⟩ := marked
  obtain rfl : found = found' := by
    cases found
    cases found'
    simp_all
  have removed : ∀ deletion ∈ found.deletions, (unlessDry options
      (Removal.manifest deletion.repository deletion.digest deletion.tags)).IsLocal settings n := by
    intro deletion mem
    obtain ⟨named, accepted⟩ := own deletion (by simpa [deletions] using mem)
    exact isLocal_unlessDry (named ▸ isLocal_removeManifest separate _ accepted)
  exact (IsLocal.forM removed).bind fun _ =>
    (isLocal_sweepRepository separate found.marks).bind fun _ => .pure _

end Collector
end ImageRegistry
