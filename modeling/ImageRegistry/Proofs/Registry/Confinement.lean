import ImageRegistry.Collection.Collector
import ImageRegistry.Proofs.Program.Site
import ImageRegistry.Proofs.Registry.Records
import ImageRegistry.Proofs.Storage.PlainPaths
import ImageRegistry.Registry.Uploads

/-! How far what is done in a repository reaches, whatever the bucket holds and the cache tells. It
changes nothing outside of the parts of the repository, except that contents are added to the shared
store under their own digests. -/

namespace ImageRegistry

open World
open ImageRegistry.Path (IsName IsPlain Leads)

namespace Layout

variable {n m : RepositoryName} {cs : List Component}

/-- Whether a key lies at or below a part of a repository. -/
def Owns (n : RepositoryName) (cs : List Component) : Prop :=
  ∃ part ∈ partNames, (repository n / part).components <+: cs

lemma Owns.mono {cs' : List Component} (owns : Owns n cs) (leads : cs <+: cs') : Owns n cs' :=
  let ⟨part, mem, below⟩ := owns
  ⟨part, mem, below.trans leads⟩

lemma owns_of_leads {part : String} {more : List String} {base : Path} (mem : part ∈ partNames)
    (leads : Leads (ownerSteps (some n) ++ part :: more) base) : Owns n base.components := by
  refine ⟨part, mem, ?_⟩
  rw [(leads_part n mem).2, leads.2]
  exact ⟨more.map Component.name, by simp⟩

lemma owns_tags (n : RepositoryName) : Owns n (tags n).components :=
  owns_of_leads (by decide) (leads_tags n)

lemma owns_key {r : Record} (lawful : r.IsLawful) (owner : r.owner? = some n) :
    Owns n r.key.components := by
  have part : ∃ part ∈ partNames, ∃ rest, r.place = part :: rest := by
    cases r with
    | blob store d => cases store <;> [cases owner; exact ⟨_, by decide, _, rfl⟩]
    | link kind m d => cases kind <;> exact ⟨_, by decide, _, rfl⟩
    | tagTarget | tagEntry | uploadContent | uploadStart => exact ⟨_, by decide, _, rfl⟩
  obtain ⟨part, mem, rest, place⟩ := part
  have leads := Record.leads_key lawful
  rw [Record.steps, owner, place] at leads
  exact owns_of_leads mem leads

theorem Owns.eq (owns : Owns n cs) (owns' : Owns m cs) : n = m := by
  obtain ⟨part, mem, below⟩ := owns
  obtain ⟨part', mem', below'⟩ := owns'
  have eq_of_leads {n m : RepositoryName} {part part' : String} (mem : part ∈ partNames)
      (mem' : part' ∈ partNames)
      (h : (repository n / part).components <+: (repository m / part').components) : n = m := by
    rw [(leads_part n mem).2, (leads_part m mem').2] at h
    have steps := (List.prefix_map_iff_of_injective fun _ _ => Component.name.inj).1 h
    obtain ⟨rest, steps⟩ := steps
    have found := List.isPrefixOf?_eq_some_iff_append_eq.2 steps
    rw [ownerSteps, ownerSteps, List.append_assoc, List.append_assoc,
      Record.isPrefixOf?_append_append,
      Record.isPrefixOf?_parts [] [] (fun _ => RepositoryName.not_isPart_of_mem_steps)
        (fun _ => RepositoryName.not_isPart_of_mem_steps) (isPart_of_mem mem)
        (isPart_of_mem mem')] at found
    split_ifs at found with same
    exact RepositoryName.steps_injective same
  rcases List.prefix_or_prefix_of_prefix below below' with h | h
  · exact eq_of_leads mem mem' h
  · exact (eq_of_leads mem' mem h).symm

lemma Owns.not_shared (owns : Owns n cs) : ¬(blobs .shared).components <+: cs := by
  obtain ⟨part, mem, below⟩ := owns
  intro shared
  have blobs : (blobs .shared).components = ["docker", "registry", "v2", "blobs"].map .name :=
    (leads_blobs .shared).2
  rw [(leads_part n mem).2, ownerSteps] at below
  obtain ⟨rest, rfl⟩ := below
  rw [blobs] at shared
  simp [List.cons_prefix_cons] at shared

lemma shared_below_key (d : Digest) :
    (blobs .shared).components <+: (Record.blob .shared d).key.components := by
  refine ⟨[Digest.algorithm, shard d, d.hex, "data"].map .name, ?_⟩
  rw [(leads_blobs .shared).2, (Record.leads_key (r := .blob .shared d) trivial).2,
    ← List.map_append]
  simp [Record.steps, Record.owner?, Record.place, blobsSteps]

/-! The keys of records are plain. -/

lemma isPlain_root : root.IsPlain := by decide

lemma isPlain_repository (n : RepositoryName) : (repository n).IsPlain :=
  (isPlain_root.step (by decide)).join fun _ mem => (RepositoryName.isStep_of_mem_steps mem).isName

lemma isPlain_blobs : (store : BlobStore) → (blobs store).IsPlain
  | .shared => isPlain_root.step (by decide)
  | .ofRepository n => (isPlain_repository n).step (by decide)

lemma isPlain_links (n : RepositoryName) : (kind : LinkKind) → (links n kind).IsPlain
  | .layer => (isPlain_repository n).step (by decide)
  | .revision => ((isPlain_repository n).step (by decide)).step (by decide)

lemma isPlain_tags (n : RepositoryName) : (tags n).IsPlain :=
  ((isPlain_repository n).step (by decide)).step (by decide)

lemma isPlain_tag (n : RepositoryName) {t : String} (name : IsName t) : (tag n t).IsPlain :=
  (isPlain_tags n).step name

lemma isPlain_upload (n : RepositoryName) (id : UploadId) : (upload n id).IsPlain :=
  ((isPlain_repository n).step (by decide)).step id.isStep_text.isName

lemma isPlain_linkTo {base : Path} (plain : base.IsPlain) (d : Digest) :
    (linkTo base d).IsPlain :=
  ((plain.step (by decide)).step d.isStep_hex.isName).step (by decide)

lemma below_linkTo {base : Path} (plain : base.IsPlain) (d : Digest) :
    base.components <+: (linkTo base d).components := by
  have isAlgorithm : IsName Digest.algorithm := by decide
  have isHex : IsName d.hex := d.isStep_hex.isName
  have below := (plain.below_step isAlgorithm).trans ((plain.step isAlgorithm).below_step isHex)
  exact below.trans (((plain.step isAlgorithm).step isHex).below_step (by decide))

end Layout

lemma Record.isPlain_key {r : Record} (lawful : r.IsLawful) : r.key.IsPlain := by
  have tagName {t : String} (accepted : TagName.accepts t = true) : IsName t :=
    (TagName.isStep_of_accepts accepted).isName
  cases r with
  | blob store d =>
    exact ((((Layout.isPlain_blobs store).step (by decide)).step d.isStep_shard.isName).step
      d.isStep_hex.isName).step (by decide)
  | link kind n d => exact Layout.isPlain_linkTo (Layout.isPlain_links n kind) d
  | tagTarget n t =>
    exact ((Layout.isPlain_tag n (tagName lawful)).step (by decide)).step (by decide)
  | tagEntry n t d =>
    exact Layout.isPlain_linkTo ((Layout.isPlain_tag n (tagName lawful)).step (by decide)) d
  | uploadContent n id | uploadStart n id => exact (Layout.isPlain_upload n id).step (by decide)

namespace Bucket

/-- Every key is stored by its components, and was written plainly. -/
def IsPlain (b : Bucket) : Prop :=
  ∀ (cs : List Component) (stored : Stored), b[cs]? = some stored →
    stored.spelling.components = cs ∧ stored.spelling.IsPlain

/-- The second bucket differs from the first one only in keys of a repository, and in contents that
were missing from the shared store. -/
structure Within (n : RepositoryName) (b b' : Bucket) : Prop where
  plain : b'.IsPlain
  changes : ∀ cs, b'[cs]? ≠ b[cs]? → Layout.Owns n cs ∨
    ∃ stored, cs = (Record.blob .shared (.ofContent stored.content)).key.components ∧
      b[cs]? = none ∧ b'[cs]? = some stored

variable {n : RepositoryName} {b b' b'' : Bucket} {key : Path}

lemma IsPlain.within (plain : b.IsPlain) (n : RepositoryName) : b.Within n b :=
  ⟨plain, fun _ changed => absurd rfl changed⟩

lemma Within.trans (first : b.Within n b') (second : b'.Within n b'') : b.Within n b'' := by
  refine ⟨second.plain, fun cs changed => ?_⟩
  by_cases later : b''[cs]? = b'[cs]?
  · rw [later] at changed ⊢
    exact first.changes cs changed
  · rcases second.changes cs later with owns | ⟨stored, atBlob, missing, found⟩
    · exact .inl owns
    · by_cases before : b'[cs]? = b[cs]?
      · exact .inr ⟨stored, atBlob, before ▸ missing, found⟩
      · refine (first.changes cs before).imp_right fun ⟨old, _, _, held⟩ => ?_
        rw [missing] at held
        cases held

lemma isPlain_empty : IsPlain (∅ : Bucket) := by
  intro cs stored found
  simp at found

lemma IsPlain.put (plain : b.IsPlain) (plainKey : key.IsPlain) (content : Octets) :
    (b.put key content).IsPlain := by
  intro cs stored found
  rw [Bucket.put, Std.ExtTreeMap.getElem?_insert] at found
  split_ifs at found with same
  · rw [Std.compare_eq_iff_eq] at same
    obtain rfl := Option.some.inj found
    cases old : b[key.components]? with
    | none => exact ⟨same, plainKey⟩
    | some stored =>
      obtain ⟨components, written⟩ := plain _ stored old
      exact ⟨components.trans same, written⟩
  · exact plain cs stored found

lemma IsPlain.remove (plain : b.IsPlain) (key : Path) : (b.remove key).IsPlain := by
  intro cs stored found
  rw [Bucket.remove, Std.ExtTreeMap.getElem?_erase] at found
  split_ifs at found
  exact plain cs stored found

lemma getElem?_put_of_ne {cs : List Component} (different : key.components ≠ cs)
    (content : Octets) : (b.put key content)[cs]? = b[cs]? := by
  rw [Bucket.put, Std.ExtTreeMap.getElem?_insert, if_neg fun same =>
    different (Std.compare_eq_iff_eq.1 same)]

lemma within_put (plain : b.IsPlain) (plainKey : key.IsPlain) (owns : Layout.Owns n key.components)
    (content : Octets) : b.Within n (b.put key content) := by
  refine ⟨plain.put plainKey content, fun cs changed => .inl ?_⟩
  by_cases same : key.components = cs
  · exact same ▸ owns
  · exact absurd (getElem?_put_of_ne same content) changed

lemma within_putShared (plain : b.IsPlain) (n : RepositoryName) {content : Octets}
    (missing : b.content? (BlobStore.shared.key (.ofContent content)) = none) :
    b.Within n (b.put (BlobStore.shared.key (.ofContent content)) content) := by
  let r : Record := .blob .shared (.ofContent content)
  refine ⟨plain.put (Record.isPlain_key (r := r) trivial) content, fun cs changed => .inr ?_⟩
  by_cases same : r.key.components = cs
  · subst same
    have missing : b[r.key.components]? = none := Option.map_eq_none_iff.1 missing
    refine ⟨⟨r.key, content⟩, rfl, missing, ?_⟩
    change (b.put r.key content)[r.key.components]? = _
    rw [Bucket.put, Std.ExtTreeMap.getElem?_insert_self, missing]
    rfl
  · exact absurd (getElem?_put_of_ne same content) changed

lemma within_remove (plain : b.IsPlain) (owns : Layout.Owns n key.components) :
    b.Within n (b.remove key) := by
  refine ⟨plain.remove key, fun cs changed => .inl ?_⟩
  by_cases same : key.components = cs
  · exact same ▸ owns
  · refine absurd ?_ changed
    rw [Bucket.remove, Std.ExtTreeMap.getElem?_erase, if_neg fun equal =>
      same (Std.compare_eq_iff_eq.1 equal)]

lemma IsPlain.mem_keys (plain : b.IsPlain) {base : Path} (mem : key ∈ b.keys (some base)) :
    key.IsPlain ∧ base.components <+: key.components := by
  obtain ⟨cs, stored, found, below, rfl⟩ := Bucket.mem_keys.1 mem
  obtain ⟨rfl, plainKey⟩ := plain cs stored found
  exact ⟨plainKey, List.isPrefixOf_iff_prefix.1 below⟩

end Bucket

lemma Layout.isName_of_namesBelow? {base key : Path} (plain : key.IsPlain) {names : List String}
    (below : namesBelow? base key = some names) {s : String} (mem : s ∈ names) : IsName s := by
  obtain ⟨cs, after, rfl⟩ := Option.map_eq_some_iff.1 below
  obtain ⟨c, memRest, rfl⟩ := List.mem_map.1 mem
  have split := List.isPrefixOf?_eq_some_iff_append_eq.1 after
  obtain ⟨s, rfl, name⟩ := plain.exists_isName (split ▸ List.mem_append_right _ memRest)
  exact name

/-- Whatever a plain bucket holds and the cache tells, the action changes nothing but what may be
changed in a repository, and a result of it has a property. -/
def Action.Confines {α : Type} (n : RepositoryName) (Q : α → Prop) (a : Action α) : Prop :=
  ∀ (s : Site) (b : Bucket) (cache : DescriptorCache), b.IsPlain → ∃ x b' cache',
    (s.world b cache).run a = (x, s.world b' cache') ∧ b.Within n b' ∧ ∀ y, x = .ok y → Q y

namespace Action.Confines

variable {n : RepositoryName} {α β : Type} {Q : α → Prop} {R : β → Prop}

lemma of_run {a : Action α} (reads : ∀ (s : Site) (b : Bucket) cache, b.IsPlain → ∃ x cache',
    (s.world b cache).run a = (x, s.world b cache') ∧ ∀ y, x = .ok y → Q y) : a.Confines n Q := by
  intro s b cache plain
  obtain ⟨x, cache', ran, good⟩ := reads s b cache plain
  exact ⟨x, b, cache', ran, plain.within n, good⟩

lemma pure {x : α} (good : Q x) : (Pure.pure x : Action α).Confines n Q :=
  of_run fun _ _ _ _ => ⟨_, _, run_pure _ x, fun _ same => Except.ok.inj same ▸ good⟩

lemma throw (e : RegistryError) : (throw e : Action α).Confines n Q :=
  of_run fun _ _ _ _ => ⟨_, _, run_throw _ e, fun _ => nofun⟩

lemma liftExcept {x : Except RegistryError α} (good : ∀ y, x = .ok y → Q y) :
    (liftM x : Action α).Confines n Q :=
  of_run fun _ _ _ _ => ⟨x, _, run_liftExcept _ x, good⟩

lemma orFail {ε : Type} {error : ε → RegistryError} {x : Except ε α} :
    (Action.orFail error x).Confines n fun _ => True :=
  of_run fun _ _ _ _ => ⟨_, _, run_orFail _ error x, fun _ _ => trivial⟩

lemma bind {a : Action α} {f : α → Action β} (first : a.Confines n Q)
    (second : ∀ x, Q x → (f x).Confines n R) : (a >>= f).Confines n R := by
  intro s b cache plain
  obtain ⟨x, b', cache', ran, within, good⟩ := first s b cache plain
  rw [run_bind, ran]
  cases x with
  | error e => exact ⟨_, b', cache', rfl, within, fun _ => nofun⟩
  | ok x =>
    obtain ⟨y, b'', cache'', ran', within', good'⟩ := second x (good x rfl) s b' cache' within.plain
    exact ⟨y, b'', cache'', ran', within.trans within', good'⟩

lemma map {a : Action α} (f : α → β) (confines : a.Confines n Q) :
    (f <$> a).Confines n fun _ => True := by
  rw [map_eq_pure_bind]
  exact confines.bind fun _ _ => .pure trivial

lemma tryCatch {a : Action α} {handle : RegistryError → Action α} (first : a.Confines n Q)
    (second : ∀ e, (handle e).Confines n Q) : (tryCatch a handle).Confines n Q := by
  intro s b cache plain
  obtain ⟨x, b', cache', ran, within, good⟩ := first s b cache plain
  rw [run_tryCatch, ran]
  cases x with
  | ok x => exact ⟨_, b', cache', rfl, within, good⟩
  | error e =>
    obtain ⟨y, b'', cache'', ran', within', good'⟩ := second e s b' cache' within.plain
    exact ⟨y, b'', cache'', ran', within.trans within', good'⟩

lemma forM {xs : List α} {f : α → Action PUnit}
    (each : ∀ x ∈ xs, (f x).Confines n fun _ => True) : (xs.forM f).Confines n fun _ => True := by
  induction xs with
  | nil => exact .pure trivial
  | cons x xs ih =>
    change (f x >>= fun _ => xs.forM f).Confines n fun _ => True
    exact (each x List.mem_cons_self).bind fun _ _ =>
      ih fun y mem => each y (List.mem_cons_of_mem x mem)

lemma whileListing (what : String) {a : Action α} (confines : a.Confines n Q) :
    (Action.whileListing what a).Confines n Q := confines.tryCatch fun _ => .throw _

end Action.Confines

open ImageRegistry.Action

section

variable {n : RepositoryName} {key base : Path}

namespace Action

lemma confines_fetch? : (fetch? key).Confines n fun _ => True :=
  .of_run fun s b cache _ => ⟨_, cache, s.run_fetch? b cache key, fun _ _ => trivial⟩

lemma confines_size? : (size? key).Confines n fun _ => True :=
  .of_run fun s b cache _ => ⟨_, cache, s.run_size? b cache key, fun _ _ => trivial⟩

lemma confines_urlFor : (call (.urlFor key)).Confines n fun _ => True :=
  .of_run fun _ _ cache _ => ⟨_, cache, run_call _ _, fun _ _ => trivial⟩

lemma confines_lookUp (m : RepositoryName) (d : Digest) :
    (call (.lookUp m d)).Confines n fun _ => True :=
  .of_run fun _ _ cache _ => ⟨_, cache, run_call _ _, fun _ _ => trivial⟩

lemma confines_remember (m : RepositoryName) (d : Digest) (descriptor : Descriptor) :
    (call (.remember m d descriptor)).Confines n fun _ => True :=
  .of_run fun _ _ cache _ =>
    ⟨_, (cache.remember (some m) d descriptor).2, run_call _ _, fun _ _ => trivial⟩

lemma confines_forget (m : RepositoryName) (d : Digest) :
    (call (.forget m d)).Confines n fun _ => True :=
  .of_run fun _ _ cache _ => ⟨_, (cache.forget (some m) d).2, run_call _ _, fun _ _ => trivial⟩

lemma confines_keysBelow : (keysBelow base).Confines n
    fun keys => ∀ key ∈ keys, key.IsPlain ∧ base.components <+: key.components := by
  refine .of_run fun s b cache plain =>
    ⟨_, cache, s.run_keysBelow b cache base, fun keys same => ?_⟩
  obtain rfl := Except.ok.inj same
  exact fun key mem => plain.mem_keys mem

lemma confines_store {r : Record} (lawful : r.IsLawful) (owner : r.owner? = some n)
    (content : Octets) : (store r.key content).Confines n fun _ => True :=
  fun s b cache plain => ⟨_, _, cache, s.run_store b cache r.key content,
    Bucket.within_put plain (Record.isPlain_key lawful) (Layout.owns_key lawful owner) content,
    fun _ _ => trivial⟩

lemma confines_erase (owns : Layout.Owns n key.components) :
    (erase key).Confines n fun _ => True :=
  fun s b cache plain => ⟨_, _, cache, s.run_erase b cache key, Bucket.within_remove plain owns,
    fun _ _ => trivial⟩

lemma confines_eraseIfHeld (owns : Layout.Owns n key.components) :
    (eraseIfHeld key).Confines n fun _ => True :=
  fun s b cache plain => ⟨_, _, cache, s.run_eraseIfHeld b cache key,
    Bucket.within_remove plain owns, fun _ _ => trivial⟩

lemma confines_eraseBelow (owns : Layout.Owns n base.components) :
    (do
      let keys ← keysBelow base
      keys.forM erase
      return !keys.isEmpty : Action Bool).Confines n fun _ => True :=
  confines_keysBelow.bind fun _ listed =>
    (Confines.forM fun key mem => confines_erase (owns.mono (listed key mem).2)).bind
      fun _ _ => .pure trivial

end Action

lemma Repository.confines_openNamed (settings : Settings) (m : RepositoryName) :
    (openNamed settings m).Confines n fun r => r.settings = settings ∧ r.name = m := by
  unfold openNamed
  split_ifs
  · refine Confines.bind (Q := fun _ => True)
      (.of_run fun _ _ cache _ => ⟨_, cache, run_call _ _, fun _ _ => trivial⟩) fun reply _ => ?_
    split
    · exact .pure ⟨rfl, rfl⟩
    · exact .throw _
  · exact .pure ⟨rfl, rfl⟩

namespace BlobStore

lemma confines_known {α : Type} (d : Digest) (found : Option α) :
    (known d found).Confines n fun _ => True := by
  cases found with
  | none => exact .throw _
  | some a => exact .pure trivial

lemma confines_get (store : BlobStore) (d : Digest) : (store.get d).Confines n fun _ => True :=
  confines_fetch?.bind fun _ _ => confines_known d _

lemma confines_stat (store : BlobStore) (d : Digest) : (store.stat d).Confines n fun _ => True :=
  confines_size?.bind fun _ _ => (confines_known d _).bind fun _ _ => .pure trivial

lemma confines_location (store : BlobStore) (d : Digest) :
    (store.location d).Confines n fun _ => True := by
  refine confines_urlFor.bind fun reply _ => Confines.bind (Q := fun _ => True) ?_ fun _ _ =>
    confines_known d _
  unfold unlessMissing
  split
  · exact .pure trivial
  · split_ifs
    · exact .pure trivial
    · exact .throw _

lemma confines_enumerate (store : BlobStore) : store.enumerate.Confines n fun _ => True :=
  confines_keysBelow.bind fun _ _ => .pure trivial

lemma confines_put (settings : Settings) (mediaType : String) (content : Octets) :
    ((settings.blobStore n).put mediaType content).Confines n fun _ => True := by
  intro s b cache plain
  let store := settings.blobStore n
  have stores : ∃ b', (s.world b cache).run (store.put mediaType content) =
      (.ok { mediaType, size := content.length, digest := .ofContent content }, s.world b' cache) ∧
        b.Within n b' := by
    rw [put, run_bind, contains, s.run_holds]
    cases held : b.content? (store.key (.ofContent content)) with
    | some old => exact ⟨b, rfl, plain.within n⟩
    | none =>
      refine ⟨b.put (store.key (.ofContent content)) content, ?_, ?_⟩
      · simp
      · cases kind : store with
        | shared =>
          rw [kind] at held
          exact Bucket.within_putShared plain n held
        | ofRepository m =>
          have own : m = n := by
            unfold store Settings.blobStore at kind
            split_ifs at kind
            exact (BlobStore.ofRepository.inj kind).symm
          subst own
          exact Bucket.within_put plain (Record.isPlain_key (r := .blob _ _) trivial)
            (Layout.owns_key (r := .blob (.ofRepository m) _) trivial rfl) content
  obtain ⟨b', ran, within⟩ := stores
  exact ⟨_, b', cache, ran, within, fun _ _ => trivial⟩

end BlobStore

end

namespace LinkStore

variable (links : LinkStore)

lemma confines_resolve (d : Digest) :
    (links.resolve d).Confines links.repository fun _ => True := by
  unfold resolve
  induction links.kinds with
  | nil => exact .throw _
  | cons kind kinds ih =>
    rw [resolve.follow]
    refine confines_fetch?.bind fun found _ => ?_
    cases found with
    | none => exact ih
    | some content =>
      exact (Confines.liftExcept fun _ _ => trivial).bind fun e (_ : True) =>
        BlobStore.confines_stat _ e

lemma confines_remember (d : Digest) (descriptor : Descriptor) :
    (links.remember d descriptor).Confines links.repository fun _ => True := by
  unfold remember
  split_ifs
  · exact (Action.confines_remember _ d descriptor).bind fun _ _ => .pure trivial
  · exact .pure trivial

lemma confines_stat (d : Digest) : (links.stat d).Confines links.repository fun _ => True := by
  unfold stat lookUp
  split_ifs
  · exact .throw _
  · refine (confines_lookUp links.repository d).bind fun reply _ => ?_
    split
    · exact .pure trivial
    · exact (links.confines_resolve d).bind fun _ _ =>
        (links.confines_remember d _).bind fun _ _ => .pure trivial
  · exact links.confines_resolve d

lemma confines_contains (d : Digest) :
    (links.contains d).Confines links.repository fun _ => True := by
  refine .tryCatch ((links.confines_stat d).bind fun _ _ => .pure trivial) fun e => ?_
  split_ifs
  · exact .pure trivial
  · exact .throw e

lemma confines_get (d : Digest) : (links.get d).Confines links.repository fun _ => True :=
  (links.confines_stat d).bind fun _ _ => BlobStore.confines_get _ _

lemma confines_location (d : Digest) :
    (links.location d).Confines links.repository fun _ => True := by
  unfold location
  split_ifs
  · exact (links.confines_stat d).bind fun _ _ => BlobStore.confines_location _ _
  · exact .pure trivial

lemma confines_put (mediaType : String) (content : Octets) :
    (links.put mediaType content).Confines links.repository fun _ => True :=
  (BlobStore.confines_put links.settings mediaType content).bind fun descriptor _ =>
    (confines_store (r := .link links.current links.repository descriptor.digest) trivial rfl
      _).bind
      fun _ _ => (links.confines_remember _ _).bind fun _ _ => .pure trivial

lemma confines_forget (d : Digest) : (links.forget d).Confines links.repository fun _ => True := by
  unfold forget
  split_ifs
  · refine (Action.confines_forget links.repository d).bind fun reply _ => ?_
    split
    · exact .pure trivial
    · split_ifs
      · exact .pure trivial
      · exact .throw _
  · exact .pure trivial

lemma confines_unlink (d : Digest) : (links.unlink d).Confines links.repository fun _ => True := by
  have erased (kinds : List LinkKind) :
      (links.eraseLinks d kinds).Confines links.repository fun _ => True := by
    induction kinds with
    | nil => exact .pure trivial
    | cons kind kinds ih =>
      have owns := Layout.owns_key (r := .link kind links.repository d) trivial rfl
      exact (confines_eraseIfHeld owns).bind fun _ _ => ih.bind fun _ _ => .pure trivial
  exact (erased _).bind fun _ _ => (links.confines_forget d).bind fun _ _ => .pure trivial

lemma confines_delete (d : Digest) : (links.delete d).Confines links.repository fun _ => True := by
  unfold delete
  dsimp only
  split_ifs
  · refine (links.confines_stat d).bind fun _ _ => (links.confines_unlink d).bind fun _ _ => ?_
    split_ifs
    · exact .pure trivial
    · exact .throw _
  · exact .throw _

lemma confines_enumerate : links.enumerate.Confines links.repository fun _ => True :=
  confines_keysBelow.bind fun _ _ => .pure trivial

end LinkStore

namespace Tags

variable {n : RepositoryName}

lemma confines_find? (t : String) : (find? n t).Confines n fun _ => True := by
  refine confines_fetch?.bind fun found _ => ?_
  cases found with
  | none => exact .pure trivial
  | some content =>
    exact (Confines.liftExcept fun _ _ => trivial).bind fun _ (_ : True) => .pure trivial

lemma confines_all : (all n).Confines n fun ts => ∀ t ∈ ts, IsName t := by
  refine confines_keysBelow.bind fun keys listed => .pure fun t mem => ?_
  rw [mem_ascending, List.mem_filterMap] at mem
  obtain ⟨key, mem, told⟩ := mem
  unfold Layout.tagName? at told
  split at told
  · next tag folder file below =>
    split_ifs at told
    obtain rfl := Option.some.inj told
    exact Layout.isName_of_namesBelow? (listed key mem).1 below List.mem_cons_self
  · cases told

lemma confines_lookup (d : Digest) : (lookup n d).Confines n fun ts => ∀ t ∈ ts, IsName t := by
  refine confines_all.bind fun tags names => ?_
  induction tags with
  | nil => exact .pure fun _ mem => absurd mem List.not_mem_nil
  | cons t tags ih =>
    refine (confines_find? t).bind fun current _ =>
      (ih fun u mem => names u (List.mem_cons_of_mem t mem)).bind fun others good => .pure ?_
    split_ifs
    · exact List.forall_mem_cons.2 ⟨names t List.mem_cons_self, good⟩
    · exact good

lemma confines_assign (t : String) (d : Digest) : (assign n t d).Confines n fun _ => True := by
  refine Confines.bind (Q := fun _ => TagName.accepts t = true) (.liftExcept fun u checked => ?_)
    fun _ accepted => ?_
  · unfold TagName.check at checked
    split_ifs at checked with accepted
    exact accepted
  · exact (confines_store (r := .tagTarget n t) accepted rfl _).bind fun _ _ =>
      confines_store (r := .tagEntry n t d) accepted rfl _

lemma owns_tag {t : String} (name : IsName t) : Layout.Owns n (Layout.tag n t).components :=
  (Layout.owns_tags n).mono ((Layout.isPlain_tags n).below_step name)

lemma confines_erase {t : String} (name : IsName t) : (erase n t).Confines n fun _ => True :=
  confines_eraseBelow (owns_tag name)

end Tags

namespace Uploads

variable {r : Repository}

lemma confines_readId {n : RepositoryName} (session : String) :
    (liftM (readId session) : Action UploadId).Confines n fun _ => True :=
  .liftExcept fun _ _ => trivial

lemma confines_known {n : RepositoryName} {α : Type} (id : UploadId) (found : Option α) :
    (known id found).Confines n fun _ => True := by
  cases found with
  | none => exact .throw _
  | some a => exact .pure trivial

lemma confines_content (id : UploadId) : (content r id).Confines r.name fun _ => True :=
  confines_fetch?.bind fun _ _ => confines_known id _

lemma confines_start (id : UploadId) (time : String) :
    (start r id time).Confines r.name fun _ => True :=
  (confines_store (r := .uploadContent r.name id) trivial rfl _).bind fun _ _ =>
    (confines_store (r := .uploadStart r.name id) trivial rfl _).bind fun _ _ => .pure trivial

lemma confines_status (session : String) : (status r session).Confines r.name fun _ => True :=
  (confines_readId session).bind fun id _ => confines_size?.bind fun _ _ =>
    (confines_known id _).bind fun _ _ => .pure trivial

lemma confines_append (session : String) (chunk : Octets) :
    (append r session chunk).Confines r.name fun _ => True := by
  unfold append
  dsimp only
  split_ifs
  · exact (confines_readId session).bind fun id _ => (confines_content id).bind fun _ _ =>
      (confines_store (r := .uploadContent r.name id) trivial rfl _).bind fun _ _ => .pure trivial
  · exact .throw _

lemma confines_erase (id : UploadId) : (erase r id).Confines r.name fun _ => True :=
  confines_eraseBelow (Layout.owns_of_leads (by decide) (Layout.leads_upload r.name id))

lemma confines_commit (session : String) (d : Digest) (last : Octets) :
    (commit r session d last).Confines r.name fun _ => True :=
  (confines_readId session).bind fun id _ => (confines_content id).bind fun _ _ =>
    (Confines.liftExcept fun _ _ => trivial).bind fun _ (_ : True) =>
      (r.blobs.confines_put _ _).bind fun _ _ => (confines_erase id).bind fun _ _ => .pure trivial

lemma confines_whole (d : Digest) (content : Octets) :
    (whole r d content).Confines r.name fun _ => True :=
  (Confines.liftExcept fun _ _ => trivial).bind fun _ (_ : True) => r.blobs.confines_put _ _

lemma confines_cancel (session : String) : (cancel r session).Confines r.name fun _ => True := by
  refine (confines_readId session).bind fun id _ => (confines_erase id).bind fun _ _ => ?_
  split_ifs
  · exact .pure trivial
  · exact .throw _

end Uploads

namespace Manifests

variable {r : Repository}

lemma confines_whenBlobUnknown {n : RepositoryName} {α : Type} {Q : α → Prop}
    (other : RegistryError) {a : Action α} (confines : a.Confines n Q) :
    (whenBlobUnknown other a).Confines n Q := by
  refine confines.tryCatch fun e => ?_
  split <;> exact .throw _

lemma confines_contains (d : Digest) : (contains r d).Confines r.name fun _ => True :=
  r.manifests.confines_contains d

lemma confines_get (d : Digest) : (get r d).Confines r.name fun _ => True :=
  (confines_whenBlobUnknown _ (r.manifests.confines_get d)).bind fun _ _ => .orFail

lemma confines_requireBlob (d : Digest) : (requireBlob r d).Confines r.name fun _ => True :=
  (confines_whenBlobUnknown _ (r.blobs.confines_stat d)).bind fun _ _ => .pure trivial

lemma confines_requireManifest (d : Digest) :
    (requireManifest r d).Confines r.name fun _ => True := by
  refine (confines_contains d).bind fun held _ => ?_
  split_ifs
  · exact .pure trivial
  · exact .throw _

lemma confines_checkDockerLayer (layer : Descriptor) :
    (checkDockerLayer r layer).Confines r.name fun _ => True := by
  unfold checkDockerLayer
  split_ifs
  · exact .throw _
  · exact .orFail
  · exact confines_requireBlob _

lemma confines_checkOciLayer (layer : Descriptor) :
    (checkOciLayer r layer).Confines r.name fun _ => True := by
  unfold checkOciLayer
  split_ifs
  · exact .orFail
  · exact confines_requireBlob _

lemma confines_prepareLegacy (time : String) (m : LegacyManifest) :
    (prepareLegacy r time m).Confines r.name fun _ => True := by
  unfold prepareLegacy
  dsimp only
  split
  · split
    · exact .throw _
    · split
      · exact .throw _
      · refine (Confines.forM fun _ _ => confines_requireBlob _).bind fun _ _ => ?_
        split_ifs
        · exact Confines.orFail.bind fun _ _ => .pure trivial
        · split
          · exact .orFail
          · exact .throw _
  · exact .throw _

lemma confines_prepare (time : String) (m : Manifest) :
    (prepare r time m).Confines r.name fun _ => True := by
  cases m with
  | legacy m => exact (confines_prepareLegacy time m).map _
  | docker m =>
    exact (confines_requireBlob _).bind fun _ _ =>
      (Confines.forM fun _ _ => confines_checkDockerLayer _).bind fun _ _ => .pure trivial
  | oci m =>
    exact (confines_requireBlob _).bind fun _ _ =>
      (Confines.forM fun _ _ => confines_checkOciLayer _).bind fun _ _ => .pure trivial
  | index m =>
    exact (Confines.forM fun _ _ => confines_requireManifest _).bind fun _ _ => .pure trivial

lemma confines_put (time : String) (m : Manifest) (tag : Option String) :
    (put r time m tag).Confines r.name fun _ => True := by
  refine (confines_prepare time m).bind fun _ _ =>
    (r.manifests.confines_put _ _).bind fun descriptor _ => ?_
  split
  · exact (Tags.confines_assign _ _).bind fun _ _ => .pure trivial
  · exact .pure trivial

lemma confines_delete (d : Digest) : (delete r d).Confines r.name fun _ => True := by
  unfold delete
  dsimp only
  split_ifs
  · refine (confines_contains d).bind fun _ _ => ?_
    split_ifs
    · exact (Tags.confines_lookup d).bind fun tags names =>
        (Confines.forM fun t mem => (Tags.confines_erase (names t mem)).bind
          fun _ _ => .pure trivial).bind fun _ _ =>
            confines_whenBlobUnknown _ (r.manifests.confines_delete d)
    · exact .throw _
  · exact .throw _

end Manifests

namespace Marking

variable {options : CollectionOptions} {r : Repository}

lemma confines_load (p : Pending) : (load r p).Confines r.name fun _ => True := by
  refine ((Manifests.confines_get p.digest).map some).tryCatch fun e => ?_
  cases e
  case manifestUnknown name d =>
    dsimp only
    split_ifs
    · exact .pure trivial
    · exact .throw _
  all_goals exact .throw _

lemma confines_trace (marks : MarkSet) (pending : List Pending) :
    (trace r marks pending).Confines r.name fun _ => True := by
  induction marks, pending using trace.induct r with
  | case1 marks =>
    rw [trace]
    exact .pure trivial
  | case2 marks p rest marked ih =>
    rw [trace, dif_pos marked]
    exact ih
  | case3 marks p rest unmarked ihNone ihSome =>
    rw [trace, dif_neg unmarked]
    refine (confines_load p).bind fun found _ => ?_
    cases found with
    | none => exact ihNone
    | some m => exact ihSome m

/-- What is removed with a manifest are tags of its repository that are names. -/
def Names (n : RepositoryName) (deletions : List ManifestDeletion) : Prop :=
  ∀ deletion ∈ deletions, deletion.repository = n ∧ ∀ t ∈ deletion.tags, IsName t

lemma confines_sort {n : RepositoryName} (listed : List Digest) (pending : List Pending) :
    (sort options n listed pending).Confines n fun x => Names n x.2 := by
  induction listed generalizing pending with
  | nil => exact .pure fun _ mem => absurd mem List.not_mem_nil
  | cons d listed ih =>
    rw [sort]
    split_ifs
    · refine ((Tags.confines_lookup d).whileListing _).bind fun tags _ => ?_
      split_ifs
      · exact (Tags.confines_all.whileListing _).bind fun tags names =>
          (ih pending).bind fun found own => .pure (List.forall_mem_cons.2 ⟨⟨rfl, names⟩, own⟩)
      · exact ih _
    · exact ih _

lemma confines_addTagged {n : RepositoryName} (listed : List Digest) (tags : List String)
    (pending : List Pending) : (addTagged n listed tags pending).Confines n fun _ => True := by
  induction tags generalizing pending with
  | nil => exact .pure trivial
  | cons t tags ih =>
    refine ((Tags.confines_find? t).whileListing _).bind fun found _ => ?_
    cases found with
    | none => exact ih pending
    | some d =>
      dsimp only
      split_ifs
      · exact ih pending
      · exact ih _

lemma confines_markRepository (found : Marking) (names : Names r.name found.deletions) :
    (markRepository options r found).Confines r.name fun x => Names r.name x.deletions := by
  refine (r.manifests.confines_enumerate.whileListing _).bind fun listed _ =>
    (confines_sort listed []).bind fun sorted own =>
      (Tags.confines_all.whileListing _).bind fun tags _ =>
        (confines_addTagged listed tags _).bind fun pending _ =>
          (confines_trace _ pending).bind fun marks _ => .pure fun deletion mem => ?_
  rcases List.mem_append.1 mem with mem | mem
  · exact names deletion mem
  · exact own deletion (List.mem_of_mem_filter mem)

end Marking

namespace Collector

variable {options : CollectionOptions} {n : RepositoryName}

lemma confines_erase {record : Record} (owns : Layout.Owns n record.key.components) :
    (Removal.erase record).Confines n fun _ => True :=
  (confines_eraseIfHeld owns).bind fun _ _ => .pure trivial

lemma confines_removeManifest (d : Digest) {tags : List String} (names : ∀ t ∈ tags, IsName t) :
    (Removal.manifest n d tags).Confines n fun _ => True := by
  have owns {t : String} (mem : t ∈ tags) :
      Layout.Owns n (Record.tagEntry n t d).key.components := by
    have plain := Layout.isPlain_tag n (names t mem)
    have isIndex : IsName "index" := by decide
    exact (Tags.owns_tag (names t mem)).mono
      ((plain.below_step isIndex).trans (Layout.below_linkTo (plain.step isIndex) d))
  exact (Confines.forM fun t mem => confines_erase (owns mem)).bind fun _ _ =>
    (confines_erase (Layout.owns_key (r := .link .revision n d) trivial rfl)).bind fun _ _ =>
      confines_erase (Layout.owns_key (r := .link .layer n d) trivial rfl)

lemma confines_removeBlob (settings : Settings) (d : Digest) :
    (Removal.repositoryBlob settings n d).Confines n fun _ => True := by
  have link : (Removal.erase (.link .layer n d)).Confines n fun _ => True :=
    confines_erase (Layout.owns_key (r := .link .layer n d) trivial rfl)
  unfold Removal.repositoryBlob
  split_ifs
  · exact (confines_erase (Layout.owns_key (r := .blob (.ofRepository n) d) trivial rfl)).bind
      fun _ _ => link
  · exact link

lemma confines_unlessDry {a : Action Unit} (confines : a.Confines n fun _ => True) :
    (unlessDry options a).Confines n fun _ => True := by
  unfold unlessDry
  split_ifs
  · exact .pure trivial
  · exact confines

lemma confines_sweepRepository (marks : MarkSet) (r : Repository) :
    (sweepRepository options marks r).Confines r.name fun _ => True := by
  have listed : (candidates r).Confines r.name fun _ => True := by
    refine .whileListing _ ?_
    split_ifs
    · exact BlobStore.confines_enumerate _
    · exact r.blobs.confines_enumerate
  exact listed.bind fun _ _ => (Confines.forM fun d _ =>
    confines_unlessDry (confines_removeBlob r.settings d)).bind fun _ _ => .pure trivial

theorem confines_runRepository (settings : Settings) :
    (runRepository options settings n).Confines n fun _ => True := by
  refine (Repository.confines_openNamed settings n).bind fun r opened => ?_
  obtain ⟨-, rfl⟩ := opened
  refine (Marking.confines_markRepository {} fun _ mem => absurd mem List.not_mem_nil).bind
    fun found names => ?_
  refine (Confines.forM fun deletion mem => ?_).bind fun _ _ =>
    (confines_sweepRepository found.marks r).bind fun _ _ => .pure trivial
  obtain ⟨named, tags⟩ := names deletion mem
  exact confines_unlessDry (named ▸ confines_removeManifest deletion.digest tags)

end Collector
end ImageRegistry
