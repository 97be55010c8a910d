import ImageRegistry.Proofs.Collection.Loading

/-! What a repository is told by a registry. Two registries may differ in everything that does not
matter to a repository; what is done in the repository then comes to the same in both, and other
repositories do not see that it was done. -/

namespace ImageRegistry

open World

/-- Whether a record matters to a repository: it belongs to it, or is content of its blob store. -/
def Record.MattersTo (settings : Settings) (n : RepositoryName) (r : Record) : Prop :=
  r.owner? = some n ∨ ∃ d, r = .blob (settings.blobStore n) d

/-- Registries that look alike to a repository. -/
structure Holdings.Alike (settings : Settings) (n : RepositoryName) (h h' : Holdings) : Prop where
  sound : h.IsSound
  sound' : h'.IsSound
  records : ∀ r : Record, r.IsLawful → r.MattersTo settings n → h.bucket.at? r = h'.bucket.at? r
  kept : ∀ d, h.cache.lookUp (some n) d = h'.cache.lookUp (some n) d

section

variable {settings : Settings} {n m : RepositoryName} {h h' h'' : Holdings}

namespace Holdings

lemma IsSound.alike (sound : h.IsSound) (settings : Settings) (n : RepositoryName) :
    h.Alike settings n h := ⟨sound, sound, fun _ _ _ => rfl, fun _ => rfl⟩

namespace Alike

lemma symm (alike : h.Alike settings n h') : h'.Alike settings n h :=
  ⟨alike.sound', alike.sound, fun r lawful matters => (alike.records r lawful matters).symm,
    fun d => (alike.kept d).symm⟩

lemma trans (first : h.Alike settings n h') (second : h'.Alike settings n h'') :
    h.Alike settings n h'' :=
  ⟨first.sound, second.sound',
    fun r lawful matters =>
      (first.records r lawful matters).trans (second.records r lawful matters),
    fun d => (first.kept d).trans (second.kept d)⟩

lemma has_iff (alike : h.Alike settings n h') {r : Record} (lawful : r.IsLawful)
    (matters : r.MattersTo settings n) : h.bucket.Has r ↔ h'.bucket.Has r := by
  rw [Bucket.Has, Bucket.Has, alike.records r lawful matters]

lemma at?_blob (alike : h.Alike settings n h') (d : Digest) :
    h.bucket.at? (.blob (settings.blobStore n) d) =
      h'.bucket.at? (.blob (settings.blobStore n) d) :=
  alike.records _ trivial (.inr ⟨d, rfl⟩)

lemma has_link (alike : h.Alike settings n h') (kind : LinkKind) (d : Digest) :
    h.bucket.Has (.link kind n d) ↔ h'.bucket.Has (.link kind n d) :=
  alike.has_iff (r := .link kind n d) trivial (.inl rfl)

lemma target?_eq (alike : h.Alike settings n h') {t : String}
    (accepted : TagName.accepts t = true) : h.bucket.target? n t = h'.bucket.target? n t := by
  rw [Bucket.target?, Bucket.target?,
    alike.records (.tagTarget n t) accepted (.inl rfl)]

lemma tags_eq (alike : h.Alike settings n h') : h.bucket.tags n = h'.bucket.tags n :=
  alike.sound.isLedger.tags_congr alike.sound'.isLedger fun t accepted =>
    alike.has_iff (r := .tagTarget n t) accepted (.inl rfl)

lemma linkedDigests_eq (alike : h.Alike settings n h') (kind : LinkKind) :
    h.bucket.linkedDigests n kind = h'.bucket.linkedDigests n kind :=
  alike.sound.isLedger.linkedDigests_congr alike.sound'.isLedger (alike.has_link kind)

lemma descriptor?_eq {links : LinkStore} (same : links.settings = settings)
    (alike : h.Alike settings links.repository h') (d : Digest) :
    h.bucket.descriptor? links d = h'.bucket.descriptor? links d := by
  have stored : h.bucket.at? (.blob links.blobs d) = h'.bucket.at? (.blob links.blobs d) := by
    rw [LinkStore.blobs, same]
    exact alike.at?_blob d
  rw [Bucket.descriptor?, Bucket.descriptor?, stored]
  simp only [alike.has_link]

lemma told?_eq {links : LinkStore} (same : links.settings = settings)
    (alike : h.Alike settings links.repository h') (d : Digest) :
    links.told? h.bucket h.cache d = links.told? h'.bucket h'.cache d := by
  rw [LinkStore.told?, LinkStore.told?, alike.kept d, alike.descriptor?_eq same]

lemma of_drops {b b' : Bucket} {cache : DescriptorCache} (sound : IsSound ⟨b, cache⟩)
    {C : Record → Prop} (drops : b.Drops b' C)
    (spared : ∀ r : Record, r.MattersTo settings n → ¬C r) :
    Alike settings n ⟨b, cache⟩ ⟨b', cache⟩ :=
  ⟨sound, ⟨drops.1, sound.isFaithful⟩,
    fun r lawful matters => ((drops.2 r lawful).2 (spared r matters)).symm, fun _ => rfl⟩

end Alike
end Holdings

namespace DescriptorCache

variable {cache cache' : DescriptorCache} {d : Digest} {descriptor : Descriptor}

lemma lookUp_remember_of_ne (other : m ≠ n) (e : Digest) :
    (cache.remember (some n) d descriptor).2.lookUp (some m) e = cache.lookUp (some m) e := by
  cases cache with
  | table entries =>
    have different : ¬(n = m ∧ d = e) := fun same => other same.1.symm
    simp only [remember, lookUp, Std.ExtTreeMap.getElem?_insert, CacheKey.order_eq_iff,
      Prod.mk.injEq, Option.some.injEq, if_neg different]
  | failing | «sealed» => rfl

lemma lookUp_remember_congr (same : ∀ e, cache.lookUp (some n) e = cache'.lookUp (some n) e)
    (e : Digest) : (cache.remember (some n) d descriptor).2.lookUp (some n) e =
      (cache'.remember (some n) d descriptor).2.lookUp (some n) e := by
  have working (entries : Std.ExtTreeMap CacheKey Descriptor CacheKey.order) :
      (table entries).lookUp (some n) d ≠ .error down := by
    simp only [lookUp]
    split <;> simp [down]
  cases cache with
  | table entries =>
    cases cache' with
    | table entries' =>
      have found := same e
      simp only [remember, lookUp, Std.ExtTreeMap.getElem?_insert, CacheKey.order_eq_iff,
        Prod.mk.injEq, true_and] at found ⊢
      split_ifs
      · rfl
      · exact found
    | failing | «sealed» => exact absurd (same d) (working entries)
  | failing | «sealed» =>
    cases cache' with
    | table entries => exact absurd (same d).symm (working entries)
    | failing | «sealed» => exact same e

end DescriptorCache

namespace LinkStore

variable {links : LinkStore}

lemma lookUp_noted_of_ne (other : m ≠ links.repository) {cache : DescriptorCache}
    (d : Digest) (descriptor : Descriptor) (e : Digest) :
    (links.noted cache d descriptor).lookUp (some m) e = cache.lookUp (some m) e := by
  unfold noted
  split_ifs
  · exact DescriptorCache.lookUp_remember_of_ne other e
  · rfl

lemma alike_asked_of_ne (other : m ≠ links.repository) (sound : h.IsSound) (d : Digest) :
    h.Alike settings m ⟨h.bucket, links.asked h.bucket h.cache d⟩ := by
  refine ⟨sound, ⟨sound.isLedger, links.isFaithful_asked sound.isFaithful d⟩, fun _ _ _ => rfl,
    fun e => ?_⟩
  rcases links.asked_cases h.bucket h.cache d with same | ⟨descriptor, -, same⟩
  · rw [same]
  · rw [same, lookUp_noted_of_ne other]

lemma alike_asked (same : links.settings = settings)
    (alike : h.Alike settings links.repository h') (d : Digest) :
    Holdings.Alike settings links.repository ⟨h.bucket, links.asked h.bucket h.cache d⟩
      ⟨h'.bucket, links.asked h'.bucket h'.cache d⟩ := by
  refine ⟨⟨alike.sound.isLedger, links.isFaithful_asked alike.sound.isFaithful d⟩,
    ⟨alike.sound'.isLedger, links.isFaithful_asked alike.sound'.isFaithful d⟩,
    alike.records, fun e => ?_⟩
  unfold asked
  rw [alike.kept d, alike.descriptor?_eq same]
  split_ifs
  · exact alike.kept e
  split
  · exact alike.kept e
  · cases h'.bucket.descriptor? links d with
    | none => exact alike.kept e
    | some descriptor =>
      simp only [Option.elim_some, noted]
      split_ifs
      · exact DescriptorCache.lookUp_remember_congr alike.kept e
      · exact alike.kept e

end LinkStore

end

/-- Outcomes that are the same failure, or results that are related. -/
inductive SameOutcome {α β : Type} (R : α → β → Prop) :
    Except RegistryError α → Except RegistryError β → Prop
  | ok {x : α} {y : β} (related : R x y) : SameOutcome R (.ok x) (.ok y)
  | error (e : RegistryError) : SameOutcome R (.error e) (.error e)

/-- In registries that look alike to a repository the actions come to related results, and the
registries look alike afterwards. To other repositories nothing has happened. -/
def Action.Agrees {α β : Type} (settings : Settings) (n : RepositoryName) (R : α → β → Prop)
    (a : Action α) (a' : Action β) : Prop :=
  ∀ (s : Site) (h h' : Holdings), h.Alike settings n h' → ∃ x x' h₁ h₁',
    (s.world h.bucket h.cache).run a = (x, s.world h₁.bucket h₁.cache) ∧
    (s.world h'.bucket h'.cache).run a' = (x', s.world h₁'.bucket h₁'.cache) ∧
    SameOutcome R x x' ∧ h₁.Alike settings n h₁' ∧
    ∀ m ≠ n, h.Alike settings m h₁ ∧ h'.Alike settings m h₁'

namespace Action.Agrees

variable {settings : Settings} {n : RepositoryName} {α β α' β' : Type} {R : α → β → Prop}
  {S : α' → β' → Prop}

lemma of_run {a : Action α} {a' : Action β}
    (reads : ∀ (s : Site) (h h' : Holdings), h.Alike settings n h' → ∃ x x',
      (s.world h.bucket h.cache).run a = (x, s.world h.bucket h.cache) ∧
      (s.world h'.bucket h'.cache).run a' = (x', s.world h'.bucket h'.cache) ∧
      SameOutcome R x x') : a.Agrees settings n R a' := by
  intro s h h' alike
  obtain ⟨x, x', ran, ran', outcome⟩ := reads s h h' alike
  exact ⟨x, x', h, h', ran, ran', outcome, alike, fun m _ =>
    ⟨alike.sound.alike settings m, alike.sound'.alike settings m⟩⟩

lemma pure {x : α} {y : β} (related : R x y) :
    (Pure.pure x : Action α).Agrees settings n R (Pure.pure y) :=
  of_run fun _ _ _ _ => ⟨_, _, run_pure _ x, run_pure _ y, .ok related⟩

lemma throw (e : RegistryError) :
    (throw e : Action α).Agrees settings n R (throw e : Action β) :=
  of_run fun _ _ _ _ => ⟨_, _, run_throw _ e, run_throw _ e, .error e⟩

lemma bind {a : Action α} {a' : Action β} {f : α → Action α'} {f' : β → Action β'}
    (first : a.Agrees settings n R a')
    (second : ∀ x y, R x y → (f x).Agrees settings n S (f' y)) :
    (a >>= f).Agrees settings n S (a' >>= f') := by
  intro s h h' alike
  obtain ⟨x, x', h₁, h₁', ran, ran', outcome, alike₁, unseen⟩ := first s h h' alike
  rw [run_bind, run_bind, ran, ran']
  cases outcome with
  | error e => exact ⟨_, _, h₁, h₁', rfl, rfl, .error e, alike₁, unseen⟩
  | @ok x y related =>
    obtain ⟨z, z', h₂, h₂', ran₂, ran₂', outcome₂, alike₂, unseen₂⟩ :=
      second x y related s h₁ h₁' alike₁
    exact ⟨z, z', h₂, h₂', ran₂, ran₂', outcome₂, alike₂, fun m other =>
      ⟨(unseen m other).1.trans (unseen₂ m other).1, (unseen m other).2.trans (unseen₂ m other).2⟩⟩

lemma tryCatch {a : Action α} {a' : Action β} {handle : RegistryError → Action α}
    {handle' : RegistryError → Action β} (first : a.Agrees settings n R a')
    (second : ∀ e, (handle e).Agrees settings n R (handle' e)) :
    (tryCatch a handle).Agrees settings n R (tryCatch a' handle') := by
  intro s h h' alike
  obtain ⟨x, x', h₁, h₁', ran, ran', outcome, alike₁, unseen⟩ := first s h h' alike
  rw [run_tryCatch, run_tryCatch, ran, ran']
  cases outcome with
  | ok related => exact ⟨_, _, h₁, h₁', rfl, rfl, .ok related, alike₁, unseen⟩
  | error e =>
    obtain ⟨z, z', h₂, h₂', ran₂, ran₂', outcome₂, alike₂, unseen₂⟩ := second e s h₁ h₁' alike₁
    exact ⟨z, z', h₂, h₂', ran₂, ran₂', outcome₂, alike₂, fun m other =>
      ⟨(unseen m other).1.trans (unseen₂ m other).1, (unseen m other).2.trans (unseen₂ m other).2⟩⟩

lemma weaken {a : Action α} {a' : Action β} {R' : α → β → Prop} (agrees : a.Agrees settings n R a')
    (weaker : ∀ x y, R x y → R' x y) : a.Agrees settings n R' a' := by
  intro s h h' alike
  obtain ⟨x, x', h₁, h₁', ran, ran', outcome, rest⟩ := agrees s h h' alike
  refine ⟨x, x', h₁, h₁', ran, ran', ?_, rest⟩
  cases outcome with
  | ok related => exact .ok (weaker _ _ related)
  | error e => exact .error e

lemma whileListing (what : String) {a : Action α} {a' : Action β}
    (agrees : a.Agrees settings n R a') :
    (Action.whileListing what a).Agrees settings n R (Action.whileListing what a') :=
  agrees.tryCatch fun _ => .throw _

lemma liftExcept {R : α → α → Prop} {x : Except RegistryError α}
    (related : ∀ y, x = .ok y → R y y) :
    (liftM x : Action α).Agrees settings n R (liftM x : Action α) := by
  cases x with
  | ok y => exact .pure (related y rfl)
  | error e => exact .throw e

lemma orFail {R : α → α → Prop} {ε : Type} {error : ε → RegistryError} {x : Except ε α}
    (related : ∀ y, x = .ok y → R y y) :
    (Action.orFail error x).Agrees settings n R (Action.orFail error x) := by
  cases x with
  | ok y => exact .pure (related y rfl)
  | error e => exact .throw (error e)

end Action.Agrees

/-- An action comes to the same wherever registries look alike to a repository, and is not seen by
others. -/
abbrev Action.IsLocal {α : Type} (settings : Settings) (n : RepositoryName) (a : Action α) : Prop :=
  a.Agrees settings n Eq a

namespace Action.IsLocal

variable {settings : Settings} {n : RepositoryName} {α β : Type}

lemma pure (x : α) : (Pure.pure x : Action α).IsLocal settings n := Agrees.pure rfl

lemma bind {a : Action α} {f : α → Action β} (first : a.IsLocal settings n)
    (second : ∀ x, (f x).IsLocal settings n) : (a >>= f).IsLocal settings n :=
  Agrees.bind first fun x _ same => same ▸ second x

lemma map {a : Action α} (f : α → β) (isLocal : a.IsLocal settings n) :
    (f <$> a).IsLocal settings n := by
  rw [map_eq_pure_bind]
  exact isLocal.bind fun x => .pure (f x)

lemma forM {xs : List α} {f : α → Action PUnit} (each : ∀ x ∈ xs, (f x).IsLocal settings n) :
    (xs.forM f).IsLocal settings n := by
  induction xs with
  | nil => exact .pure _
  | cons x xs ih =>
    change (f x >>= fun _ => xs.forM f).IsLocal settings n
    exact (each x List.mem_cons_self).bind fun _ =>
      ih fun y mem => each y (List.mem_cons_of_mem x mem)

end Action.IsLocal

variable {settings : Settings} {n : RepositoryName}

lemma LinkStore.agrees_enumerate (links : LinkStore) :
    links.enumerate.Agrees settings links.repository Eq links.enumerate :=
  .of_run fun s h h' alike => ⟨_, _, s.run_enumerate h.cache links, s.run_enumerate h'.cache links,
    .ok (alike.linkedDigests_eq links.current)⟩

lemma Tags.agrees_all : (Tags.all n).Agrees settings n
    (fun ts ts' => ts' = ts ∧ ∀ t ∈ ts, TagName.accepts t = true) (Tags.all n) :=
  .of_run fun s h h' alike => ⟨_, _, s.run_tags h.cache n, s.run_tags h'.cache n,
    .ok ⟨alike.tags_eq.symm, fun _ mem => (alike.sound.isLedger.mem_tags.1 mem).1⟩⟩

lemma Tags.agrees_find? {t : String} (accepted : TagName.accepts t = true) :
    (Tags.find? n t).Agrees settings n Eq (Tags.find? n t) :=
  .of_run fun s h h' alike =>
    ⟨_, _, s.run_find? h.cache alike.sound.isLedger n accepted,
      s.run_find? h'.cache alike.sound'.isLedger n accepted, .ok (alike.target?_eq accepted)⟩

lemma Tags.agrees_lookup (d : Digest) : (Tags.lookup n d).Agrees settings n
    (fun ts ts' => ts' = ts ∧ ∀ t ∈ ts, TagName.accepts t = true) (Tags.lookup n d) := by
  refine .of_run fun s h h' alike =>
    ⟨_, _, s.run_lookupTags h.cache alike.sound.isLedger n d,
      s.run_lookupTags h'.cache alike.sound'.isLedger n d, .ok ⟨?_, fun t mem => ?_⟩⟩
  · rw [← alike.tags_eq]
    refine List.filter_congr fun t mem => ?_
    rw [alike.target?_eq (alike.sound.isLedger.mem_tags.1 mem).1]
  · exact (alike.sound.isLedger.mem_tags.1 (List.mem_filter.1 mem).1).1

lemma Manifests.agrees_get (d : Digest) :
    (get ⟨settings, n⟩ d).Agrees settings n Eq (get ⟨settings, n⟩ d) := by
  intro s h h' alike
  let links : LinkStore := Repository.manifests ⟨settings, n⟩
  have told : links.told? h.bucket h.cache d = links.told? h'.bucket h'.cache d :=
    alike.told?_eq rfl d
  have stored : h.bucket.at? (.blob (Repository.blobStore ⟨settings, n⟩) d) =
      h'.bucket.at? (.blob (Repository.blobStore ⟨settings, n⟩) d) := alike.at?_blob d
  refine ⟨_, _, ⟨h.bucket, _⟩, ⟨h'.bucket, _⟩,
    run_get_told alike.sound.isLedger fun _ => links.digest_of_told? alike.sound.isFaithful,
    run_get_told alike.sound'.isLedger fun _ => links.digest_of_told? alike.sound'.isFaithful,
    ?_, links.alike_asked rfl alike d, fun m other =>
      ⟨links.alike_asked_of_ne other alike.sound d, links.alike_asked_of_ne other alike.sound' d⟩⟩
  rw [stored, show (Repository.manifests ⟨settings, n⟩).told? h.bucket h.cache d = _ from told]
  generalize Option.elim _ _ _ = outcome
  cases outcome with
  | ok m => exact .ok rfl
  | error e => exact .error e

end ImageRegistry
