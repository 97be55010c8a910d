import Mathlib.Logic.Relation
import ImageRegistry.Proofs.Registry.Queries

/-! What the operations of a registry change, collecting garbage apart. Each is a sequence of a
few kinds of changes, and every invariant of a registry is one that these changes keep. -/

namespace ImageRegistry

open World

lemma CacheKey.order_eq_iff {a b : CacheKey} : CacheKey.order a b = .eq ↔ a = b := by
  obtain ⟨n, d⟩ := a
  obtain ⟨m, e⟩ := b
  simp [CacheKey.order, compareLex_eq_eq, compareOn]

namespace DescriptorCache

/-- The cache works, and every descriptor is kept for its own digest. -/
structure IsFaithful (cache : DescriptorCache) : Prop where
  opens : ∀ n, cache.openFor n = .ok ()
  named : ∀ n d descriptor, cache.lookUp (some n) d = .ok descriptor → descriptor.digest = d

lemma IsFaithful.run_openNamed {cache : DescriptorCache} (faithful : cache.IsFaithful) (s : Site)
    (b : Bucket) (settings : Settings) (n : RepositoryName) :
    (s.world b cache).run (Repository.openNamed settings n) =
      (.ok ⟨settings, n⟩, s.world b cache) := by
  rw [Site.run_openNamed, faithful.opens n, ite_self]
  rfl

lemma isFaithful_empty : empty.IsFaithful where
  opens _ := rfl
  named n d descriptor h := by simp [empty, lookUp] at h

/-- The cache is kept in memory. -/
def IsTable (cache : DescriptorCache) : Prop := ∃ entries, cache = table entries

lemma IsTable.remember {cache : DescriptorCache} (h : cache.IsTable) (n : RepositoryName)
    (d : Digest) (descriptor : Descriptor) : (cache.remember (some n) d descriptor).2.IsTable := by
  obtain ⟨entries, rfl⟩ := h
  exact ⟨_, rfl⟩

lemma IsTable.forget {cache : DescriptorCache} (h : cache.IsTable) (n : RepositoryName)
    (d : Digest) : (cache.forget (some n) d).2.IsTable := by
  obtain ⟨entries, rfl⟩ := h
  rw [DescriptorCache.forget]
  split_ifs <;> exact ⟨_, rfl⟩

lemma IsTable.lookUp_remember {cache : DescriptorCache} (h : cache.IsTable) (n : RepositoryName)
    (d : Digest) (descriptor : Descriptor) :
    (cache.remember (some n) d descriptor).2.lookUp (some n) d = .ok descriptor := by
  obtain ⟨entries, rfl⟩ := h
  simp [DescriptorCache.remember, lookUp]

lemma openFor_remember (cache : DescriptorCache) (n m : RepositoryName) (d : Digest)
    (descriptor : Descriptor) :
    (cache.remember (some n) d descriptor).2.openFor m = cache.openFor m := by
  cases cache <;> rfl

lemma openFor_forget (cache : DescriptorCache) (n m : RepositoryName) (d : Digest) :
    (cache.forget (some n) d).2.openFor m = cache.openFor m := by
  cases cache with
  | table entries =>
    simp only [forget]
    split_ifs <;> rfl
  | failing | «sealed» => rfl

lemma lookUp_remember {cache : DescriptorCache} {n m : RepositoryName} {d e : Digest}
    {descriptor found : Descriptor}
    (h : (cache.remember (some n) d descriptor).2.lookUp (some m) e = .ok found) :
    (n = m ∧ d = e ∧ descriptor = found) ∨ cache.lookUp (some m) e = .ok found := by
  cases cache with
  | table entries =>
    simp only [remember, lookUp, Std.ExtTreeMap.getElem?_insert, CacheKey.order_eq_iff,
      Prod.mk.injEq, Option.some.injEq] at h ⊢
    split_ifs at h with same
    · exact .inl ⟨same.1, same.2, Except.ok.inj h⟩
    · exact .inr h
  | failing | «sealed» => exact .inr h

lemma exists_lookUp_remember {cache : DescriptorCache} {n m : RepositoryName} {d e : Digest}
    {descriptor found : Descriptor} (h : cache.lookUp (some m) e = .ok found) :
    ∃ later, (cache.remember (some n) d descriptor).2.lookUp (some m) e = .ok later := by
  cases cache with
  | table entries =>
    simp only [remember, lookUp, Std.ExtTreeMap.getElem?_insert] at h ⊢
    split_ifs
    · exact ⟨descriptor, rfl⟩
    · exact ⟨found, h⟩
  | failing | «sealed» => exact ⟨found, h⟩

lemma lookUp_forget {cache : DescriptorCache} {n m : RepositoryName} {d e : Digest}
    {found : Descriptor} (h : (cache.forget (some n) d).2.lookUp (some m) e = .ok found) :
    ¬(n = m ∧ d = e) ∧ cache.lookUp (some m) e = .ok found := by
  cases cache with
  | table entries =>
    simp only [forget] at h
    split_ifs at h with kept
    · simp only [lookUp, Std.ExtTreeMap.getElem?_erase, CacheKey.order_eq_iff, Prod.mk.injEq,
        Option.some.injEq] at h ⊢
      split_ifs at h with same
      exact ⟨same, h⟩
    · refine ⟨?_, h⟩
      rintro ⟨rfl, rfl⟩
      simp only [lookUp] at h
      rw [Bool.not_eq_true, Std.ExtTreeMap.contains_eq_isSome_getElem?, Option.isSome_eq_false_iff,
        Option.isNone_iff_eq_none] at kept
      rw [kept] at h
      cases h
  | failing | «sealed» => cases h

end DescriptorCache

namespace LinkStore

variable (links : LinkStore)

def noted (cache : DescriptorCache) (d : Digest) (descriptor : Descriptor) : DescriptorCache :=
  if links.settings.cached then (cache.remember (some links.repository) d descriptor).2 else cache

def dropped (cache : DescriptorCache) (d : Digest) : DescriptorCache :=
  if links.settings.cached then (cache.forget (some links.repository) d).2 else cache

def pushed (b : Bucket) (content : Octets) : Bucket :=
  let d := Digest.ofContent content
  (if b.Has (.blob links.blobs d) then b else b.put (links.blobs.key d) content).put
    (links.key links.current d) (Octets.ofText d.text)

def unlinked (b : Bucket) (d : Digest) : Bucket :=
  links.kinds.foldl (fun b kind => b.remove (links.key kind d)) b

end LinkStore

namespace Bucket

/-- The bucket after a tag was made to stand for a digest, which it then remembers. -/
def assigned (b : Bucket) (n : RepositoryName) (t : String) (d : Digest) : Bucket :=
  (b.put (Record.tagTarget n t).key (Octets.ofText d.text)).put
    (Record.tagEntry n t d).key (Octets.ofText d.text)

variable {b : Bucket} {r : Record}

lemma at?_assigned {n : RepositoryName} {t : String} (accepted : TagName.accepts t = true)
    (lawful : r.IsLawful) (d : Digest) :
    (b.assigned n t d).at? r =
      if r = .tagTarget n t ∨ r = .tagEntry n t d then some (Octets.ofText d.text)
      else b.at? r := by
  rw [assigned, at?_put (r := .tagEntry n t d) accepted lawful,
    at?_put (r := .tagTarget n t) accepted lawful, ← ite_or]
  exact if_congr (by rw [or_comm, eq_comm, eq_comm (b := r)]) rfl rfl

lemma has_assigned_iff {n : RepositoryName} {t : String} (accepted : TagName.accepts t = true)
    (lawful : r.IsLawful) (d : Digest) : (b.assigned n t d).Has r ↔
      r = .tagTarget n t ∨ r = .tagEntry n t d ∨ b.Has r := by
  rw [Has, at?_assigned accepted lawful, ← or_assoc]
  split_ifs with isTag <;> simp [isTag, Has]

lemma Has.assigned (has : b.Has r) (n : RepositoryName) (t : String) (d : Digest) :
    (b.assigned n t d).Has r := (has.put _ _).put _ _

lemma IsLedger.assigned (h : b.IsLedger) (n : RepositoryName) {t : String}
    (accepted : TagName.accepts t = true) (d : Digest) : (b.assigned n t d).IsLedger :=
  (h.put (r := .tagTarget n t) accepted ⟨d, rfl⟩).put (r := .tagEntry n t d) accepted rfl

lemma isTagged_assigned_iff (h : b.IsLedger) {m : RepositoryName} {t : String}
    (accepted : TagName.accepts t = true)
    (only : ∀ n u, TagName.accepts u = true → b.Has (.tagTarget n u) → n = m ∧ u = t)
    {n : RepositoryName} {d e : Digest} : (b.assigned m t e).IsTagged n d ↔ n = m ∧ d = e := by
  have target {u : String} (accepted' : TagName.accepts u = true) :
      (b.assigned m t e).at? (.tagTarget n u) =
        if n = m ∧ u = t then some (Octets.ofText e.text) else none := by
    rw [at?_assigned (r := .tagTarget n u) accepted accepted']
    by_cases isTag : n = m ∧ u = t
    · rw [if_pos isTag, if_pos (.inl (by rw [isTag.1, isTag.2]))]
    · have missing : ¬b.Has (.tagTarget n u) := fun has => isTag (only n u accepted' has)
      rw [if_neg isTag, if_neg (by simpa using isTag)]
      simpa [Has] using missing
  simp only [IsTagged]
  constructor
  · rintro ⟨u, accepted', stands⟩
    rw [(h.assigned m accepted e).target?_eq_some_iff accepted', target accepted'] at stands
    split_ifs at stands with isTag
    exact ⟨isTag.1, (Digest.eq_of_ofText_text (Option.some.inj stands)).symm⟩
  · rintro ⟨rfl, rfl⟩
    refine ⟨t, accepted, ?_⟩
    rw [(h.assigned n accepted d).target?_eq_some_iff accepted, target accepted, if_pos ⟨rfl, rfl⟩]

lemma Has.pushed (has : b.Has r) (links : LinkStore) (content : Octets) :
    (links.pushed b content).Has r := by
  refine Has.put ?_ _ _
  split_ifs
  · exact has
  · exact has.put _ _

lemma has_pushed (b : Bucket) (links : LinkStore) (content : Octets) :
    (links.pushed b content).Has (.link links.current links.repository (.ofContent content)) ∧
      (links.pushed b content).Has (.blob links.blobs (.ofContent content)) := by
  refine ⟨has_put _ (.link links.current links.repository (.ofContent content)) _, Has.put ?_ _ _⟩
  split_ifs with stored
  · exact stored
  · exact has_put b (.blob links.blobs (.ofContent content)) content

lemma at?_pushed (lawful : r.IsLawful) (links : LinkStore) (content : Octets) :
    (links.pushed b content).at? r =
      if r = .link links.current links.repository (.ofContent content) then
        some (Octets.ofText (Digest.ofContent content).text)
      else if r = .blob links.blobs (.ofContent content) ∧ ¬b.Has r then some content
      else b.at? r := by
  change (Bucket.put _ (Record.link links.current links.repository _).key _).at? r = _
  rw [at?_put (r := .link _ _ _) trivial lawful]
  simp only [eq_comm (b := r)]
  refine if_congr Iff.rfl rfl ?_
  by_cases stored : b.Has (.blob links.blobs (.ofContent content))
  · rw [if_pos stored, if_neg]
    rintro ⟨rfl, missing⟩
    exact missing stored
  · rw [if_neg stored]
    change (Bucket.put _ (Record.blob links.blobs _).key _).at? r = _
    rw [at?_put (r := .blob _ _) trivial lawful]
    exact if_congr ⟨fun same => ⟨same.symm, same ▸ stored⟩, fun both => both.1.symm⟩ rfl rfl

lemma has_pushed_iff (lawful : r.IsLawful) (links : LinkStore) (content : Octets) :
    (links.pushed b content).Has r ↔
      r = .link links.current links.repository (.ofContent content) ∨
        r = .blob links.blobs (.ofContent content) ∨ b.Has r := by
  rw [Has, at?_pushed lawful]
  split_ifs with isLink isBlob
  · simp [isLink]
  · simp [isBlob.1]
  · constructor
    · exact fun has => .inr (.inr has)
    · rintro (same | same | has)
      · exact absurd same isLink
      · by_contra missing
        exact isBlob ⟨same, missing⟩
      · exact has

lemma at?_unlinked (lawful : r.IsLawful) (links : LinkStore) (d : Digest) :
    (links.unlinked b d).at? r =
      if ∃ kind ∈ links.kinds, r = .link kind links.repository d then none else b.at? r := by
  unfold LinkStore.unlinked
  induction links.kinds generalizing b with
  | nil => simp
  | cons kind kinds ih =>
    rw [List.foldl_cons, ih]
    change (if _ then none else (b.remove (Record.link kind links.repository d).key).at? r) = _
    rw [at?_remove (r := .link _ _ _) trivial lawful, ← ite_or]
    refine if_congr ?_ rfl rfl
    rw [List.exists_mem_cons_iff, or_comm, eq_comm]

lemma Has.unlinked (has : b.Has r) (lawful : r.IsLawful) {links : LinkStore} {d : Digest}
    (different : ∀ kind, .link kind links.repository d ≠ r) : (links.unlinked b d).Has r := by
  rw [Has, at?_unlinked lawful, if_neg]
  · exact has
  · rintro ⟨kind, _, same⟩
    exact different kind same.symm

end Bucket

/-- A record on which no other one depends, as it belongs to an upload session or to a tag. -/
def Record.IsLoose : Record → Prop
  | blob _ _ | link _ _ _ => False
  | tagTarget _ _ | tagEntry _ _ _ | uploadContent _ _ | uploadStart _ _ => True

/-- What a registry has. -/
structure Holdings where
  bucket : Bucket
  cache : DescriptorCache

/-- The kinds of changes. What is made a manifest or gets a tag has a property. -/
inductive Change (settings : Settings) (P : Digest → Prop) : Holdings → Holdings → Prop
  /-- A loose record is written. A tag remembers only while it stands for something. -/
  | write {b : Bucket} {c : DescriptorCache} {r : Record} {content : Octets} (lawful : r.IsLawful)
      (loose : r.IsLoose) (holds : r.MayHold content)
      (target : ∀ n t d, r = .tagTarget n t → content = Octets.ofText d.text → P d)
      (stands : ∀ n t d, r = .tagEntry n t d → b.Has (.tagTarget n t)) :
      Change settings P ⟨b, c⟩ ⟨b.put r.key content, c⟩
  /-- Loose records are removed, and with what a tag stands for all that it remembers. -/
  | discard {b b' : Bucket} {c : DescriptorCache} {gone : Record → Prop} (drops : b.Drops b' gone)
      (loose : ∀ r, gone r → r.IsLoose)
      (whole : ∀ n t d, gone (.tagTarget n t) → gone (.tagEntry n t d)) :
      Change settings P ⟨b, c⟩ ⟨b', c⟩
  /-- Content is stored and linked. -/
  | push {b : Bucket} {c : DescriptorCache} {links : LinkStore} {content : Octets}
      {descriptor : Descriptor} (same : links.settings = settings)
      (named : descriptor.digest = .ofContent content)
      (manifest : links.current = .revision → P (.ofContent content)) :
      Change settings P ⟨b, c⟩
        ⟨links.pushed b content, links.noted c (.ofContent content) descriptor⟩
  /-- Content that is stored is linked. -/
  | attach {b : Bucket} {c : DescriptorCache} {links : LinkStore} {d : Digest}
      (same : links.settings = settings) (stored : b.Has (.blob links.blobs d))
      (manifest : links.current = .revision → P d) :
      Change settings P ⟨b, c⟩ ⟨b.put (links.key links.current d) (Octets.ofText d.text), c⟩
  /-- All links to a digest are removed. -/
  | unlink {b : Bucket} {c : DescriptorCache} {links : LinkStore} (d : Digest)
      (same : links.settings = settings) :
      Change settings P ⟨b, c⟩ ⟨links.unlinked b d, links.dropped c d⟩
  /-- What was found is kept in the cache. -/
  | note {b : Bucket} {c : DescriptorCache} {links : LinkStore} {d : Digest}
      {descriptor : Descriptor} (same : links.settings = settings)
      (found : b.descriptor? links d = some descriptor) :
      Change settings P ⟨b, c⟩ ⟨b, links.noted c d descriptor⟩

abbrev Changes (settings : Settings) (P : Digest → Prop) : Holdings → Holdings → Prop :=
  Relation.ReflTransGen (Change settings P)

lemma Changes.mono {settings : Settings} {P Q : Digest → Prop} {h h' : Holdings}
    (weaker : ∀ d, P d → Q d) (changes : Changes settings P h h') :
    Changes settings Q h h' := by
  refine Relation.ReflTransGen.mono (fun _ _ change => ?_) _ _ changes
  cases change with
  | write lawful loose holds target stands =>
    exact .write lawful loose holds (fun n t d same text => weaker d (target n t d same text))
      stands
  | discard drops loose whole => exact .discard drops loose whole
  | push same named manifest => exact .push same named fun revision => weaker _ (manifest revision)
  | attach same stored manifest =>
    exact .attach same stored fun revision => weaker _ (manifest revision)
  | unlink d same => exact .unlink d same
  | note same found => exact .note same found

namespace Holdings

/-- The bucket is a ledger, and the cache is faithful. -/
structure IsSound (h : Holdings) : Prop where
  isLedger : h.bucket.IsLedger
  isFaithful : h.cache.IsFaithful

lemma isSound_empty : IsSound ⟨∅, .empty⟩ :=
  ⟨Bucket.isLedger_empty, DescriptorCache.isFaithful_empty⟩

end Holdings

lemma LinkStore.isLedger_unlinked {b : Bucket} (h : b.IsLedger) (links : LinkStore) (d : Digest) :
    (links.unlinked b d).IsLedger := by
  unfold unlinked
  induction links.kinds generalizing b with
  | nil => exact h
  | cons kind kinds ih => exact ih (h.remove _)

lemma LinkStore.isLedger_pushed {b : Bucket} (h : b.IsLedger) (links : LinkStore)
    (content : Octets) : (links.pushed b content).IsLedger := by
  refine Bucket.IsLedger.put (r := .link links.current links.repository _) ?_ trivial rfl
  split_ifs
  · exact h
  · exact h.put (r := .blob links.blobs _) trivial rfl

lemma LinkStore.lookUp_noted {links : LinkStore} {cache : DescriptorCache} {n : RepositoryName}
    {d e : Digest} {descriptor found : Descriptor}
    (h : (links.noted cache d descriptor).lookUp (some n) e = .ok found) :
    (links.repository = n ∧ d = e) ∨ cache.lookUp (some n) e = .ok found := by
  unfold noted at h
  split_ifs at h
  · exact (DescriptorCache.lookUp_remember h).imp_left fun ⟨same, digest, _⟩ => ⟨same, digest⟩
  · exact .inr h

lemma LinkStore.isFaithful_noted {links : LinkStore} {cache : DescriptorCache}
    (h : cache.IsFaithful) {d : Digest} {descriptor : Descriptor} (named : descriptor.digest = d) :
    (links.noted cache d descriptor).IsFaithful := by
  unfold noted
  split_ifs
  · refine ⟨fun n => by rw [DescriptorCache.openFor_remember, h.opens], fun n e found looked => ?_⟩
    rcases DescriptorCache.lookUp_remember looked with ⟨_, rfl, rfl⟩ | before
    · exact named
    · exact h.named n e found before
  · exact h

theorem Change.isSound {settings : Settings} {P : Digest → Prop} {h h' : Holdings}
    (change : Change settings P h h') (sound : h.IsSound) : h'.IsSound := by
  obtain ⟨ledger, faithful⟩ := sound
  cases change with
  | write lawful loose holds target stands => exact ⟨ledger.put lawful holds, faithful⟩
  | discard drops loose whole => exact ⟨drops.1, faithful⟩
  | push same named manifest =>
    exact ⟨LinkStore.isLedger_pushed ledger _ _, LinkStore.isFaithful_noted faithful named⟩
  | @attach b c links d same stored manifest =>
    exact ⟨ledger.put (r := .link links.current links.repository d) trivial rfl, faithful⟩
  | unlink d same =>
    refine ⟨LinkStore.isLedger_unlinked ledger _ d, ?_⟩
    simp only [LinkStore.dropped]
    split_ifs
    · refine ⟨fun n => by rw [DescriptorCache.openFor_forget, faithful.opens], ?_⟩
      exact fun n e found looked =>
        faithful.named n e found (DescriptorCache.lookUp_forget looked).2
    · exact faithful
  | note same found =>
    exact ⟨ledger,
      LinkStore.isFaithful_noted faithful (Bucket.descriptor?_eq_some found).2.2⟩

theorem Changes.isSound {settings : Settings} {P : Digest → Prop} {h h' : Holdings}
    (changes : Changes settings P h h') (sound : h.IsSound) : h'.IsSound := by
  induction changes with
  | refl => exact sound
  | tail _ change ih => exact change.isSound ih

end ImageRegistry
