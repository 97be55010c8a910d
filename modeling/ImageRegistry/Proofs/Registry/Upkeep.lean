import ImageRegistry.Proofs.Collection.Readiness

/-! All that can become of a registry. Beside the operations of a history, tags are removed, blobs
are uploaded in one piece, and links are made and removed on their own. No link is left without its
content, and no tag remembers anything unless it stands for something. -/

namespace ImageRegistry

open World

/-- The links of a repository of which new ones are of some kind. -/
def Repository.linkStore (r : Repository) : LinkKind → LinkStore
  | .layer => r.blobs
  | .revision => r.manifests

/-- The registries that are attained from an empty bucket by operations of any kind. -/
inductive Attained (settings : Settings) : World → Prop
  | start (bucket : String) (locationBase : Option String) :
      Attained settings (.fresh bucket locationBase)
  | perform {w : World} (op : Operation) (attained : Attained settings w) :
      Attained settings (op.perform settings w)
  | removeTag {w : World} (n : RepositoryName) {t : String} (accepted : TagName.accepts t = true)
      (attained : Attained settings w) :
      Attained settings (Operation.within settings w n fun r => Tags.remove r.name t)
  | putWhole {w : World} (n : RepositoryName) (d : Digest) (content : Octets)
      (attained : Attained settings w) :
      Attained settings (Operation.within settings w n fun r => Uploads.whole r d content)
  /-- Only what is stored may be linked. -/
  | link {w : World} (n : RepositoryName) (kind : LinkKind) {d : Digest}
      (stored : (w.record? (.blob (settings.blobStore n) d)).isSome = true)
      (attained : Attained settings w) :
      Attained settings (Operation.within settings w n fun r => (r.linkStore kind).link d)
  | unlink {w : World} (n : RepositoryName) (kind : LinkKind) (d : Digest)
      (attained : Attained settings w) :
      Attained settings (Operation.within settings w n fun r => (r.linkStore kind).unlink d)

variable {settings : Settings} {P : Digest → Prop}

lemma Reached.attained {Allowed : World → Operation → Prop} {w : World}
    (reached : Reached settings Allowed w) : Attained settings w := by
  induction reached with
  | start bucket locationBase => exact .start bucket locationBase
  | step op _ _ ih => exact .perform op ih

/-- A tag remembers digests only while it stands for one. -/
def Bucket.TagsStand (b : Bucket) : Prop :=
  ∀ n t d, TagName.accepts t = true → b.Has (.tagEntry n t d) → b.Has (.tagTarget n t)

lemma Bucket.tagsStand_empty : TagsStand ∅ := by
  intro n t d _ has
  simp [Has, at?, content?] at has

lemma Bucket.TagsStand.drops {b b' : Bucket} {C : Record → Prop} (stand : b.TagsStand)
    (drops : b.Drops b' C) (whole : ∀ n t d, C (.tagTarget n t) → C (.tagEntry n t d)) :
    b'.TagsStand := by
  intro n t d accepted has
  obtain ⟨remembered, spared⟩ := (drops.has (r := .tagEntry n t d) accepted).1 has
  refine (drops.has (r := .tagTarget n t) accepted).2 ⟨stand n t d accepted remembered, ?_⟩
  exact fun gone => spared (whole n t d gone)

open Bucket in
theorem Change.tagsStand {h h' : Holdings} (change : Change settings P h h')
    (stand : h.bucket.TagsStand) : h'.bucket.TagsStand := by
  cases change with
  | discard drops loose whole => exact stand.drops drops whole
  | note same found => exact stand
  | @write b c r content lawful loose holds target stands =>
    intro n t d accepted has
    rw [Has, at?_put (q := .tagEntry n t d) lawful accepted] at has
    split_ifs at has with same
    · exact (stands n t d same).put _ _
    · exact (stand n t d accepted has).put _ _
  | @push b c links content descriptor same named manifest =>
    intro n t d accepted has
    rw [Has, at?_pushed (r := .tagEntry n t d) accepted, if_neg (by simp),
      if_neg (by simp)] at has
    exact (stand n t d accepted has).pushed _ _
  | @attach b c links d same stored manifest =>
    intro n t e accepted has
    rw [Has, LinkStore.key, at?_put (r := .link _ _ _) (q := .tagEntry n t e) trivial accepted,
      if_neg (by simp)] at has
    exact (stand n t e accepted has).put _ _
  | @unlink b c links d same =>
    intro n t e accepted has
    rw [Has, at?_unlinked (r := .tagEntry n t e) accepted, if_neg (by simp)] at has
    exact (stand n t e accepted has).unlinked accepted (by simp)

/-- A registry that is sound, in which links lead to content and tags stand. -/
structure Holdings.IsOrderly (settings : Settings) (h : Holdings) : Prop where
  sound : h.IsSound
  ready : h.bucket.IsReady settings fun _ => True
  stand : h.bucket.TagsStand

lemma Changes.isOrderly {h h' : Holdings} (changes : Changes settings (fun _ => True) h h')
    (orderly : h.IsOrderly settings) : h'.IsOrderly settings := by
  induction changes with
  | refl => exact orderly
  | tail _ change ih =>
    exact ⟨change.isSound ih.sound, change.isReady ih.ready, change.tagsStand ih.stand⟩

/-- To collect garbage, whether that succeeds or fails, keeps a registry sound and drops some
records: with content all links to it, and nothing that a tag stands for. -/
lemma Collector.drops_collect (s : Site) {h : Holdings} (sound : h.IsSound)
    (options : CollectionOptions) (scope : Option RepositoryName) :
    ∃ x, ∃ h' : Holdings, ∃ gone, (s.world h.bucket h.cache).run (collect options settings scope) =
        (x, s.world h'.bucket h'.cache) ∧ h'.IsSound ∧ h.bucket.Drops h'.bucket gone ∧
      (∀ kind n d, h.bucket.Has (.link kind n d) → h.bucket.Has (.blob (settings.blobStore n) d) →
        gone (.blob (settings.blobStore n) d) → gone (.link kind n d)) ∧
      ∀ n t, ¬gone (.tagTarget n t) := by
  obtain ⟨ledger, faithful⟩ := sound
  obtain ⟨x, b', cache', ran, faithful', ledger', failed, good, -⟩ :=
    run_collect (s := s) options (B := fun _ _ => True) (K := fun _ _ _ => False)
      (L := fun _ _ => True) ledger
      (fun n => Marking.loading_of_isSound ledger ⟨settings, n⟩)
      (fun _ _ _ _ => trivial) (fun _ _ _ => trivial) scope faithful
  have sound' : Holdings.IsSound ⟨b', cache'⟩ := ⟨ledger', faithful'⟩
  cases x with
  | error e =>
    obtain rfl := failed e rfl
    exact ⟨_, ⟨_, cache'⟩, fun _ => False, ran, sound', .none ledger fun _ => id,
      fun _ _ _ _ _ => id, fun _ _ => id⟩
  | ok report =>
    obtain ⟨names, found, swept, settled, drops⟩ := good report rfl
    exact ⟨_, ⟨b', cache'⟩, _, ran, sound', drops, fun _ _ _ linked stored condemned =>
      condemned_link_of_blob settled swept linked stored condemned,
      fun _ _ => not_condemned_tagTarget⟩

theorem Collector.isOrderly_collect (s : Site) {h : Holdings} (orderly : h.IsOrderly settings)
    (options : CollectionOptions) (scope : Option RepositoryName) :
    ∃ x, ∃ h' : Holdings, (s.world h.bucket h.cache).run (collect options settings scope) =
      (x, s.world h'.bucket h'.cache) ∧ h'.IsOrderly settings := by
  obtain ⟨sound, ready, stand⟩ := orderly
  obtain ⟨x, h', gone, ran, sound', drops, dragged, spared⟩ :=
    drops_collect s sound options scope
  exact ⟨x, h', ran, sound', ready.drops drops dragged,
    stand.drops drops fun n t _ target => absurd target (spared n t)⟩

lemma Operation.isOrderly_within {α : Type} {name : RepositoryName} {a : Repository → Action α}
    (makes : ∀ r : Repository, r.settings = settings →
      (a r).Makes settings (fun _ => True) fun _ => True)
    (s : Site) {h : Holdings} (orderly : h.IsOrderly settings) :
    ∃ h' : Holdings, within settings (s.world h.bucket h.cache) name a =
        s.world h'.bucket h'.cache ∧
      h'.IsOrderly settings := by
  obtain ⟨h', same, changes⟩ := changes_within makes s orderly.sound
  exact ⟨h', same, changes.isOrderly orderly⟩

lemma LinkStore.changes_link (links : LinkStore) (same : links.settings = settings) (s : Site)
    {h : Holdings} {d : Digest} (stored : h.bucket.Has (.blob links.blobs d)) :
    ∃ h' : Holdings, (s.world h.bucket h.cache).run (links.link d) =
        (.ok (), s.world h'.bucket h'.cache) ∧
      Changes settings (fun _ => True) h h' :=
  ⟨⟨_, h.cache⟩, s.run_store h.bucket h.cache _ _, .single (.attach same stored fun _ => trivial)⟩

theorem Attained.isOrderly {w : World} (attained : Attained settings w) :
    ∃ (s : Site) (h : Holdings), w = s.world h.bucket h.cache ∧ h.IsOrderly settings := by
  induction attained with
  | start bucket locationBase =>
    exact ⟨_, ⟨∅, .empty⟩, World.fresh_eq bucket locationBase,
      ⟨Holdings.isSound_empty, .empty, Bucket.tagsStand_empty⟩⟩
  | perform op _ ih =>
    obtain ⟨s, h, rfl, orderly⟩ := ih
    have good : op.IsGood settings fun _ => True := by
      cases op <;> simp [Operation.IsGood]
    rcases Operation.perform_cases good s orderly.sound with
      ⟨h', same, changes⟩ | ⟨-, options, scope, same⟩
    · exact ⟨s, h', same, changes.isOrderly orderly⟩
    · obtain ⟨x, h', ran, orderly'⟩ := Collector.isOrderly_collect s orderly options scope
      exact ⟨s, h', by rw [same, ran], orderly'⟩
  | removeTag n accepted _ ih =>
    obtain ⟨s, h, rfl, orderly⟩ := ih
    refine ⟨s, Operation.isOrderly_within (fun r _ => ?_) s orderly⟩
    refine (Tags.makes_erase r.name accepted).bind fun held _ => ?_
    split_ifs
    · exact .pure trivial
    · exact .throw _
  | putWhole n d content _ ih =>
    obtain ⟨s, h, rfl, orderly⟩ := ih
    exact ⟨s, Operation.isOrderly_within (fun r same => Uploads.makes_whole same d content) s
      orderly⟩
  | @link w n kind d stored _ ih =>
    obtain ⟨s, h, rfl, orderly⟩ := ih
    rw [Site.record?_world] at stored
    rw [Operation.within_of_opens fun _ => orderly.sound.isFaithful.opens n]
    let links := Repository.linkStore ⟨settings, n⟩ kind
    have same : links.settings = settings := by cases kind <;> rfl
    have held : h.bucket.Has (.blob links.blobs d) := by cases kind <;> exact stored
    obtain ⟨h', ran, changes⟩ := links.changes_link same s held
    exact ⟨s, h', congrArg Prod.snd ran, changes.isOrderly orderly⟩
  | unlink n kind d _ ih =>
    obtain ⟨s, h, rfl, orderly⟩ := ih
    refine ⟨s, Operation.isOrderly_within (fun r same => LinkStore.makes_unlink ?_ d) s orderly⟩
    cases kind <;> exact same

end ImageRegistry
