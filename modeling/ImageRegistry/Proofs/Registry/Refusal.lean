import ImageRegistry.Proofs.Collection.FailClosed
import ImageRegistry.Proofs.Registry.Admission

/-! Manifests that are refused. All that a manifest is checked for is checked before the first
write, apart from the name of its tag, and whatever fails once something was written is the
storage. -/

namespace ImageRegistry

open World ImageRegistry.Action

lemma World.error_of_run_bind {α β : Type} {w w' : World} {a : Action α} {f : α → Action β}
    {e : RegistryError} (ran : w.run (a >>= f) = (.error e, w')) :
    w.run a = (.error e, w') ∨
      ∃ (x : α) (w₁ : World), w.run a = (.ok x, w₁) ∧ w₁.run (f x) = (.error e, w') := by
  rw [run_bind] at ran
  cases first : w.run a with
  | mk reply w₁ =>
    rw [first] at ran
    cases reply with
    | ok x => exact .inr ⟨x, w₁, rfl, ran⟩
    | error e' =>
      cases ran
      exact .inl rfl

def Action.FailsByStorage {α : Type} (a : Action α) : Prop :=
  ∀ (w w' : World) (e : RegistryError), w.run a = (.error e, w') → ∃ f, e = .storage f

namespace Action.FailsByStorage

variable {α β : Type}

lemma pure (x : α) : (Pure.pure x : Action α).FailsByStorage := fun _ _ _ => nofun

lemma call (c : Call) : (Action.call c).FailsByStorage := fun _ _ _ => nofun

lemma ofStorage (reply : Except StorageError α) : (Action.ofStorage reply).FailsByStorage := by
  intro w w' e ran
  rw [Action.ofStorage, run_orFail] at ran
  cases reply with
  | ok x => cases ran
  | error f =>
    cases ran
    exact ⟨f, rfl⟩

lemma unlessMissing (reply : Except StorageError α) :
    (Action.unlessMissing reply).FailsByStorage := by
  intro w w' e ran
  cases reply with
  | ok x => cases ran
  | error f =>
    rw [Action.unlessMissing] at ran
    split_ifs at ran
    · cases ran
    · cases ran
      exact ⟨f, rfl⟩

lemma bind {a : Action α} {f : α → Action β} (ha : a.FailsByStorage)
    (hf : ∀ x, (f x).FailsByStorage) : (a >>= f).FailsByStorage := by
  intro w w' e ran
  rcases error_of_run_bind ran with failed | ⟨x, w₁, -, ran⟩
  · exact ha w w' e failed
  · exact hf x w₁ w' e ran

lemma store (key : Path) (content : Octets) : (Action.store key content).FailsByStorage :=
  (call _).bind fun _ => ofStorage _

lemma holds (key : Path) : (Action.holds key).FailsByStorage :=
  ((call _).bind fun _ => unlessMissing _).bind fun _ => pure _

end Action.FailsByStorage

lemma LinkStore.failsByStorage_put (links : LinkStore) (mediaType : String) (content : Octets) :
    (links.put mediaType content).FailsByStorage := by
  have stores : (links.blobs.put mediaType content).FailsByStorage := by
    refine (FailsByStorage.holds _).bind fun held => ?_
    cases held with
    | true => exact .pure _
    | false => exact (FailsByStorage.store _ _).bind fun _ => .pure _
  have remembers (d : Digest) (descriptor : Descriptor) :
      (links.remember d descriptor).FailsByStorage := by
    unfold LinkStore.remember
    split_ifs
    · exact (FailsByStorage.call _).bind fun _ => .pure _
    · exact .pure _
  exact stores.bind fun _ => (FailsByStorage.store _ _).bind fun _ =>
    (remembers _ _).bind fun _ => .pure _

lemma Tags.error_of_assign {w w' : World} {n : RepositoryName} {t : String} {d : Digest}
    {e : RegistryError} (ran : w.run (assign n t d) = (.error e, w'))
    (refused : ∀ f, e ≠ .storage f) :
    TagName.accepts t = false ∧ e = .tagInvalid t ∧ w' = w := by
  rw [assign, run_bind, run_liftExcept, TagName.check] at ran
  cases accepted : TagName.accepts t with
  | true =>
    rw [accepted] at ran
    obtain ⟨f, down⟩ := ((FailsByStorage.store _ _).bind fun _ => .store _ _) _ _ _ ran
    exact absurd down (refused f)
  | false =>
    rw [accepted] at ran
    cases ran
    exact ⟨rfl, rfl, rfl⟩

namespace Manifests

open Call

lemma heeds_whenBlobUnknown {α : Type} {other : RegistryError} {a : Action α}
    (ha : a.Heeds Spares) : (whenBlobUnknown other a).Heeds Spares := by
  refine ha.tryCatch (fun e => ?_) fun x outage => ⟨x, outage, ?_⟩
  · cases e <;> exact .throw _
  · cases x <;> first | rfl | exact outage.elim

variable (r : Repository)

lemma heeds_requireBlob (d : Digest) : (requireBlob r d).Heeds Spares :=
  (heeds_whenBlobUnknown (LinkStore.heeds_stat r.blobs d)).bind fun _ => .pure _

lemma heeds_contains (d : Digest) : (contains r d).Heeds Spares := by
  refine ((LinkStore.heeds_stat r.manifests d).bind fun _ => .pure _).tryCatch (fun e => ?_)
    fun x outage => ⟨x, outage, ?_⟩
  · split_ifs
    · exact .pure _
    · exact .throw _
  · cases x <;> first | exact outage.elim | skip
    · rfl
    · rw [RegistryError.isNotFound, show _ = false from outage]
      rfl

lemma heeds_requireManifest (d : Digest) : (requireManifest r d).Heeds Spares := by
  refine (heeds_contains r d).bind fun held => ?_
  cases held with
  | true => exact .pure _
  | false => exact .throw _

lemma heeds_checkDockerLayer (layer : Descriptor) : (checkDockerLayer r layer).Heeds Spares := by
  unfold checkDockerLayer
  split_ifs
  · exact .throw _
  · exact .orFail _ _
  · exact heeds_requireBlob r _

lemma heeds_checkOciLayer (layer : Descriptor) : (checkOciLayer r layer).Heeds Spares := by
  unfold checkOciLayer
  split_ifs
  · exact .orFail _ _
  · exact heeds_requireBlob r _

lemma heeds_prepareLegacy (time : String) (m : LegacyManifest) :
    (prepareLegacy r time m).Heeds Spares := by
  unfold prepareLegacy
  dsimp only
  split
  · split
    · exact .throw _
    · split
      · exact .throw _
      · refine (Heeds.forM fun layer _ => heeds_requireBlob r layer.digest).bind fun _ => ?_
        split_ifs
        · exact (Heeds.orFail _ _).bind fun _ => .pure _
        · split
          · exact .orFail _ _
          · exact .throw _
  · exact .throw _

lemma heeds_prepare (time : String) (m : Manifest) : (prepare r time m).Heeds Spares := by
  cases m with
  | legacy m => exact (heeds_prepareLegacy r time m).map _
  | docker m =>
    exact (heeds_requireBlob r _).bind fun _ =>
      (Heeds.forM fun layer _ => heeds_checkDockerLayer r layer).bind fun _ => .pure _
  | oci m =>
    exact (heeds_requireBlob r _).bind fun _ =>
      (Heeds.forM fun layer _ => heeds_checkOciLayer r layer).bind fun _ => .pure _
  | index m =>
    exact (Heeds.forM fun child _ => heeds_requireManifest r child.digest).bind fun _ => .pure _

variable {r}

/-- A manifest that is refused, for another reason than that the storage failed, leaves what is
stored as it is, unless it would have been taken without its tag. Then the tag is refused, and only
after all was written that is written without it. -/
theorem put_refused {w w' : World} {time : String} {m : Manifest} {tag : Option String}
    {e : RegistryError} (ran : w.run (put r time m tag) = (.error e, w'))
    (refused : ∀ f, e ≠ .storage f) :
    (w.run (put r time m none) = (.error e, w') ∧
        w'.backend = w.backend ∧ w'.bucket = w.bucket) ∨
      ∃ t descriptor, tag = some t ∧ TagName.accepts t = false ∧ e = .tagInvalid t ∧
        w.run (put r time m none) = (.ok descriptor, w') := by
  rcases error_of_run_bind ran with failed | ⟨m', w₁, prepared, ran⟩
  · have kept := kept_of_heeds (heeds_prepare r time m) w
    rw [failed] at kept
    exact .inl ⟨by rw [put, run_bind, failed], kept⟩
  -- from here on something may be written, and nothing but the tag can be refused
  rcases error_of_run_bind ran with failed | ⟨descriptor, w₂, stored, ran⟩
  · obtain ⟨f, down⟩ := LinkStore.failsByStorage_put _ _ _ _ _ _ failed
    exact absurd down (refused f)
  cases tag with
  | none => cases ran
  | some t =>
    rcases error_of_run_bind ran with failed | ⟨_, _, -, ran⟩
    · obtain ⟨invalid, rfl, rfl⟩ := Tags.error_of_assign failed refused
      refine .inr ⟨t, descriptor, rfl, invalid, rfl, ?_⟩
      rw [put, run_bind, prepared]
      dsimp only
      rw [run_bind, stored]
      rfl
    · cases ran

open Collector

/-- A list is refused as it refers to a list that is not there, and nothing is stored. -/
theorem outerIndex_refused : ∃ w',
    (World.fresh "registry" none).run
        (put exampleRepository "" (.index outerIndex) (some "latest")) =
      (.error (.manifestBlobUnknown (.ofContent emptyIndex)), w') ∧
    w'.backend = (World.fresh "registry" none).backend ∧
    w'.bucket = (World.fresh "registry" none).bucket := by
  let s : Site := ⟨"registry", ∅, none⟩
  obtain ⟨told, asked⟩ := exampleRepository.manifests.told?_plain rfl rfl ∅ .empty
    (.ofContent emptyIndex)
  have unlinked : (∅ : Bucket).descriptor? exampleRepository.manifests (.ofContent emptyIndex) =
      none := by
    simp [Bucket.descriptor?, Bucket.Has, Bucket.at?_empty]
  have missing : (s.world ∅ .empty).run (contains exampleRepository (.ofContent emptyIndex)) =
      (.ok false, s.world ∅ .empty) := by
    rw [contains, LinkStore.run_contains_told _ Bucket.isLedger_empty, told, asked, unlinked]
    rfl
  have ran : (World.fresh "registry" none).run
      (put exampleRepository "" (.index outerIndex) (some "latest")) =
        (.error (.manifestBlobUnknown (.ofContent emptyIndex)), s.world ∅ .empty) := by
    have children : outerIndex.children.map Descriptor.digest = [.ofContent emptyIndex] := rfl
    obtain ⟨child, listed, same⟩ := List.map_eq_singleton_iff.1 children
    have fails : (s.world ∅ .empty).run ([child].forM fun child =>
        requireManifest exampleRepository child.digest) =
          (.error (.manifestBlobUnknown (.ofContent emptyIndex)), s.world ∅ .empty) := by
      change (s.world ∅ .empty).run (requireManifest exampleRepository child.digest >>= _) = _
      rw [same, run_bind, requireManifest, run_bind, missing]
      rfl
    rw [World.fresh_eq, put, run_bind, prepare, listed, run_bind, fails]
  refine ⟨_, ran, ?_⟩
  rcases put_refused ran (by rintro f ⟨⟩) with ⟨-, kept⟩ | ⟨t, _, same, invalid, -⟩
  · exact kept
  · cases same
    exact absurd invalid (by decide)

/-- The list of no manifests is refused for its tag, and held nevertheless. -/
theorem refusedTag_holds : ∃ m w',
    Manifest.ofPayload none emptyIndex = .ok m ∧
    (World.fresh "registry" none).run (put exampleRepository "" m (some "-latest")) =
      (.error (.tagInvalid "-latest"), w') ∧
    ¬(World.fresh "registry" none).Holds exampleRepository (.ofContent emptyIndex) ∧
    w'.Holds exampleRepository (.ofContent emptyIndex) := by
  let s : Site := ⟨"registry", ∅, none⟩
  obtain ⟨i, read, childless, payload⟩ := exists_ofPayload_emptyIndex
  have prepared : (s.world ∅ .empty).run (prepare exampleRepository "" (.index i)) =
      (.ok (.index i), s.world ∅ .empty) :=
    run_prepare_index "" fun child mem => by simp [childless] at mem
  have ran : (World.fresh "registry" none).run
      (put exampleRepository "" (.index i) (some "-latest")) =
        (.error (.tagInvalid "-latest"), s.world exampleBucket .empty) := by
    rw [World.fresh_eq, put, run_bind, prepared]
    have refused : TagName.check "-latest" = .error (.tagInvalid "-latest") :=
      if_neg (by decide +kernel)
    simp only [run_bind, LinkStore.run_put, Tags.assign, run_liftExcept, refused,
      Manifest.payload, payload]
    rfl
  refine ⟨.index i, _, read, ran, ?_, ?_⟩
  · rw [World.fresh_eq, Site.holds_world_iff]
    simp [Bucket.Has, Bucket.at?_empty]
  · obtain ⟨_, read⟩ := exists_manifest_exampleBucket
    exact (s.holds_world_iff _ _ _ _).2 (Bucket.holds_of_manifest read.2)

end Manifests
end ImageRegistry
