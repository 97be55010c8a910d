import ImageRegistry.Proofs.Collection.Tracing
import ImageRegistry.Proofs.Registry.Making

/-! Which manifests are loaded while garbage is collected. -/

namespace ImageRegistry

open World

variable {s : Site} {b : Bucket} {cache : DescriptorCache}

theorem Manifests.run_get_told (ledger : b.IsLedger) {r : Repository} {d : Digest}
    (named : ∀ descriptor, r.manifests.told? b cache d = some descriptor →
      descriptor.digest = d) :
    (s.world b cache).run (Manifests.get r d) =
      (((r.manifests.told? b cache d).bind fun _ => b.at? (.blob r.blobStore d)).elim
        (.error (unknown r d)) fun content =>
          (Manifest.ofPayload none content).mapError .manifestInvalid,
        s.world b (r.manifests.asked b cache d)) := by
  rw [get, run_bind, whenBlobUnknown, run_tryCatch, LinkStore.get, run_bind,
    LinkStore.run_stat r.manifests s cache ledger]
  cases told : r.manifests.told? b cache d with
  | none => rfl
  | some descriptor =>
    obtain rfl := named descriptor told
    simp only [Option.elim_some, Option.bind_some, s.run_getBlob]
    change _ = ((b.at? (.blob r.manifests.blobs descriptor.digest)).elim _ _, _)
    cases b.at? (.blob r.manifests.blobs descriptor.digest) with
    | none => rfl
    | some content => exact run_orFail _ _ _

theorem Manifests.run_get (ledger : b.IsLedger) (faithful : cache.IsFaithful) (r : Repository)
    (d : Digest) :
    ∃ x cache', (s.world b cache).run (Manifests.get r d) = (x, s.world b cache') ∧
      cache'.IsFaithful ∧
      (x = .error (unknown r d) ∨ ∃ content, b.at? (.blob r.blobStore d) = some content ∧
        x = (Manifest.ofPayload none content).mapError .manifestInvalid) ∧
      (r.settings.isHidden d = false → b.descriptor? r.manifests d ≠ none →
        x ≠ .error (unknown r d)) := by
  refine ⟨_, _, run_get_told ledger fun _ => r.manifests.digest_of_told? faithful,
    r.manifests.isFaithful_asked faithful d, ?_, fun visible found => ?_⟩
  · cases r.manifests.told? b cache d with
    | none => exact .inl rfl
    | some descriptor =>
      cases b.at? (.blob r.blobStore d) with
      | none => exact .inl rfl
      | some content => exact .inr ⟨content, rfl, rfl⟩
  · obtain ⟨other, found⟩ := Option.ne_none_iff_exists'.1 found
    obtain ⟨content, stored⟩ := Bucket.has_iff.1 (Bucket.descriptor?_eq_some found).2.1
    have shown : r.manifests.settings.isHidden d = false := visible
    obtain ⟨descriptor, told⟩ : ∃ descriptor, r.manifests.told? b cache d = some descriptor := by
      rw [← Option.isSome_iff_exists, LinkStore.told?, shown, found]
      simp
    rw [told, Option.bind_some, show b.at? (.blob r.blobStore d) = some content from stored]
    change (Manifest.ofPayload none content).mapError _ ≠ _
    intro unknown
    cases read : Manifest.ofPayload none content with
    | ok m => rw [read] at unknown; cases unknown
    | error e => rw [read] at unknown; cases unknown

/-- The manifest that is linked and stored under a digest. -/
def Bucket.manifest (b : Bucket) (r : Repository) (d : Digest) : Except RegistryError Manifest :=
  ((b.descriptor? r.manifests d).bind fun _ => b.at? (.blob r.blobStore d)).elim
    (.error (Manifests.unknown r d))
    fun content => (Manifest.ofPayload none content).mapError .manifestInvalid

/-- Where there is neither a cache nor anything hidden, a manifest is read if there is a link to it
and its content is stored, and nothing changes. -/
theorem Manifests.run_get_plain (ledger : b.IsLedger) {r : Repository}
    (uncached : r.settings.cached = false) (unhidden : r.settings.hides = none) (d : Digest) :
    (s.world b cache).run (Manifests.get r d) = (b.manifest r d, s.world b cache) := by
  obtain ⟨told, asked⟩ := r.manifests.told?_plain uncached unhidden b cache d
  rw [run_get_told ledger, told, asked]
  · rfl
  · rw [told]
    exact fun descriptor found => (Bucket.descriptor?_eq_some found).2.2

lemma Manifests.run_requireBlob (ledger : b.IsLedger) {r : Repository} {d : Digest}
    {descriptor : Descriptor} (told : r.blobs.told? b cache d = some descriptor) :
    (s.world b cache).run (requireBlob r d) = (.ok (), s.world b (r.blobs.asked b cache d)) := by
  rw [requireBlob, run_bind, whenBlobUnknown, run_tryCatch, LinkStore.run_stat _ _ _ ledger, told]
  rfl

lemma Manifests.run_requireBlob_plain (ledger : b.IsLedger) {r : Repository}
    (uncached : r.settings.cached = false) (unhidden : r.settings.hides = none) {d : Digest}
    (linked : b.Has (.link .layer r.name d)) (stored : b.Has (.blob r.blobStore d)) :
    (s.world b cache).run (requireBlob r d) = (.ok (), s.world b cache) := by
  have known : b.descriptor? r.blobs d ≠ none :=
    Bucket.descriptor?_ne_none_iff.2 ⟨⟨.layer, List.mem_cons_self, linked⟩, stored⟩
  obtain ⟨descriptor, found⟩ := Option.ne_none_iff_exists'.1 known
  obtain ⟨told, asked⟩ := r.blobs.told?_plain uncached unhidden b cache d
  rw [run_requireBlob ledger (told.trans found), asked]

lemma Manifests.run_prepare_docker {w : World} {r : Repository} (image : DockerImage)
    (time : String) (held : w.run (requireBlob r image.config.digest) = (.ok (), w))
    (checked : ∀ layer ∈ image.layers, w.run (checkDockerLayer r layer) = (.ok (), w)) :
    w.run (prepare r time (.docker image)) = (.ok (.docker image), w) := by
  rw [prepare, run_bind, held]
  dsimp only
  rw [run_bind, run_forM_of_same checked]
  rfl

lemma Manifests.run_prepare_unsigned {w : World} {r : Repository} {m signed : LegacyManifest}
    {seed : Octets} {time : String} (enabled : r.settings.legacyEnabled = true)
    (key : r.settings.signingKey = some seed) (nonempty : m.body.layers.isEmpty = false)
    (even : m.body.layers.length = m.body.history.length) (unsigned : m.isSigned = false)
    (held : ∀ layer ∈ m.body.references, w.run (requireBlob r layer.digest) = (.ok (), w))
    (signs : m.sign r.settings.scheme seed time = .ok signed) :
    w.run (prepare r time (.legacy m)) = (.ok (.legacy signed), w) := by
  have prepared : w.run (prepareLegacy r time m) = (.ok signed, w) := by
    rw [prepareLegacy, enabled, nonempty, if_neg (not_not_intro even), unsigned, key]
    change w.run ((m.body.references.forM fun layer => requireBlob r layer.digest) >>= _) = _
    rw [run_bind, run_forM_of_same held]
    dsimp only
    rw [if_neg Bool.false_ne_true, run_orFail, signs]
    rfl
  rw [prepare, run_map, prepared]

namespace Marking

def loaded (p : Pending) : Except RegistryError Manifest → Except RegistryError (Option Manifest)
  | .ok m => .ok (some m)
  | .error (.manifestUnknown name d) =>
    if p.mayBeMissing then .ok none else .error (.manifestUnknown name d)
  | .error e => .error e

lemma run_load {w w' : World} {r : Repository} {p : Pending} {x : Except RegistryError Manifest}
    (ran : w.run (Manifests.get r p.digest) = (x, w')) : w.run (load r p) = (loaded p x, w') := by
  rw [load, run_tryCatch, run_map, ran]
  cases x with
  | ok m => rfl
  | error e =>
    cases e
    case manifestUnknown name d =>
      simp only [loaded]
      split_ifs <;> rfl
    all_goals rfl

lemma loaded_eq_some {p : Pending} {x : Except RegistryError Manifest} {m : Manifest}
    (h : loaded p x = .ok (some m)) : x = .ok m := by
  unfold loaded at h
  split at h
  · cases h; rfl
  · split_ifs at h
    cases h
  · cases h

lemma loaded_eq_none {p : Pending} {x : Except RegistryError Manifest}
    (h : loaded p x = .ok none) (m : Manifest) : x ≠ .ok m := by
  rintro rfl
  cases h

lemma loading_of_faithful (ledger : b.IsLedger) (r : Repository) {L : Pending → Prop}
    (leads : ∀ p, L p → ∀ content m, b.at? (.blob r.blobStore p.digest) = some content →
      Manifest.ofPayload none content = .ok m → ∀ d ∈ children m, L ⟨d, true⟩) :
    Loading s b r DescriptorCache.IsFaithful L (fun _ => True) fun _ _ => False where
  run_load cache faithful p live := by
    obtain ⟨x, cache', ran, faithful', known, -⟩ :=
      Manifests.run_get (s := s) ledger faithful r p.digest
    refine ⟨_, cache', run_load ran, faithful', fun m same => ?_, fun _ _ => id⟩
    refine ⟨fun d child => ?_, fun _ _ => trivial, fun _ => False.elim⟩
    obtain rfl := loaded_eq_some same
    rcases known with same | ⟨content, stored, read⟩
    · cases same
    · refine leads p live content m stored ?_ d child
      cases hm : Manifest.ofPayload none content with
      | ok m' => rw [hm] at read; cases read; rfl
      | error e => rw [hm] at read; cases read

lemma loading_of_isSound (ledger : b.IsLedger) (r : Repository) :
    Loading s b r DescriptorCache.IsFaithful (fun _ => True) (fun _ => True) fun _ _ => False :=
  loading_of_faithful ledger r fun _ _ _ _ _ _ _ _ => trivial

/-- Where there is neither a cache nor anything hidden, exactly the manifests that are linked and
stored are known. -/
lemma loading_of_plain (ledger : b.IsLedger) {r : Repository} (uncached : r.settings.cached = false)
    (unhidden : r.settings.hides = none) {L : Pending → Prop} {B : Digest → Prop}
    (leads : ∀ p, L p → ∀ m, b.manifest r p.digest = .ok m →
      (∀ d ∈ children m, L ⟨d, true⟩) ∧ ∀ d ∈ parts m, B d) :
    Loading s b r DescriptorCache.IsFaithful L B fun d m => b.manifest r d = .ok m where
  run_load cache faithful p live := by
    refine ⟨_, cache, run_load (Manifests.run_get_plain ledger uncached unhidden p.digest),
      faithful, fun m same => ?_, fun missing => loaded_eq_none missing⟩
    have read := loaded_eq_some same
    obtain ⟨toChildren, toParts⟩ := leads p live m read
    refine ⟨toChildren, toParts, fun m' known => ?_⟩
    rw [known] at read
    exact Except.ok.inj read

end Marking
end ImageRegistry
