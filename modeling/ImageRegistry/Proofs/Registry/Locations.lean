import ImageRegistry.Proofs.Registry.Admission
import ImageRegistry.Proofs.Registry.Integrity

/-! Which locations of foreign content a registry accepts. It asks for the locations of foreign
layers, as these need not be stored; whatever else a manifest refers to has to be stored, and its
locations are not looked at. -/

namespace ImageRegistry

open World

/-- The layers that need not be stored, by their media types. -/
def Manifest.foreignLayers : Manifest → List Descriptor
  | docker m => m.layers.filter fun layer => layer.mediaType = MediaType.foreignLayer
  | oci m => m.layers.filter fun layer => MediaType.isRestricted layer.mediaType
  | legacy _ | index _ => []

/-- A location that can be read, that leads over HTTP to something as a whole, and that is
permitted. -/
def Settings.Accepts (settings : Settings) (location : String) : Prop :=
  ∃ url, settings.reader.read location = .ok url ∧ (url.scheme = "http" ∨ url.scheme = "https") ∧
    url.hasFragment = false ∧ settings.permits location = true

namespace Manifests

variable {settings : Settings} {location : String} {r : Repository} {w w' : World}

lemma checkLocation_ok_iff :
    checkLocation settings location = .ok () ↔ settings.Accepts location := by
  unfold checkLocation Settings.Accepts
  cases read : settings.reader.read location with
  | error reason => simp
  | ok url =>
    simp only [Url.isFetchable, Except.ok.injEq, exists_eq_left']
    split_ifs with checked <;> simp_all

lemma forM_checkLocation_ok_iff {locations : List String} :
    locations.forM (checkLocation settings) = .ok () ↔
      ∀ location ∈ locations, settings.Accepts location := by
  induction locations with
  | nil => simp [pure, Except.pure]
  | cons location locations ih =>
    rw [List.forall_mem_cons, ← ih, ← checkLocation_ok_iff]
    change (checkLocation settings location >>= fun _ => _) = _ ↔ _
    cases checkLocation settings location with
    | error reason => simp [bind, Except.bind]
    | ok done => simp [bind, Except.bind]

lemma accepts_of_checkLocations {layer : Descriptor}
    (ran : w.run (checkLocations r layer) = (.ok (), w')) :
    ∀ location ∈ layer.urls, r.settings.Accepts location := by
  rw [checkLocations, run_orFail] at ran
  refine forM_checkLocation_ok_iff.1 ?_
  cases checked : layer.urls.forM (checkLocation r.settings) with
  | error reason => simp [checked, Except.mapError] at ran
  | ok done => rfl

lemma accepts_of_checkDockerLayer {layer : Descriptor}
    (isForeign : layer.mediaType = MediaType.foreignLayer)
    (ran : w.run (checkDockerLayer r layer) = (.ok (), w')) :
    layer.urls ≠ [] ∧ ∀ location ∈ layer.urls, r.settings.Accepts location := by
  rw [checkDockerLayer, if_pos isForeign] at ran
  split_ifs at ran with missing
  · obtain ⟨_, _, failed, _⟩ := exists_of_run_bind ran
    cases failed
  · exact ⟨by simpa using missing, accepts_of_checkLocations ran⟩

lemma accepts_of_checkOciLayer {layer : Descriptor}
    (isRestricted : MediaType.isRestricted layer.mediaType = true)
    (ran : w.run (checkOciLayer r layer) = (.ok (), w')) :
    ∀ location ∈ layer.urls, r.settings.Accepts location := by
  unfold checkOciLayer at ran
  split_ifs at ran with named
  · exact accepts_of_checkLocations ran
  · have none : layer.urls = [] := by simpa [isRestricted] using named
    simp [none]

theorem accepts_of_prepare {time : String} {m m' : Manifest}
    (ran : w.run (prepare r time m) = (.ok m', w')) :
    (∀ layer ∈ m.foreignLayers, ∀ location ∈ layer.urls, r.settings.Accepts location) ∧
      ∀ image, m = .docker image → ∀ layer ∈ m.foreignLayers, layer.urls ≠ [] := by
  cases m with
  | legacy | index => exact ⟨fun _ => nofun, fun _ => nofun⟩
  | docker image =>
    obtain ⟨_, _, _, ran⟩ := exists_of_run_bind ran
    obtain ⟨_, _, checked, _⟩ := exists_of_run_bind ran
    have layers (layer : Descriptor) (mem : layer ∈ (Manifest.docker image).foreignLayers) :
        layer.urls ≠ [] ∧ ∀ location ∈ layer.urls, r.settings.Accepts location := by
      obtain ⟨mem, isForeign⟩ := List.mem_filter.1 mem
      obtain ⟨_, _, ran⟩ := exists_of_run_forM checked layer mem
      exact accepts_of_checkDockerLayer (of_decide_eq_true isForeign) ran
    exact ⟨fun layer mem => (layers layer mem).2, fun _ _ layer mem => (layers layer mem).1⟩
  | oci image =>
    obtain ⟨_, _, _, ran⟩ := exists_of_run_bind ran
    obtain ⟨_, _, checked, _⟩ := exists_of_run_bind ran
    refine ⟨fun layer mem => ?_, fun _ => nofun⟩
    obtain ⟨mem, isRestricted⟩ := List.mem_filter.1 mem
    obtain ⟨_, _, ran⟩ := exists_of_run_forM checked layer mem
    exact accepts_of_checkOciLayer isRestricted ran

end Manifests

/-- The same settings with another policy for locations, and another way to read them. -/
def Settings.judging (settings : Settings) (permits : String → Bool) (reader : UrlReader) :
    Settings :=
  { settings with permits, reader }

lemma LinkStore.stat_judging (links : LinkStore) (permits : String → Bool) (reader : UrlReader)
    (d : Digest) :
    stat { links with settings := links.settings.judging permits reader } d = links.stat d := by
  refine stat_congr ?_ ?_ ?_ ?_ ?_ d <;> rfl

lemma forM_congr {M : Type → Type} [Monad M] {α : Type} {xs : List α} {f g : α → M PUnit}
    (same : ∀ x ∈ xs, f x = g x) : xs.forM f = xs.forM g := by
  induction xs with
  | nil => rfl
  | cons x xs ih =>
    change (f x >>= fun _ => xs.forM f) = (g x >>= fun _ => xs.forM g)
    rw [same x List.mem_cons_self, ih fun y mem => same y (List.mem_cons_of_mem x mem)]

namespace Manifests

variable {settings : Settings} {n : RepositoryName} {permits : String → Bool} {reader : UrlReader}

lemma requireBlob_judging (d : Digest) :
    requireBlob ⟨settings.judging permits reader, n⟩ d = requireBlob ⟨settings, n⟩ d := by
  unfold requireBlob
  have same := (Repository.blobs ⟨settings, n⟩).stat_judging permits reader d
  exact congrArg (fun a => whenBlobUnknown (.manifestBlobUnknown d) a >>= fun _ => pure ()) same

lemma requireManifest_judging (d : Digest) :
    requireManifest ⟨settings.judging permits reader, n⟩ d = requireManifest ⟨settings, n⟩ d := by
  have same := (Repository.manifests ⟨settings, n⟩).stat_judging permits reader d
  have contained : contains ⟨settings.judging permits reader, n⟩ d = contains ⟨settings, n⟩ d := by
    unfold contains LinkStore.contains
    rw [← same]
    rfl
  rw [requireManifest, requireManifest, contained]

lemma prepareLegacy_judging (time : String) (m : LegacyManifest) :
    prepareLegacy ⟨settings.judging permits reader, n⟩ time m =
      prepareLegacy ⟨settings, n⟩ time m := by
  unfold prepareLegacy
  simp only [requireBlob_judging]
  rfl

lemma checkLocations_judging {layer : Descriptor}
    (same : ∀ location ∈ layer.urls, permits location = settings.permits location ∧
      reader.read location = settings.reader.read location) :
    checkLocations ⟨settings.judging permits reader, n⟩ layer =
      checkLocations ⟨settings, n⟩ layer := by
  refine congrArg (Action.orFail _) (forM_congr fun location mem => ?_)
  obtain ⟨permitted, read⟩ := same location mem
  rw [checkLocation, checkLocation, ← permitted, ← read]
  rfl

theorem put_judging {m : Manifest} (same : ∀ layer ∈ m.foreignLayers, ∀ location ∈ layer.urls,
    permits location = settings.permits location ∧
      reader.read location = settings.reader.read location) (time : String) (tag : Option String) :
    put ⟨settings.judging permits reader, n⟩ time m tag = put ⟨settings, n⟩ time m tag := by
  have prepared : prepare ⟨settings.judging permits reader, n⟩ time m =
      prepare ⟨settings, n⟩ time m := by
    cases m with
    | legacy m => rw [prepare, prepare, prepareLegacy_judging]
    | docker m =>
      rw [prepare, prepare, requireBlob_judging]
      refine bind_congr fun _ => congrArg (· >>= _) (forM_congr fun layer mem => ?_)
      rw [checkDockerLayer, checkDockerLayer, requireBlob_judging]
      split_ifs with isForeign
      · rfl
      · exact checkLocations_judging (same layer (List.mem_filter.2 ⟨mem, by simpa⟩))
      · rfl
    | oci m =>
      rw [prepare, prepare, requireBlob_judging]
      refine bind_congr fun _ => congrArg (· >>= _) (forM_congr fun layer mem => ?_)
      rw [checkOciLayer, checkOciLayer, requireBlob_judging]
      split_ifs with isForeign
      · rw [Bool.and_eq_true] at isForeign
        exact checkLocations_judging (same layer (List.mem_filter.2 ⟨mem, isForeign.1⟩))
      · rfl
    | index m =>
      rw [prepare, prepare]
      exact congrArg (· >>= _) (forM_congr fun child _ => requireManifest_judging child.digest)
  rw [put, put, prepared]
  rfl

/-- If a manifest is stored, the locations of its foreign layers are accepted, and in a schema 2
image each of these layers has one. Other locations are neither read nor judged. -/
theorem put_locations (settings : Settings) (n : RepositoryName) (time : String) (m : Manifest)
    (tag : Option String) :
    (∀ (w w' : World) (descriptor : Descriptor),
      w.run (put ⟨settings, n⟩ time m tag) = (.ok descriptor, w') →
        (∀ layer ∈ m.foreignLayers, ∀ location ∈ layer.urls, settings.Accepts location) ∧
          ∀ image, m = .docker image → ∀ layer ∈ m.foreignLayers, layer.urls ≠ []) ∧
    ∀ (permits : String → Bool) (reader : UrlReader),
      (∀ layer ∈ m.foreignLayers, ∀ location ∈ layer.urls,
        permits location = settings.permits location ∧
          reader.read location = settings.reader.read location) →
      put ⟨settings.judging permits reader, n⟩ time m tag = put ⟨settings, n⟩ time m tag := by
  refine ⟨fun w w' descriptor ran => ?_, fun permits reader same => put_judging same time tag⟩
  obtain ⟨m', w₁, prepared, -⟩ := exists_of_run_bind ran
  exact accepts_of_prepare prepared

open Collector

/-- The bucket of a registry in which the list of no manifests was stored as a blob. -/
def blobBucket : Bucket := exampleRepository.blobs.pushed ∅ emptyIndex

def blobWorld : World := (⟨"registry", ∅, none⟩ : Site).world blobBucket .empty

lemma evolved_blobWorld (permits : String → Bool) :
    Evolved (exampleRepository.settings.judging permits .plain) blobWorld := by
  let op : Operation := .putBlob exampleRepository.name "" emptyIndex
  have performed : op.perform (exampleRepository.settings.judging permits .plain)
      (.fresh "registry" none) = blobWorld := by
    have uncached {p : Prop} :
        (exampleRepository.settings.judging permits .plain).cached = true → p := nofun
    rw [World.fresh_eq, Operation.perform, Operation.within_of_opens uncached, LinkStore.run_put]
    rfl
  exact performed ▸ .perform op (.start "registry" none)

/-- The list of no manifests as something to refer to, with locations of its own. -/
def listed (mediaType : String) (urls : List String) : Descriptor :=
  { mediaType, size := emptyIndex.length, digest := .ofContent emptyIndex, urls }

lemma run_requireBlob_blobWorld (permits : String → Bool) :
    blobWorld.run (requireBlob ⟨exampleRepository.settings.judging permits .plain,
      exampleRepository.name⟩ (.ofContent emptyIndex)) = (.ok (), blobWorld) := by
  have ledger : blobBucket.IsLedger := LinkStore.isLedger_pushed Bucket.isLedger_empty _ _
  obtain ⟨linked, stored⟩ := Bucket.has_pushed ∅ exampleRepository.blobs emptyIndex
  rw [requireBlob_judging]
  exact run_requireBlob_plain ledger rfl rfl linked stored

lemma exists_run_put_image {s : Site} {b : Bucket} {cache : DescriptorCache} {r : Repository}
    {config layer : Descriptor}
    (held : (s.world b cache).run (requireBlob r config.digest) = (.ok (), s.world b cache))
    (checked : (s.world b cache).run (checkDockerLayer r layer) = (.ok (), s.world b cache)) :
    ∃ descriptor w', (s.world b cache).run
      (put r "" (.docker (.build config [layer])) none) = (.ok descriptor, w') := by
  have prepared := run_prepare_docker (.build config [layer]) "" held fun _ mem =>
    List.mem_singleton.1 mem ▸ checked
  obtain ⟨descriptor, _, ran⟩ := exists_run_put prepared
  exact ⟨descriptor, _, ran⟩

/-- An image with a foreign layer is stored, and the location of that is accepted. -/
theorem foreignLayer_located :
    let layer := listed MediaType.foreignLayer ["https://mirror.example.com/layer"]
    let r : Repository := ⟨exampleRepository.settings.judging (fun _ => true) .plain,
      exampleRepository.name⟩
    let m : Manifest := .docker (.build (listed "" []) [layer])
    (∃ descriptor w', blobWorld.run (put r "" m none) = (.ok descriptor, w')) ∧
      layer ∈ m.foreignLayers ∧ r.settings.Accepts "https://mirror.example.com/layer" := by
  intro layer r m
  have checked : blobWorld.run (checkDockerLayer r layer) = (.ok (), blobWorld) := by
    have read : layer.urls.forM (checkLocation r.settings) = .ok () := by decide +kernel
    have isForeign : layer.mediaType = MediaType.foreignLayer := rfl
    rw [checkDockerLayer, if_pos isForeign, if_neg (by decide), checkLocations, run_orFail, read]
    rfl
  have held : blobWorld.run (requireBlob r (listed "" []).digest) = (.ok (), blobWorld) :=
    run_requireBlob_blobWorld fun _ => true
  obtain ⟨descriptor, w', ran⟩ := exists_run_put_image held checked
  have foreign : layer ∈ m.foreignLayers :=
    List.mem_filter.2 ⟨List.mem_singleton_self layer, rfl⟩
  have located := (put_locations r.settings r.name "" m none).1 blobWorld w' descriptor ran
  exact ⟨⟨descriptor, w', ran⟩, foreign, located.1 layer foreign _ (List.mem_singleton_self _)⟩

/-- A manifest is stored though it has locations for its configuration and for a layer that no
policy permits: as the layer is not foreign, nothing asks for them. -/
theorem idleLocations_stored :
    let layer := listed "" ["ftp://elsewhere.example.com/layer"]
    let r : Repository := ⟨exampleRepository.settings.judging (fun _ => false) .plain,
      exampleRepository.name⟩
    let m : Manifest := .docker (.build (listed "" ["ftp://elsewhere.example.com/config"]) [layer])
    Evolved r.settings blobWorld ∧
    (∃ descriptor w', blobWorld.run (put r "" m none) = (.ok descriptor, w')) ∧
    ∃ reference ∈ m.references, ∃ location ∈ reference.urls, ¬r.settings.Accepts location := by
  intro layer r m
  have checked : blobWorld.run (checkDockerLayer r layer) = (.ok (), blobWorld) := by
    have ordinary : layer.mediaType ≠ MediaType.foreignLayer := by decide
    rw [checkDockerLayer, if_neg ordinary]
    exact run_requireBlob_blobWorld fun _ => false
  have held : blobWorld.run (requireBlob r
      (listed "" ["ftp://elsewhere.example.com/config"]).digest) = (.ok (), blobWorld) :=
    run_requireBlob_blobWorld fun _ => false
  refine ⟨evolved_blobWorld _, exists_run_put_image held checked, layer, ?_,
    "ftp://elsewhere.example.com/layer", List.mem_singleton_self _, ?_⟩
  · exact List.mem_cons_of_mem _ (List.mem_singleton_self layer)
  · rintro ⟨_, _, _, _, permitted⟩
    cases permitted

end Manifests
end ImageRegistry
