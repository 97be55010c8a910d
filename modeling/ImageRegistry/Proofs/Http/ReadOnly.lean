import ImageRegistry.Crypto.Ed25519
import ImageRegistry.Location.WebLocation
import ImageRegistry.Proofs.Collection.FailClosed
import ImageRegistry.Proofs.Http.Serving

/-! Registries that take no writes. Each request that could write is refused before it reaches the
storage, and a request that reads does not depend on whether writes are taken. -/

namespace ImageRegistry

open World ImageRegistry.Action

/-- The same settings, but for whether writes are refused. -/
def Settings.refusing (settings : Settings) (readOnly : Bool) : Settings :=
  { settings with readOnly }

/-- The request asks for something, and does not want anything to be changed. -/
def Method.reads : Method → Bool
  | .get | .head => true
  | .post | .put | .patch | .delete | .other _ => false

lemma Method.reads_iff {method : Method} :
    method.reads = true ↔ method = .get ∨ method = .head := by
  cases method <;> simp [reads]

def World.serveAll (settings : Settings) :
    World → List (Occasion × Request) → List Response × World
  | w, [] => ([], w)
  | w, (occasion, request) :: rest =>
    let (response, w) := w.serve settings occasion request
    let (responses, w) := serveAll settings w rest
    (response :: responses, w)

lemma BlobStore.heeds_location (store : BlobStore) (d : Digest) :
    (store.location d).Heeds Call.Spares := by
  refine Heeds.ask trivial (fun reply => (Heeds.unlessMissing reply).bind fun _ => heeds_known d _)
    fun e down grave => ?_
  change (Action.unlessMissing (.error e) >>= _) = _
  rw [Heeds.unlessMissing_fails grave]
  rfl

lemma LinkStore.heeds_location (links : LinkStore) (d : Digest) :
    (links.location d).Heeds Call.Spares := by
  unfold location
  split_ifs
  · exact (heeds_stat links d).bind fun _ => BlobStore.heeds_location _ _
  · exact .pure _

namespace Fetching

variable (r : Repository)

lemma heeds_resolve (reference : Reference) : (resolve r reference).Heeds Call.Spares := by
  cases reference with
  | digest d => exact .pure _
  | tag t =>
    refine (Tags.heeds_find? r.name t).bind fun found => ?_
    cases found with
    | some d => exact .pure _
    | none => exact .throw _

lemma heeds_blob (d : Digest) : (blob r d).Heeds Call.Spares := by
  refine (LinkStore.heeds_location _ d).bind fun location => ?_
  cases location with
  | some location => exact .pure _
  | none => exact (LinkStore.heeds_get _ d).bind fun _ => .pure _

lemma heeds_blobHeaders (d : Digest) : (blobHeaders r d).Heeds Call.Spares :=
  (LinkStore.heeds_stat _ d).bind fun _ => .pure _

lemma heeds_manifest (reference : Reference) : (manifest r reference).Heeds Call.Spares :=
  (heeds_resolve r reference).bind fun d => (Manifests.heeds_get r d).bind fun _ => .pure _

lemma heeds_manifestHeaders (reference : Reference) :
    (manifestHeaders r reference).Heeds Call.Spares :=
  (heeds_resolve r reference).bind fun d => (Manifests.heeds_get r d).bind fun _ => .pure _

lemma heeds_tags : (tags r).Heeds Call.Spares := (Tags.heeds_all r.name).bind fun _ => .pure _

end Fetching

lemma Uploads.heeds_status (r : Repository) (session : String) :
    (Uploads.status r session).Heeds Call.Spares := by
  refine (Heeds.liftExcept _).bind fun id => (Heeds.size? trivial).bind fun found => ?_
  cases found with
  | some size => exact (Heeds.pure size).bind fun _ => .pure _
  | none => exact .throw _

lemma Service.heeds_atRoute (settings : Settings) (occasion : Occasion) {request : Request}
    (reads : request.method.reads = true) (route : Route) :
    (atRoute settings occasion request route).Heeds Call.Spares := by
  have opened (name : RepositoryName) {f : Repository → Action Response}
      (hf : ∀ r, (f r).Heeds Call.Spares) : (inRepository settings name f).Heeds Call.Spares :=
    (Repository.heeds_openNamed settings name).bind hf
  have method := Method.reads_iff.1 reads
  cases route with
  | blob name d =>
    refine opened name fun r => ?_
    rcases method with method | method <;> simp only [method]
    · exact Fetching.heeds_blob r d
    · exact Fetching.heeds_blobHeaders r d
  | uploads name =>
    refine opened name fun r => ?_
    rcases method with method | method <;> simp only [method] <;> exact .pure _
  | upload name session =>
    refine opened name fun r => ?_
    rcases method with method | method <;> simp only [method]
    · exact (Uploads.heeds_status r session).bind fun _ => .pure _
    · exact .pure _
  | manifest name reference =>
    refine opened name fun r => ?_
    rcases method with method | method <;> simp only [method]
    · exact Fetching.heeds_manifest r reference
    · exact Fetching.heeds_manifestHeaders r reference
  | tags name =>
    refine opened name fun r => ?_
    rcases method with method | method <;> simp only [method]
    · exact Fetching.heeds_tags r
    · exact .pure _
  | housekeeping scope =>
    rcases method with method | method <;> simp only [atRoute, method] <;> exact .pure _

section Refusing

variable (r : Repository) (readOnly : Bool)

/-- The same repository, but for whether it refuses writes. -/
def Repository.refusing : Repository := { r with settings := r.settings.refusing readOnly }

lemma Repository.stat_blobs_refusing (d : Digest) :
    (r.refusing readOnly).blobs.stat d = r.blobs.stat d := by
  refine LinkStore.stat_congr ?_ ?_ ?_ ?_ ?_ d <;> rfl

lemma Repository.stat_manifests_refusing (d : Digest) :
    (r.refusing readOnly).manifests.stat d = r.manifests.stat d := by
  refine LinkStore.stat_congr ?_ ?_ ?_ ?_ ?_ d <;> rfl

namespace Fetching

lemma blob_refusing (d : Digest) : blob (r.refusing readOnly) d = blob r d := by
  have location : (r.refusing readOnly).blobs.location d = r.blobs.location d := by
    unfold LinkStore.location
    rw [r.stat_blobs_refusing readOnly]
    rfl
  have get : (r.refusing readOnly).blobs.get d = r.blobs.get d := by
    unfold LinkStore.get
    rw [r.stat_blobs_refusing readOnly]
    rfl
  rw [blob, blob, location, get]

lemma blobHeaders_refusing (d : Digest) :
    blobHeaders (r.refusing readOnly) d = blobHeaders r d := by
  rw [blobHeaders, blobHeaders, r.stat_blobs_refusing readOnly]

lemma get_refusing (d : Digest) : Manifests.get (r.refusing readOnly) d = Manifests.get r d := by
  have get : (r.refusing readOnly).manifests.get d = r.manifests.get d := by
    unfold LinkStore.get
    rw [r.stat_manifests_refusing readOnly]
    rfl
  rw [Manifests.get, Manifests.get, get]
  rfl

lemma manifest_refusing (reference : Reference) :
    manifest (r.refusing readOnly) reference = manifest r reference := by
  simp only [manifest, get_refusing]
  rfl

lemma manifestHeaders_refusing (reference : Reference) :
    manifestHeaders (r.refusing readOnly) reference = manifestHeaders r reference := by
  simp only [manifestHeaders, get_refusing]
  rfl

end Fetching

lemma Repository.openNamed_refusing (settings : Settings) (name : RepositoryName) :
    openNamed (settings.refusing readOnly) name =
      (·.refusing readOnly) <$> openNamed settings name := by
  unfold openNamed
  change (if settings.cached then _ else _) = _
  split_ifs
  · simp only [map_bind]
    refine bind_congr fun reply => ?_
    cases reply <;> rfl
  · rfl

lemma Service.atRoute_refusing (settings : Settings) (occasion : Occasion) {request : Request}
    (reads : request.method.reads = true) (route : Route) :
    atRoute (settings.refusing readOnly) occasion request route =
      atRoute settings occasion request route := by
  have opened (name : RepositoryName) {f : Repository → Action Response}
      (same : ∀ r : Repository, f (r.refusing readOnly) = f r) :
      inRepository (settings.refusing readOnly) name f = inRepository settings name f := by
    rw [inRepository, inRepository, Repository.openNamed_refusing, bind_map_left]
    exact bind_congr same
  have method := Method.reads_iff.1 reads
  cases route with
  | blob name d =>
    refine opened name fun r => ?_
    rcases method with method | method <;> simp only [method]
    · exact Fetching.blob_refusing r readOnly d
    · exact Fetching.blobHeaders_refusing r readOnly d
  | uploads name =>
    refine opened name fun r => ?_
    rcases method with method | method <;> simp only [method]
  | upload name session =>
    refine opened name fun r => ?_
    rcases method with method | method <;> simp only [method]
    rfl
  | manifest name reference =>
    refine opened name fun r => ?_
    rcases method with method | method <;> simp only [method]
    · exact Fetching.manifest_refusing r readOnly reference
    · exact Fetching.manifestHeaders_refusing r readOnly reference
  | tags name =>
    refine opened name fun r => ?_
    rcases method with method | method <;> simp only [method]
    rfl
  | housekeeping scope =>
    rcases method with method | method <;> simp [atRoute, method]

lemma World.serve_refusing (w : World) (settings : Settings) (occasion : Occasion)
    {request : Request} (reads : request.method.reads = true) :
    w.serve (settings.refusing readOnly) occasion request =
      w.serve settings occasion request := by
  have same (path : String) : Service.belowRoot (settings.refusing readOnly) occasion request path =
      Service.belowRoot settings occasion request path := by
    unfold Service.belowRoot
    simp only [Service.atRoute_refusing readOnly settings occasion reads]
  rw [serve, serve, Service.answer, Service.answer, Service.handle, Service.handle]
  simp only [same]

end Refusing

section Refused

variable {settings : Settings} (refuses : settings.readOnly = true)

include refuses

lemma Settings.run_checkWritable (w : World) :
    w.run settings.checkWritable = (.error .readOnly, w) := by
  rw [checkWritable, if_pos refuses]
  rfl

omit refuses in
lemma World.run_openNamed (w : World) (settings : Settings) (name : RepositoryName) :
    (∃ e, w.run (Repository.openNamed settings name) = (.error e, w)) ∨
      w.run (Repository.openNamed settings name) = (.ok ⟨settings, name⟩, w) := by
  unfold Repository.openNamed
  split_ifs
  · have asked : w.answer (.openCache name) = (w.cache.openFor name, w) := rfl
    rw [run_bind, run_call, asked]
    cases w.cache.openFor name with
    | ok _ => exact .inr rfl
    | error e => exact .inl ⟨e, rfl⟩
  · exact .inr rfl

variable {name : RepositoryName} (w : World)

lemma Pushing.run_start (occasion : Occasion) (request : Request) :
    w.run (start ⟨settings, name⟩ occasion request) = (.error .readOnly, w) := by
  rw [start, run_bind, Settings.run_checkWritable refuses]

lemma Pushing.run_append (session : String) (request : Request) :
    w.run (append ⟨settings, name⟩ session request) = (.error .readOnly, w) := by
  rw [append, run_bind, Settings.run_checkWritable refuses]

lemma Pushing.run_complete (session : String) (request : Request) :
    (w.run (complete ⟨settings, name⟩ session request)).2 = w := by
  rw [complete, run_bind, run_liftExcept]
  cases statedDigest request with
  | error e => rfl
  | ok d => simp only [run_bind, Settings.run_checkWritable refuses]

lemma Pushing.run_manifest (occasion : Occasion) (reference : Reference) (request : Request) :
    (w.run (manifest ⟨settings, name⟩ occasion reference request)).2 = w := by
  rw [manifest, run_bind, run_orFail]
  cases Manifest.ofPayload (request.header? "content-type") request.body with
  | error e => rfl
  | ok m =>
    simp only [Except.mapError, run_bind, run_liftExcept]
    cases tagFor m reference with
    | error e => rfl
    | ok tag => simp only [Settings.run_checkWritable refuses]

lemma Removing.run_blob (d : Digest) :
    w.run (blob ⟨settings, name⟩ d) = (.error .readOnly, w) := by
  rw [blob, run_bind, Settings.run_checkWritable refuses]

lemma Removing.run_manifest (reference : Reference) :
    (w.run (manifest ⟨settings, name⟩ reference)).2 = w := by
  cases reference with
  | tag t => rfl
  | digest d => rw [manifest, run_bind, Settings.run_checkWritable refuses]

lemma Removing.run_upload (session : String) :
    w.run (upload ⟨settings, name⟩ session) = (.error .readOnly, w) := by
  rw [upload, run_bind, Settings.run_checkWritable refuses]

lemma Service.run_atRoute (occasion : Occasion) {request : Request}
    (writes : request.method.reads = false) (route : Route) :
    (w.run (atRoute settings occasion request route)).2 = w := by
  have opened (name : RepositoryName) {f : Repository → Action Response}
      (idle : (w.run (f ⟨settings, name⟩)).2 = w) :
      (w.run (inRepository settings name f)).2 = w := by
    rw [inRepository, run_bind]
    rcases w.run_openNamed settings name with ⟨e, ran⟩ | ran <;> rw [ran]
    exact idle
  cases route with
  | blob name d =>
    refine opened name ?_
    cases method : request.method with
    | get | head => rw [method] at writes; cases writes
    | delete => exact congrArg Prod.snd (Removing.run_blob refuses w d)
    | _ => rfl
  | uploads name =>
    refine opened name ?_
    cases method : request.method with
    | get | head => rw [method] at writes; cases writes
    | post => exact congrArg Prod.snd (Pushing.run_start refuses w occasion request)
    | _ => rfl
  | upload name session =>
    refine opened name ?_
    cases method : request.method with
    | get | head => rw [method] at writes; cases writes
    | patch => exact congrArg Prod.snd (Pushing.run_append refuses w session request)
    | put => exact Pushing.run_complete refuses w session request
    | delete => exact congrArg Prod.snd (Removing.run_upload refuses w session)
    | _ => rfl
  | manifest name reference =>
    refine opened name ?_
    cases method : request.method with
    | get | head => rw [method] at writes; cases writes
    | put => exact Pushing.run_manifest refuses w occasion reference request
    | delete => exact Removing.run_manifest refuses w reference
    | _ => rfl
  | tags name =>
    refine opened name ?_
    cases method : request.method with
    | get | head => rw [method] at writes; cases writes
    | _ => rfl
  | housekeeping scope =>
    rw [atRoute, if_neg (by simp [refuses])]
    rfl

end Refused

namespace World

lemma serve_writing (w : World) {settings : Settings} (refuses : settings.readOnly = true)
    (occasion : Occasion) {request : Request} (writes : request.method.reads = false) :
    (w.serve settings occasion request).2 = w := by
  rcases w.serve_cases settings occasion request with same | ⟨route, -, -, same, -⟩
  · exact same
  · exact same.trans (Service.run_atRoute refuses w occasion writes route)

lemma serve_reading (w : World) (settings : Settings) (occasion : Occasion) {request : Request}
    (reads : request.method.reads = true) :
    (w.serve settings occasion request).2.backend = w.backend ∧
      (w.serve settings occasion request).2.bucket = w.bucket := by
  rcases w.serve_cases settings occasion request with same | ⟨route, -, -, same, -⟩
  · rw [same]
    exact ⟨rfl, rfl⟩
  · rw [same]
    exact kept_of_heeds (Service.heeds_atRoute settings occasion reads route) w

/-- A registry that refuses writes leaves the storage as it is, whatever it is asked. What it
answers to the requests that read is what it would answer if it took writes, and got no other
requests; and so is the next answer to such a request. -/
theorem serveAll_readOnly (settings : Settings) (w : World)
    (requests : List (Occasion × Request)) :
    let refusing := w.serveAll (settings.refusing true) requests
    let reading := w.serveAll (settings.refusing false) (requests.filter (·.2.method.reads))
    refusing.2.backend = w.backend ∧ refusing.2.bucket = w.bucket ∧
      refusing.2 = reading.2 ∧
      ((requests.zip refusing.1).filter (·.1.2.method.reads)).map Prod.snd = reading.1 ∧
      ∀ (occasion : Occasion) (request : Request), request.method.reads = true →
        refusing.2.serve (settings.refusing true) occasion request =
          refusing.2.serve (settings.refusing false) occasion request := by
  have alike (w : World) (occasion : Occasion) {request : Request}
      (reads : request.method.reads = true) : w.serve (settings.refusing true) occasion request =
        w.serve (settings.refusing false) occasion request :=
    (w.serve_refusing true settings occasion reads).trans
      (w.serve_refusing false settings occasion reads).symm
  refine and_assoc.1 (and_assoc.1 (and_assoc.1 ⟨?_, fun occasion request => alike _ occasion⟩))
  induction requests generalizing w with
  | nil => exact ⟨⟨⟨rfl, rfl⟩, rfl⟩, rfl⟩
  | cons first rest ih =>
    obtain ⟨occasion, request⟩ := first
    obtain ⟨⟨⟨backend, bucket⟩, same⟩, answers⟩ :=
      ih (w.serve (settings.refusing true) occasion request).2
    cases reads : request.method.reads with
    | true =>
      obtain ⟨backend', bucket'⟩ := w.serve_reading (settings.refusing true) occasion reads
      simp only [serveAll, List.zip_cons_cons, List.filter_cons, reads, if_true, List.map_cons]
      rw [backend, bucket, backend', bucket', same, answers, alike w occasion reads]
      exact ⟨⟨⟨rfl, rfl⟩, rfl⟩, rfl⟩
    | false =>
      have idle : (w.serve (settings.refusing true) occasion request).2 = w :=
        w.serve_writing rfl occasion reads
      rw [idle] at backend bucket same answers
      simp only [serveAll, List.zip_cons_cons, List.filter_cons, reads, Bool.false_eq_true,
        if_false, idle]
      exact ⟨⟨⟨backend, bucket⟩, same⟩, answers⟩

/-- A registry that refuses writes is asked to take a manifest and to collect garbage, and then
lists its tags as if it took writes. -/
theorem pushedManifest_refused :
    let settings : Settings := { scheme := Ed25519.scheme, reader := .plain }
    let occasion : Occasion := ⟨⟨List.replicate 32 '0', by decide, by decide⟩, "", ""⟩
    let push : Request := { method := .put, path := "/v2/library/app/manifests/latest" }
    let collect : Request := { method := .delete, path := "/v2/_housekeeping" }
    let tags : Request := { method := .get, path := "/v2/library/app/tags/list" }
    let w : World := { backend := .memory (.ofBuckets ["registry"]), bucket := "registry" }
    let w' := (w.serveAll (settings.refusing true) [(occasion, push), (occasion, collect)]).2
    w'.backend = w.backend ∧
      w'.serve (settings.refusing true) occasion tags =
        w'.serve (settings.refusing false) occasion tags := by
  intro settings occasion push collect tags w w'
  obtain ⟨backend, -, -, -, alike⟩ :=
    serveAll_readOnly settings w [(occasion, push), (occasion, collect)]
  exact ⟨backend, alike occasion tags rfl⟩

end World
end ImageRegistry
