import ImageRegistry.Crypto.Ed25519
import ImageRegistry.Location.WebLocation
import ImageRegistry.Proofs.Http.Serving
import ImageRegistry.Proofs.Registry.Confinement

/-! How far requests reach. A request at a route of a repository changes nothing outside of the
repository, except that it adds contents to the shared store under their own digests. -/

namespace ImageRegistry

open World ImageRegistry.Action

section

variable {r : Repository}

lemma Settings.confines_checkWritable {n : RepositoryName} (settings : Settings) :
    settings.checkWritable.Confines n fun _ => True := by
  unfold Settings.checkWritable
  split_ifs
  · exact .throw _
  · exact .pure trivial

namespace Fetching

lemma confines_resolve (reference : Reference) :
    (resolve r reference).Confines r.name fun _ => True := by
  cases reference with
  | digest d => exact .pure trivial
  | tag t =>
    refine (Tags.confines_find? t).bind fun found _ => ?_
    cases found with
    | none => exact .throw _
    | some d => exact .pure trivial

lemma confines_blob (d : Digest) : (blob r d).Confines r.name fun _ => True := by
  refine (r.blobs.confines_location d).bind fun location _ => ?_
  cases location with
  | none => exact (r.blobs.confines_get d).bind fun _ _ => .pure trivial
  | some location => exact .pure trivial

lemma confines_blobHeaders (d : Digest) : (blobHeaders r d).Confines r.name fun _ => True :=
  (r.blobs.confines_stat d).bind fun _ _ => .pure trivial

lemma confines_manifest (reference : Reference) :
    (manifest r reference).Confines r.name fun _ => True :=
  (confines_resolve reference).bind fun d _ => (Manifests.confines_get d).bind fun _ _ =>
    .pure trivial

lemma confines_manifestHeaders (reference : Reference) :
    (manifestHeaders r reference).Confines r.name fun _ => True :=
  (confines_resolve reference).bind fun d _ => (Manifests.confines_get d).bind fun _ _ =>
    .pure trivial

lemma confines_tags : (tags r).Confines r.name fun _ => True :=
  Tags.confines_all.bind fun _ _ => .pure trivial

end Fetching

namespace Pushing

lemma confines_start (occasion : Occasion) (request : Request) :
    (start r occasion request).Confines r.name fun _ => True := by
  refine r.settings.confines_checkWritable.bind fun _ _ =>
    (Confines.liftExcept fun _ _ => trivial).bind fun stated (_ : True) => ?_
  cases stated with
  | some d => exact (Uploads.confines_whole d _).bind fun _ _ => .pure trivial
  | none => exact (Uploads.confines_start _ _).bind fun _ _ => .pure trivial

lemma confines_status (session : String) : (status r session).Confines r.name fun _ => True :=
  (Uploads.confines_status session).bind fun _ _ => .pure trivial

lemma confines_append (session : String) (request : Request) :
    (append r session request).Confines r.name fun _ => True :=
  r.settings.confines_checkWritable.bind fun _ _ =>
    (Uploads.confines_append session _).bind fun _ _ => .pure trivial

lemma confines_complete (session : String) (request : Request) :
    (complete r session request).Confines r.name fun _ => True :=
  (Confines.liftExcept fun _ _ => trivial).bind fun d (_ : True) =>
    r.settings.confines_checkWritable.bind fun _ _ =>
      (Uploads.confines_commit session d _).bind fun _ _ => .pure trivial

lemma confines_manifest (occasion : Occasion) (reference : Reference) (request : Request) :
    (manifest r occasion reference request).Confines r.name fun _ => True :=
  Confines.orFail.bind fun m _ => (Confines.liftExcept fun _ _ => trivial).bind
    fun tag (_ : True) => r.settings.confines_checkWritable.bind fun _ _ =>
      (Manifests.confines_put _ m tag).bind fun _ _ => .pure trivial

end Pushing

namespace Removing

lemma confines_blob (d : Digest) : (blob r d).Confines r.name fun _ => True :=
  r.settings.confines_checkWritable.bind fun _ _ =>
    (r.blobs.confines_delete d).bind fun _ _ => .pure trivial

lemma confines_manifest (reference : Reference) :
    (manifest r reference).Confines r.name fun _ => True := by
  cases reference with
  | tag t => exact .throw _
  | digest d =>
    exact r.settings.confines_checkWritable.bind fun _ _ =>
      (Manifests.confines_delete d).bind fun _ _ => .pure trivial

lemma confines_upload (session : String) : (upload r session).Confines r.name fun _ => True :=
  r.settings.confines_checkWritable.bind fun _ _ =>
    (Uploads.confines_cancel session).bind fun _ _ => .pure trivial

lemma confines_garbage (settings : Settings) (n : RepositoryName) :
    (garbage settings (some n)).Confines n fun _ => True :=
  ((Collector.confines_runRepository settings).bind fun _ _ => .pure trivial).tryCatch
    fun _ => .pure trivial

end Removing

end

/-- The repository that a route is about, if it is about one. -/
def Route.repository? : Route → Option RepositoryName
  | housekeeping repository => repository
  | tags n | uploads n | upload n _ | blob n _ | manifest n _ => some n

theorem Service.confines_atRoute (settings : Settings) (occasion : Occasion) (request : Request)
    {route : Route} {n : RepositoryName} (about : route.repository? = some n) :
    (atRoute settings occasion request route).Confines n fun _ => True := by
  have opened {f : Repository → Action Response}
      (each : ∀ r : Repository, (f r).Confines r.name fun _ => True) :
      (inRepository settings n f).Confines n fun _ => True :=
    (Repository.confines_openNamed settings n).bind fun r ⟨_, named⟩ => named ▸ each r
  cases route with
  | housekeeping scope =>
    obtain rfl : scope = some n := about
    unfold atRoute
    split_ifs
    · exact Removing.confines_garbage settings n
    · exact .pure trivial
  | blob m d =>
    obtain rfl := Option.some.inj about
    refine opened fun r => ?_
    split
    · exact Fetching.confines_blob d
    · exact Fetching.confines_blobHeaders d
    · exact Removing.confines_blob d
    · exact .pure trivial
  | uploads m =>
    obtain rfl := Option.some.inj about
    refine opened fun r => ?_
    split
    · exact Pushing.confines_start occasion request
    · exact .pure trivial
  | upload m session =>
    obtain rfl := Option.some.inj about
    refine opened fun r => ?_
    split
    · exact Pushing.confines_status session
    · exact Pushing.confines_append session request
    · exact Pushing.confines_complete session request
    · exact Removing.confines_upload session
    · exact .pure trivial
  | manifest m reference =>
    obtain rfl := Option.some.inj about
    refine opened fun r => ?_
    split
    · exact Fetching.confines_manifest reference
    · exact Fetching.confines_manifestHeaders reference
    · exact Pushing.confines_manifest occasion reference request
    · exact Removing.confines_manifest reference
    · exact .pure trivial
  | tags m =>
    obtain rfl := Option.some.inj about
    refine opened fun r => ?_
    split
    · exact Fetching.confines_tags
    · exact .pure trivial

lemma Bucket.Within.exists_isName {n : RepositoryName} {b b' : Bucket} (plain : b.IsPlain)
    (within : b.Within n b') {cs : List Component} (changed : b'[cs]? ≠ b[cs]?) :
    ∀ c ∈ cs, ∃ s, c = .name s ∧ Path.IsName s := by
  have written {b : Bucket} (plain : b.IsPlain) {stored : Stored} (found : b[cs]? = some stored) :
      ∀ c ∈ cs, ∃ s, c = .name s ∧ Path.IsName s := by
    obtain ⟨rfl, spelling⟩ := plain cs stored found
    exact fun c mem => spelling.exists_isName mem
  cases before : b[cs]? with
  | some stored => exact written plain before
  | none =>
    cases after : b'[cs]? with
    | some stored => exact written within.plain after
    | none => exact absurd (after.trans before.symm) changed

/-- A request at a route of a repository, whatever the bucket holds under plain keys and the cache
tells, changes only keys below the parts of the repository, and contents that were missing from the
shared store and have the digest under which they are stored. So no other repository and nothing
that was in the shared store is changed, and all keys stay plain. -/
theorem World.serve_confined (s : Site) {b : Bucket} (plain : b.IsPlain) (cache : DescriptorCache)
    (settings : Settings) (occasion : Occasion) {request : Request} {route : Route}
    (found : request.route? = some route) {n : RepositoryName}
    (about : route.repository? = some n) : ∃ b' cache',
    ((s.world b cache).serve settings occasion request).2 = s.world b' cache' ∧ b'.IsPlain ∧
    (∀ cs, b'[cs]? ≠ b[cs]? → (∀ c ∈ cs, ∃ name, c = .name name ∧ Path.IsName name) ∧
      (Layout.Owns n cs ∨
        ∃ stored, cs = (Record.blob .shared (.ofContent stored.content)).key.components ∧
          b[cs]? = none ∧ b'[cs]? = some stored)) ∧
    (∀ m ≠ n, ∀ cs, Layout.Owns m cs → b'[cs]? = b[cs]?) ∧
    ∀ cs, (Layout.blobs .shared).components <+: cs → b[cs]? ≠ none → b'[cs]? = b[cs]? := by
  obtain ⟨b', cache', left, within⟩ : ∃ b' cache',
      ((s.world b cache).serve settings occasion request).2 = s.world b' cache' ∧
        b.Within n b' := by
    rw [serve_of_route? _ settings occasion found]
    split_ifs
    · obtain ⟨x, b', cache', ran, within, -⟩ :=
        Service.confines_atRoute settings occasion request about s b cache plain
      exact ⟨b', cache', congrArg Prod.snd ran, within⟩
    · exact ⟨b, cache, rfl, plain.within n⟩
  refine ⟨b', cache', left, within.plain,
    fun cs changed => ⟨within.exists_isName plain changed, within.changes cs changed⟩,
    fun m other cs owns => ?_, fun cs shared held => ?_⟩
  · by_contra changed
    rcases within.changes cs changed with owns' | ⟨stored, atBlob, -⟩
    · exact other (owns.eq owns')
    · rw [atBlob] at owns
      exact owns.not_shared (Layout.shared_below_key _)
  · by_contra changed
    rcases within.changes cs changed with owns | ⟨stored, -, missing, -⟩
    · exact owns.not_shared shared
    · exact held missing

/-- Where there is a tag that could not be assigned, a repository keeps its links when garbage is
collected in the one below which it is named. -/
theorem nestedGarbage_confined :
    let outer : RepositoryName := ⟨"library", RepositoryName.accepts_library⟩
    let inner : RepositoryName := ⟨"library/app", RepositoryName.accepts_libraryApp⟩
    let link : Record := .link .layer inner (.ofContent [])
    let odd : Path := ⟨"docker/registry/v2/repositories/library/_manifests/tags/..x/current/link"⟩
    let b : Bucket := ((∅ : Bucket).put odd []).put link.key []
    let request : Request := { method := .delete, path := "/v2/library/_housekeeping" }
    let settings : Settings := { scheme := Ed25519.scheme, reader := .plain }
    let occasion : Occasion := ⟨⟨List.replicate 32 '0', by decide, by decide⟩, "", ""⟩
    b.IsPlain ∧ request.route? = some (.housekeeping (some outer)) ∧ ∃ b' cache',
      (((⟨"registry", ∅, none⟩ : Site).world b .empty).serve settings occasion request).2 =
        (⟨"registry", ∅, none⟩ : Site).world b' cache' ∧
      b'[link.key.components]? = b[link.key.components]? := by
  intro outer inner link odd b request settings occasion
  have plainOdd : odd.IsPlain := by decide +kernel
  have plain : b.IsPlain :=
    (Bucket.isPlain_empty.put plainOdd []).put (Record.isPlain_key (r := link) trivial) []
  have found : request.route? = some (.housekeeping (some outer)) := by decide +kernel
  have different : inner ≠ outer := by decide +kernel
  obtain ⟨b', cache', left, -, -, others, -⟩ := World.serve_confined ⟨"registry", ∅, none⟩ plain
    .empty settings occasion found rfl
  exact ⟨plain, found, b', cache', left,
    others inner different _ (Layout.owns_key (r := link) trivial rfl)⟩

end ImageRegistry
