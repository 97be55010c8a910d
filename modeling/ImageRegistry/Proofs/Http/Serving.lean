import ImageRegistry.Http.Service
import ImageRegistry.Proofs.Registry.Making

/-! What requests change. A request that is not for garbage makes changes, and a manifest that is
pushed is stored only if it is accepted. -/

namespace ImageRegistry

open World ImageRegistry.Action

variable {settings : Settings} {P : Digest → Prop}

section Requests

variable {r : Repository} (same : r.settings = settings)

lemma Settings.makes_checkWritable (settings' : Settings) :
    settings'.checkWritable.Makes settings P fun _ => True := by
  unfold Settings.checkWritable
  split_ifs
  · exact .throw _
  · exact .pure trivial

lemma Fetching.makes_resolve (reference : Reference) :
    (Fetching.resolve r reference).Makes settings P fun _ => True := by
  cases reference with
  | digest d => exact .pure trivial
  | tag t =>
    refine (Tags.makes_find? r.name t).bind fun found _ => ?_
    cases found with
    | none => exact .throw _
    | some d => exact .pure trivial

include same

lemma Fetching.makes_blob (d : Digest) : (Fetching.blob r d).Makes settings P fun _ => True := by
  refine (LinkStore.makes_location same d).bind fun location _ => ?_
  cases location with
  | none => exact (LinkStore.makes_get same d).bind fun _ _ => .pure trivial
  | some location => exact .pure trivial

lemma Fetching.makes_blobHeaders (d : Digest) :
    (Fetching.blobHeaders r d).Makes settings P fun _ => True :=
  (LinkStore.makes_stat same d).bind fun _ _ => .pure trivial

lemma Fetching.makes_manifest (reference : Reference) :
    (Fetching.manifest r reference).Makes settings P fun _ => True :=
  (makes_resolve reference).bind fun d _ => (Manifests.makes_get same d).bind fun _ _ =>
    .pure trivial

lemma Fetching.makes_manifestHeaders (reference : Reference) :
    (Fetching.manifestHeaders r reference).Makes settings P fun _ => True :=
  (makes_resolve reference).bind fun d _ => (Manifests.makes_get same d).bind fun _ _ =>
    .pure trivial

omit same in
lemma Fetching.makes_tags : (Fetching.tags r).Makes settings P fun _ => True :=
  (Tags.makes_all r.name).bind fun _ _ => .pure trivial

lemma Pushing.makes_start (occasion : Occasion) (request : Request) :
    (Pushing.start r occasion request).Makes settings P fun _ => True := by
  refine (Settings.makes_checkWritable _).bind fun _ _ =>
    (Makes.liftExcept fun _ _ => trivial).bind fun stated (_ : True) => ?_
  cases stated with
  | some d => exact (Uploads.makes_whole same d _).bind fun _ _ => .pure trivial
  | none => exact (Uploads.makes_start r _ _).bind fun _ _ => .pure trivial

omit same in
lemma Pushing.makes_status (session : String) :
    (Pushing.status r session).Makes settings P fun _ => True :=
  (Uploads.makes_status r session).bind fun _ _ => .pure trivial

omit same in
lemma Pushing.makes_append (session : String) (request : Request) :
    (Pushing.append r session request).Makes settings P fun _ => True :=
  (Settings.makes_checkWritable _).bind fun _ _ =>
    (Uploads.makes_append r session _).bind fun _ _ => .pure trivial

lemma Pushing.makes_complete (session : String) (request : Request) :
    (Pushing.complete r session request).Makes settings P fun _ => True :=
  (Makes.liftExcept fun _ _ => trivial).bind fun d (_ : True) =>
    (Settings.makes_checkWritable _).bind fun _ _ =>
      (Uploads.makes_commit same session d _).bind fun _ _ => .pure trivial

lemma Pushing.makes_manifest (occasion : Occasion) (reference : Reference) {request : Request}
    (good : ∀ m m', Manifest.ofPayload (request.header? "content-type") request.body = .ok m →
      Manifests.PreparesTo settings occasion.signTime m m' → P m'.digest) :
    (Pushing.manifest r occasion reference request).Makes settings P fun _ => True := by
  refine (Makes.orFail fun m read => read).bind fun m read =>
    (Makes.liftExcept fun _ _ => trivial).bind fun tag (_ : True) =>
      (Settings.makes_checkWritable _).bind fun _ _ =>
        (Manifests.makes_put same _ tag fun m' prepared => good m m' read prepared).bind
          fun _ _ => .pure trivial

lemma Removing.makes_blob (d : Digest) : (Removing.blob r d).Makes settings P fun _ => True :=
  (Settings.makes_checkWritable _).bind fun _ _ =>
    (LinkStore.makes_delete same d).bind fun _ _ => .pure trivial

lemma Removing.makes_manifest (reference : Reference) :
    (Removing.manifest r reference).Makes settings P fun _ => True := by
  cases reference with
  | tag t => exact .throw _
  | digest d =>
    exact (Settings.makes_checkWritable _).bind fun _ _ =>
      (Manifests.makes_delete same d).bind fun _ _ => .pure trivial

omit same in
lemma Removing.makes_upload (session : String) :
    (Removing.upload r session).Makes settings P fun _ => True :=
  (Settings.makes_checkWritable _).bind fun _ _ =>
    (Uploads.makes_cancel r session).bind fun _ _ => .pure trivial

end Requests

/-- The route of a request, if its path has one. -/
def Request.route? (request : Request) : Option Route := do
  let below ← Route.root.toList.isPrefixOf? request.path.toList
  let path ← (Percent.decode (Octets.ofText (String.ofList below))).toText?
  (Route.ofPath path).toOption.join

def Response.ofReply : Except RegistryError Response → Response
  | .ok response => response
  | .error e => .ofError e

lemma World.run_respond (w : World) (a : Action Response) :
    (Service.respond a).run answer w = (Response.ofReply (w.run a).1, (w.run a).2) := by
  rw [Service.respond, Program.bind_eq, Program.run_andThen]
  unfold World.run Action.run
  generalize Program.run answer (ExceptT.run a) w = p
  obtain ⟨x | x, w'⟩ := p <;> rfl

lemma World.serve_eq (w : World) (settings : Settings) (occasion : Occasion) (request : Request) :
    w.serve settings occasion request =
      (((Service.handle settings occasion request).run answer w).1.sent request.method,
        ((Service.handle settings occasion request).run answer w).2) := by
  rw [serve, Service.answer, Program.bind_eq, Program.run_andThen]
  rfl

theorem World.serve_of_route? (w : World) (settings : Settings) (occasion : Occasion)
    {request : Request} {route : Route} (found : request.route? = some route) :
    w.serve settings occasion request =
      if request.body.length ≤ Request.maxBody then
        ((Response.ofReply (w.run (Service.atRoute settings occasion request route)).1).sent
            request.method, (w.run (Service.atRoute settings occasion request route)).2)
      else ((Response.ofMessage 413
        "Failed to buffer the request body: length limit exceeded").sent request.method, w) := by
  obtain ⟨below, hb, found⟩ := Option.bind_eq_some_iff.1 found
  obtain ⟨path, hp, found⟩ := Option.bind_eq_some_iff.1 found
  have hr : Route.ofPath path = .ok (some route) := by
    cases hr : Route.ofPath path with
    | error e => rw [hr] at found; cases found
    | ok found' =>
      rw [hr] at found
      exact congrArg Except.ok (Option.some.inj (Option.join_eq_some_iff.1 found))
  rw [serve_eq, Service.handle, hb]
  cases below with
  | nil =>
    -- there is no route at the root
    have empty : (Percent.decode (Octets.ofText (String.ofList []))).toText? = some "" := by
      decide +kernel
    obtain rfl : path = "" := Option.some.inj (hp.symm.trans empty)
    cases hr
  | cons c below =>
    simp only [hp]
    split_ifs with small
    · rw [run_respond, Service.belowRoot, run_bind, run_liftExcept, hr]
    · rfl

/-- A request is answered without any change, or at its route, where it gets the response that the
action there comes to. -/
lemma World.serve_cases (w : World) (settings : Settings) (occasion : Occasion)
    (request : Request) :
    (w.serve settings occasion request).2 = w ∨ ∃ route, request.route? = some route ∧
      request.body.length ≤ Request.maxBody ∧
      (w.serve settings occasion request).2 =
        (w.run (Service.atRoute settings occasion request route)).2 ∧
      ∀ response, (w.run (Service.atRoute settings occasion request route)).1 = .ok response →
        (w.serve settings occasion request).1.status = response.status := by
  cases found : request.route? with
  | some route =>
    rw [serve_of_route? w settings occasion found]
    split_ifs with small
    · refine .inr ⟨route, rfl, small, rfl, fun response ran => ?_⟩
      rw [ran]
      rfl
    · exact .inl rfl
  | none =>
    left
    rw [serve_eq, Service.handle]
    cases hb : Route.root.toList.isPrefixOf? request.path.toList with
    | none => rfl
    | some below =>
      cases below with
      | nil => rfl
      | cons c below =>
        simp only
        cases hp : (Percent.decode (Octets.ofText (String.ofList (c :: below)))).toText? with
        | none => rfl
        | some path =>
          simp only
          split_ifs with small
          · rw [run_respond, Service.belowRoot, run_bind, run_liftExcept]
            rw [Request.route?, hb, Option.bind_eq_bind, Option.bind_some, hp,
              Option.bind_eq_bind, Option.bind_some] at found
            cases hr : Route.ofPath path with
            | error e => rfl
            | ok found' =>
              rw [hr] at found
              obtain rfl : found' = none := found
              rfl
          · rfl

lemma Reference.accepts_of_read {text t : String} (h : read text = .ok (.tag t)) :
    TagName.accepts t = true := by
  unfold read at h
  split_ifs at h
  · cases found : Digest.read text <;> (rw [found] at h; cases h)
  · by_cases accepted : TagName.accepts text = true
    · rw [TagName.check, if_pos accepted] at h
      cases h
      exact accepted
    · rw [TagName.check, if_neg accepted] at h
      cases h

namespace Route

lemma ne_manifest_of_map {α : Type} {x : Except RegistryError α} {f : α → Route}
    {name : RepositoryName} {reference : Reference} (other : ∀ a, f a ≠ manifest name reference) :
    (fun a => some (f a)) <$> x ≠ .ok (some (manifest name reference)) := by
  intro h
  cases x with
  | error e => cases h
  | ok a => exact other a (Option.some.inj (Except.ok.inj h))

lemma accepts_of_ofItem {folder : List Char} {last t : String} {name : RepositoryName}
    (h : ofItem folder last = .ok (some (manifest name (.tag t)))) : TagName.accepts t = true := by
  unfold ofItem at h
  split at h
  · exact absurd h (ne_manifest_of_map fun _ => nofun)
  split at h
  · next below _ =>
    cases hn : readName below <;> cases hd : Digest.read last <;>
      (simp only [hn, hd, bind, Except.bind, pure, Except.pure] at h; cases h)
  split at h
  · next below _ =>
    cases hn : readName below with
    | error e => simp only [hn, bind, Except.bind] at h; cases h
    | ok n =>
      cases hr : Reference.read last with
      | error e => simp only [hn, hr, bind, Except.bind] at h; cases h
      | ok reference =>
        simp only [hn, hr, bind, Except.bind, pure, Except.pure] at h
        cases h
        exact Reference.accepts_of_read hr
  · cases h

lemma accepts_of_ofPath {path t : String} {name : RepositoryName}
    (h : ofPath path = .ok (some (manifest name (.tag t)))) : TagName.accepts t = true := by
  unfold ofPath ofChars at h
  split_ifs at h
  · cases h
  split at h
  · exact absurd h (ne_manifest_of_map fun _ => nofun)
  split at h
  · exact absurd h (ne_manifest_of_map fun _ => nofun)
  split at h
  · exact absurd h (ne_manifest_of_map fun _ => nofun)
  split at h
  · cases h
  · cases h
  · exact accepts_of_ofItem h

end Route

lemma Request.accepts_of_route? {request : Request} {name : RepositoryName} {t : String}
    (h : request.route? = some (.manifest name (.tag t))) : TagName.accepts t = true := by
  obtain ⟨below, _, h⟩ := Option.bind_eq_some_iff.1 h
  obtain ⟨path, _, h⟩ := Option.bind_eq_some_iff.1 h
  cases found : Route.ofPath path with
  | error e => rw [found] at h; cases h
  | ok route =>
    rw [found] at h
    obtain rfl := Option.some.inj (Option.join_eq_some_iff.1 h)
    exact Route.accepts_of_ofPath found

lemma Pushing.eq_tag_of_tagFor {m : Manifest} {reference : Reference} {t : String}
    (named : tagFor m reference = .ok (some t)) : reference = .tag t := by
  cases reference with
  | tag t' =>
    cases named
    rfl
  | digest d =>
    rw [tagFor] at named
    split_ifs at named
    cases named

lemma Pushing.accepts_of_tagFor {m : Manifest} {reference : Reference} {tag : Option String}
    (accepted : ∀ t, reference = .tag t → TagName.accepts t = true)
    (named : tagFor m reference = .ok tag) : ∀ t, tag = some t → TagName.accepts t = true := by
  rintro t rfl
  exact accepted t (eq_tag_of_tagFor named)

def Pushing.manifestCreated (r : Repository) (descriptor : Descriptor) : Response where
  status := 201
  location := some (Route.manifest r.name (.digest descriptor.digest)).location
  digest := some descriptor.digest

lemma Pushing.run_manifest_cases (w : World) (r : Repository) (occasion : Occasion)
    (reference : Reference) (request : Request) :
    (∃ e, w.run (Pushing.manifest r occasion reference request) = (.error e, w)) ∨
    ∃ m tag, Manifest.ofPayload (request.header? "content-type") request.body = .ok m ∧
      tagFor m reference = .ok tag ∧
      w.run (Pushing.manifest r occasion reference request) =
        w.run (manifestCreated r <$> Manifests.put r occasion.signTime m tag) := by
  rw [Pushing.manifest, run_bind, run_orFail]
  cases read : Manifest.ofPayload (request.header? "content-type") request.body with
  | error e => exact .inl ⟨_, rfl⟩
  | ok m =>
    simp only [Except.mapError, run_bind, run_liftExcept]
    cases named : tagFor m reference with
    | error e => exact .inl ⟨_, rfl⟩
    | ok tag =>
      unfold Settings.checkWritable
      split_ifs with readOnly
      · exact .inl ⟨_, rfl⟩
      · refine .inr ⟨m, tag, rfl, named, ?_⟩
        simp only [run_pure, run_map]
        rfl

lemma Pushing.manifest_cases {r : Repository} (same : r.settings = settings) (occasion : Occasion)
    (reference : Reference) (accepted : ∀ t, reference = .tag t → TagName.accepts t = true)
    (request : Request) (s : Site) {h : Holdings} (sound : h.IsSound) :
    ∃ x h', (s.world h.bucket h.cache).run (Pushing.manifest r occasion reference request) =
        (x, s.world h'.bucket h'.cache) ∧
      (Changes settings (fun _ => False) h h' ∨ ∃ response m m', x = .ok response ∧
        response.status = 201 ∧
        Manifest.ofPayload (request.header? "content-type") request.body = .ok m ∧
        Manifests.PreparesTo settings occasion.signTime m m' ∧
        ∀ P : Digest → Prop, P m'.digest → Changes settings P h h') := by
  rcases run_manifest_cases (s.world h.bucket h.cache) r occasion reference request with
    ⟨e, failed⟩ | ⟨m, tag, read, named, goesOn⟩
  · exact ⟨_, h, failed, .inl .refl⟩
  · obtain ⟨x, h', ran, outcome⟩ :=
      Manifests.put_cases same occasion.signTime m (accepts_of_tagFor accepted named) s sound
    rw [goesOn, run_map, ran]
    rcases outcome with ⟨e, rfl, changes⟩ | ⟨descriptor, m', rfl, prepared, changes⟩
    · exact ⟨_, h', rfl, .inl changes⟩
    · exact ⟨_, h', rfl, .inr ⟨_, m, m', rfl, rfl, read, prepared, changes⟩⟩

theorem World.push_cases (s : Site) {h : Holdings} (sound : h.IsSound) (settings : Settings)
    (occasion : Occasion) {request : Request} {name : RepositoryName} {reference : Reference}
    (found : request.route? = some (.manifest name reference)) (put : request.method = .put) :
    ∃ h', ((s.world h.bucket h.cache).serve settings occasion request).2 =
        s.world h'.bucket h'.cache ∧
      (Changes settings (fun _ => False) h h' ∨
        ((s.world h.bucket h.cache).serve settings occasion request).1.status = 201 ∧
        request.body.length ≤ Request.maxBody ∧
        ∃ m m', Manifest.ofPayload (request.header? "content-type") request.body = .ok m ∧
          Manifests.PreparesTo settings occasion.signTime m m' ∧
          ∀ P : Digest → Prop, P m'.digest → Changes settings P h h') := by
  rcases serve_cases (s.world h.bucket h.cache) settings occasion request with
    same | ⟨route, found', small, same, status⟩
  · exact ⟨h, same, .inl .refl⟩
  obtain rfl := Option.some.inj (found.symm.trans found')
  obtain ⟨x, h₁, opened, changes, named⟩ :=
    (Repository.makes_openNamed name : Makes settings (fun _ => False) _ _) s h sound
  rw [Service.atRoute, Service.inRepository, run_bind, opened] at same status
  cases x with
  | error e => exact ⟨h₁, same, .inl changes⟩
  | ok r =>
    simp only [put] at same status
    obtain ⟨x, h₂, ran, outcome⟩ := Pushing.manifest_cases (named r rfl).1 occasion
      reference (fun t tagged => Request.accepts_of_route? (tagged ▸ found)) request s
      (changes.isSound sound)
    rw [ran] at same status
    refine ⟨h₂, same, ?_⟩
    rcases outcome with changes' | ⟨response, m, m', rfl, created, read, prepared, changes'⟩
    · exact .inl (changes.trans changes')
    · exact .inr ⟨(status response rfl).trans created, small, m, m', read, prepared,
        fun P good => (changes.mono fun _ => False.elim).trans (changes' P good)⟩

/-- What a request that is not for garbage makes. What it makes a manifest has to have the
property. -/
lemma Service.makes_atRoute (occasion : Occasion) (request : Request) {route : Route}
    (notGarbage : ∀ scope, route ≠ .housekeeping scope)
    (good : ∀ name reference, route = .manifest name reference → request.method = .put →
      ∀ m m', Manifest.ofPayload (request.header? "content-type") request.body = .ok m →
        Manifests.PreparesTo settings occasion.signTime m m' → P m'.digest) :
    (Service.atRoute settings occasion request route).Makes settings P fun _ => True := by
  have opened (name : RepositoryName) (f : Repository → Action Response)
      (hf : ∀ r : Repository, r.settings = settings → (f r).Makes settings P fun _ => True) :
      (Service.inRepository settings name f).Makes settings P fun _ => True :=
    (Repository.makes_openNamed name).bind fun r opened => hf r opened.1
  cases route with
  | housekeeping scope => exact absurd rfl (notGarbage scope)
  | blob name d =>
    refine opened name _ fun r same => ?_
    split
    · exact Fetching.makes_blob same d
    · exact Fetching.makes_blobHeaders same d
    · exact Removing.makes_blob same d
    · exact .pure trivial
  | uploads name =>
    refine opened name _ fun r same => ?_
    split
    · exact Pushing.makes_start same occasion request
    · exact .pure trivial
  | upload name session =>
    refine opened name _ fun r same => ?_
    split
    · exact Pushing.makes_status session
    · exact Pushing.makes_append session request
    · exact Pushing.makes_complete same session request
    · exact Removing.makes_upload session
    · exact .pure trivial
  | manifest name reference =>
    refine opened name _ fun r same => ?_
    split
    · exact Fetching.makes_manifest same reference
    · exact Fetching.makes_manifestHeaders same reference
    · exact Pushing.makes_manifest same occasion reference (good name reference rfl ‹_›)
    · exact Removing.makes_manifest same reference
    · exact .pure trivial
  | tags name =>
    refine opened name _ fun r same => ?_
    split
    · exact Fetching.makes_tags
    · exact .pure trivial

end ImageRegistry
