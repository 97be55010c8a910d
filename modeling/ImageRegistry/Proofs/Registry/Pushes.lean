import ImageRegistry.Proofs.Collection.Completeness
import ImageRegistry.Proofs.Registry.Refusal

/-! The order of pushes. What a push writes for a record depends on what was held for that record,
and a sequence of pushes is folded over each record on its own. Only where two of them assign the
same tag does their order matter, and to push again what is there changes nothing. -/

namespace ImageRegistry

open World

/-- A manifest is stored as it is: one of schema 1 is signed already. -/
def Manifest.IsSettled : Manifest → Prop
  | .legacy m => m.isSigned = true
  | .docker _ | .index _ | .oci _ => True

/-- What is pushed to a repository: a blob, an upload in one piece, or a manifest. -/
inductive Push where
  | blob (name : RepositoryName) (mediaType : String) (content : Octets)
  | whole (name : RepositoryName) (d : Digest) (content : Octets)
  | manifest (name : RepositoryName) (m : Manifest) (settled : m.IsSettled) (tag : Option String)

namespace Push

def name : Push → RepositoryName
  | blob n _ _ | whole n _ _ | manifest n _ _ _ => n

def content : Push → Octets
  | blob _ _ content | whole _ _ content => content
  | manifest _ m _ _ => m.payload

def digest (p : Push) : Digest := .ofContent p.content

def tag? : Push → Option String
  | blob _ _ _ | whole _ _ _ => none
  | manifest _ _ _ tag => tag

/-- Whether a push assigns a tag of a repository. -/
def assigns (n : RepositoryName) (t : String) (p : Push) : Bool := n = p.name ∧ some t = p.tag?

/-- The same without the tag. -/
def untagged : Push → Push
  | manifest n m settled _ => manifest n m settled none
  | p => p

def links (settings : Settings) : Push → LinkStore
  | blob n _ _ | whole n _ _ => Repository.blobs ⟨settings, n⟩
  | manifest n _ _ _ => Repository.manifests ⟨settings, n⟩

def action (settings : Settings) (time : String) : Push → Action Descriptor
  | blob n mediaType content => do (← Repository.openNamed settings n).blobs.put mediaType content
  | whole n d content => do Uploads.whole (← Repository.openNamed settings n) d content
  | manifest n m _ tag => do Manifests.put (← Repository.openNamed settings n) time m tag

/-- Pushes one after the other, with the time of each by the number of those that are to follow. -/
def performAll (settings : Settings) (clock : Nat → String) :
    World → List Push → List (Except RegistryError Descriptor) × World
  | w, [] => ([], w)
  | w, p :: rest =>
    let (x, w) := w.run (p.action settings (clock rest.length))
    let (xs, w) := performAll settings clock w rest
    (x :: xs, w)

/-- What is held for a record once something was pushed. -/
def write (settings : Settings) (p : Push) : Record → Option Octets → Option Octets
  | .blob store d, held =>
    if store = (p.links settings).blobs ∧ d = p.digest then some (held.getD p.content) else held
  | .link kind n d, held =>
    if kind = (p.links settings).current ∧ n = p.name ∧ d = p.digest then
      some (Octets.ofText p.digest.text)
    else held
  | .tagTarget n t, held => if p.assigns n t then some (Octets.ofText p.digest.text) else held
  | .tagEntry n t d, held =>
    if p.assigns n t ∧ d = p.digest then some (Octets.ofText p.digest.text) else held
  | .uploadContent _ _, held | .uploadStart _ _, held => held

def left (settings : Settings) (p : Push) (b : Bucket) : Bucket :=
  match p.tag? with
  | none => (p.links settings).pushed b p.content
  | some t => ((p.links settings).pushed b p.content).assigned p.name t p.digest

/-- The tag that is assigned has a name that is accepted. -/
def IsAccepted (p : Push) : Prop := ∀ t, p.tag? = some t → TagName.accepts t = true

variable {settings : Settings} {p q : Push} {b : Bucket} {r : Record}

lemma isAccepted_of_tag?_eq_none (untagged : p.tag? = none) : p.IsAccepted := by
  intro t tag
  rw [untagged] at tag
  cases tag

lemma isAccepted_untagged (p : Push) : p.untagged.IsAccepted :=
  isAccepted_of_tag?_eq_none (by cases p <;> rfl)

lemma isLedger_left (accepted : p.IsAccepted) (ledger : b.IsLedger) :
    (p.left settings b).IsLedger := by
  have pushed := LinkStore.isLedger_pushed ledger (p.links settings) p.content
  unfold left
  split
  · exact pushed
  · exact pushed.assigned p.name (accepted _ ‹_›) p.digest

lemma repository_links (settings : Settings) (p : Push) :
    (p.links settings).repository = p.name := by
  cases p <;> rfl

lemma at?_left (accepted : p.IsAccepted) (lawful : r.IsLawful) :
    (p.left settings b).at? r = p.write settings r (b.at? r) := by
  have pushed : ((p.links settings).pushed b p.content).at? r =
      if r = .link (p.links settings).current p.name p.digest then
        some (Octets.ofText p.digest.text)
      else if r = .blob (p.links settings).blobs p.digest ∧ ¬b.Has r then some p.content
      else b.at? r := by
    rw [Bucket.at?_pushed lawful, repository_links]
    rfl
  have stored (store : BlobStore) (d : Digest) (same : r = .blob store d) :
      ((p.links settings).pushed b p.content).at? r = p.write settings r (b.at? r) := by
    subst same
    rw [pushed, if_neg nofun, write]
    cases held : b.at? (.blob store d) <;> simp [Bucket.Has, held]
  unfold left
  cases tag : p.tag? with
  | none =>
    cases r with
    | blob store d => exact stored store d rfl
    | _ => simp [pushed, write, assigns, tag]
  | some t =>
    rw [Bucket.at?_assigned (accepted t tag) lawful]
    cases r with
    | blob store d => simpa using stored store d rfl
    | _ => simp [pushed, write, assigns, tag, and_assoc]

lemma write_untagged (held : Option Octets) :
    p.untagged.write settings r held = p.write settings r held ∨
      p.untagged.write settings r held = held := by
  cases p with
  | blob | whole => exact .inl rfl
  | manifest n m settled tag =>
    cases r with
    | blob | link => exact .inl rfl
    | _ => exact .inr (by simp [write, untagged, assigns, tag?])

/-- What a push may leave. One that is refused leaves what was there, or, if only the name of its
tag is refused, what it leaves without. -/
inductive Leaves (settings : Settings) (p : Push) (b : Bucket) :
    Except RegistryError Descriptor → Bucket → Prop
  | done (accepted : p.IsAccepted) (descriptor : Descriptor) :
    Leaves settings p b (.ok descriptor) (p.left settings b)
  | refused (e : RegistryError) : Leaves settings p b (.error e) b
  | unnamed (e : RegistryError) : Leaves settings p b (.error e) (p.untagged.left settings b)

lemma makes_action (settings : Settings) (time : String) (p : Push) :
    (p.action settings time).Makes settings (fun _ => True) fun _ => True := by
  cases p with
  | blob n mediaType content =>
    exact (Repository.makes_openNamed n).bind fun r opened =>
      (Uploads.makes_putBlob opened.1 mediaType content).weaken fun _ _ => trivial
  | whole n d content =>
    exact (Repository.makes_openNamed n).bind fun r opened =>
      Uploads.makes_whole opened.1 d content
  | manifest n m settled tag =>
    exact (Repository.makes_openNamed n).bind fun r opened =>
      Manifests.makes_put opened.1 time tag fun _ _ => trivial

lemma run_prepare {m : Manifest} (settled : m.IsSettled) (time : String) (r : Repository)
    (s : Site) {h : Holdings} (sound : h.IsSound) :
    ∃ x cache, (s.world h.bucket h.cache).run (Manifests.prepare r time m) =
        (x, s.world h.bucket cache) ∧ ∀ m', x = .ok m' → m' = m := by
  obtain ⟨x, h', ran, -, prepared⟩ :=
    Manifests.makes_prepare (P := fun _ => True) (r := r) rfl time m s h sound
  have kept := (kept_of_heeds (Manifests.heeds_prepare r time m) (s.world h.bucket h.cache)).1
  rw [ran] at kept
  rw [Site.eq_of_backend_eq kept] at ran
  refine ⟨x, h'.cache, ran, fun m' same => ?_⟩
  have prepared := prepared m' same
  cases m with
  | legacy m =>
    rw [Manifests.PreparesTo] at prepared
    rwa [if_pos (show m.isSigned = true from settled)] at prepared
  | docker m | index m | oci m => exact prepared

lemma leaves_manifest {n : RepositoryName} {m : Manifest} (settled : m.IsSettled)
    (tag : Option String) (time : String) (s : Site) {h : Holdings} (sound : h.IsSound) :
    ∃ x b cache, (s.world h.bucket h.cache).run (Manifests.put ⟨settings, n⟩ time m tag) =
        (x, s.world b cache) ∧
      (manifest n m settled tag).Leaves settings h.bucket x b := by
  obtain ⟨x, cache, prepared, kept⟩ := run_prepare settled time ⟨settings, n⟩ s sound
  rw [Manifests.put, run_bind, prepared]
  cases x with
  | error e => exact ⟨_, _, _, rfl, .refused e⟩
  | ok m' =>
    obtain rfl := kept m' rfl
    simp only [run_bind, LinkStore.run_put]
    cases tag with
    | none => exact ⟨_, _, _, rfl, .done (isAccepted_of_tag?_eq_none rfl) _⟩
    | some t =>
      by_cases accepted : TagName.accepts t = true
      · simp only [run_bind, Tags.run_assign accepted]
        refine ⟨_, _, _, rfl, .done (p := .manifest _ _ _ _) ?_ _⟩
        rintro u ⟨⟩
        exact accepted
      · simp only [run_bind, Tags.assign, run_liftExcept, TagName.check, if_neg accepted]
        exact ⟨_, _, _, rfl, .unnamed _⟩

lemma run_action (settings : Settings) (time : String) (p : Push) (s : Site) {h : Holdings}
    (sound : h.IsSound) :
    ∃ (x : Except RegistryError Descriptor) (h' : Holdings),
      (s.world h.bucket h.cache).run (p.action settings time) = (x, s.world h'.bucket h'.cache) ∧
        h'.IsSound ∧ p.Leaves settings h.bucket x h'.bucket := by
  obtain ⟨x, h', ran, changes, -⟩ := makes_action settings time p s h sound
  have opened (n : RepositoryName) := sound.isFaithful.run_openNamed s h.bucket settings n
  suffices leaves : ∃ x b cache, (s.world h.bucket h.cache).run (p.action settings time) =
      (x, s.world b cache) ∧ p.Leaves settings h.bucket x b by
    obtain ⟨y, b, cache, ran', leaves⟩ := leaves
    obtain ⟨rfl, same⟩ := Prod.mk.inj (ran'.symm.trans ran)
    rw [(Site.eq_of_world_eq same).1] at leaves
    exact ⟨y, h', ran, changes.isSound sound, leaves⟩
  cases p with
  | blob n mediaType content =>
    rw [action, run_bind, opened]
    exact ⟨_, _, _, LinkStore.run_put .., .done (isAccepted_of_tag?_eq_none rfl) _⟩
  | whole n d content =>
    rw [action, run_bind, opened]
    change ∃ x b cache, World.run _ (Uploads.whole _ d content) = _ ∧ _
    rw [Uploads.whole, run_bind, run_liftExcept]
    cases d.verify content with
    | error e => exact ⟨_, _, _, rfl, .refused e⟩
    | ok _ => exact ⟨_, _, _, LinkStore.run_put .., .done (isAccepted_of_tag?_eq_none rfl) _⟩
  | manifest n m settled tag =>
    rw [action, run_bind, opened]
    exact leaves_manifest settled tag time s sound

lemma exists_run_left {time : String} {s : Site} {h : Holdings} (sound : h.IsSound)
    {descriptor : Descriptor} {w : World}
    (ran : (s.world h.bucket h.cache).run (p.action settings time) = (.ok descriptor, w)) :
    ∃ h' : Holdings, w = s.world h'.bucket h'.cache ∧ h'.IsSound ∧ p.IsAccepted ∧
      h'.bucket = p.left settings h.bucket := by
  obtain ⟨x, h', ran', sound', leaves⟩ := run_action settings time p s sound
  obtain ⟨rfl, rfl⟩ := Prod.mk.inj (ran.symm.trans ran')
  refine ⟨h', rfl, sound', ?_⟩
  generalize h'.bucket = b at leaves
  cases leaves with
  | done accepted => exact ⟨accepted, rfl⟩

lemma write_write (p : Push) (held : Option Octets) :
    p.write settings r (p.write settings r held) = p.write settings r held := by
  cases r with
  | uploadContent | uploadStart => rfl
  | _ =>
    simp only [write]
    split_ifs <;> rfl

/-- Where a push writes nothing new it writes nothing new after another one, unless both assign the
tag. -/
lemma write_write_of_eq (other : ∀ n t, r ≠ .tagTarget n t) (q : Push) {held : Option Octets}
    (done : p.write settings r held = held) :
    p.write settings r (q.write settings r held) = q.write settings r held := by
  cases r with
  | tagTarget n t => exact absurd rfl (other n t)
  | uploadContent | uploadStart => rfl
  | blob store d | link kind n d | tagEntry n t d =>
    simp only [write] at done ⊢
    split_ifs at done ⊢ <;> simp_all

/-- What a push writes is there, apart from what its tag stands for. -/
def IsDone (settings : Settings) (p : Push) (b : Bucket) : Prop :=
  ∀ r : Record, r.IsLawful → (∀ n t, r ≠ .tagTarget n t) →
    p.write settings r (b.at? r) = b.at? r

lemma isDone_left (accepted : p.IsAccepted) : p.IsDone settings (p.left settings b) := by
  intro r lawful _
  rw [at?_left accepted lawful, write_write]

lemma IsDone.leaves {b' : Bucket} {x : Except RegistryError Descriptor}
    (done : p.IsDone settings b) (leaves : q.Leaves settings b x b') : p.IsDone settings b' := by
  have left {q : Push} (accepted : q.IsAccepted) : p.IsDone settings (q.left settings b) := by
    intro r lawful other
    rw [at?_left accepted lawful]
    exact write_write_of_eq other q (done r lawful other)
  cases leaves with
  | done accepted => exact left accepted
  | refused => exact done
  | unnamed => exact left (isAccepted_untagged q)

lemma IsDone.eq_of_leaves {b' : Bucket} {x : Except RegistryError Descriptor}
    (done : p.IsDone settings b) (ledger : b.IsLedger)
    (stands : ∀ t, p.tag? = some t →
      b.at? (.tagTarget p.name t) = some (Octets.ofText p.digest.text))
    (leaves : p.Leaves settings b x b') : b' = b := by
  have same (r : Record) (lawful : r.IsLawful) : p.write settings r (b.at? r) = b.at? r := by
    by_cases target : ∃ n t, r = .tagTarget n t
    · obtain ⟨n, t, rfl⟩ := target
      rw [write]
      split_ifs with assigned
      · obtain ⟨rfl, tag⟩ := of_decide_eq_true assigned
        exact (stands t tag.symm).symm
      · rfl
    · push Not at target
      exact done r lawful target
  cases leaves with
  | done accepted =>
    refine (isLedger_left accepted ledger).ext ledger fun r lawful => ?_
    rw [at?_left accepted lawful, same r lawful]
  | refused => rfl
  | unnamed =>
    have accepted := isAccepted_untagged p
    refine (isLedger_left accepted ledger).ext ledger fun r lawful => ?_
    rw [at?_left accepted lawful]
    exact (write_untagged _).elim (·.trans (same r lawful)) id

def Succeed (xs : List (Except RegistryError Descriptor)) : Prop :=
  ∀ x ∈ xs, ∃ descriptor, x = .ok descriptor

lemma performAll_cons {clock : Nat → String} {ps : List Push} {w w₁ w₂ : World}
    {x : Except RegistryError Descriptor} {xs : List (Except RegistryError Descriptor)}
    (ran : w.run (p.action settings (clock ps.length)) = (x, w₁))
    (rest : performAll settings clock w₁ ps = (xs, w₂)) :
    performAll settings clock w (p :: ps) = (x :: xs, w₂) := by
  rw [performAll, ran]
  dsimp only
  rw [rest]

lemma run_performAll (settings : Settings) (clock : Nat → String) (ps : List Push) (s : Site)
    {h : Holdings} (sound : h.IsSound) :
    ∃ (xs : List (Except RegistryError Descriptor)) (h' : Holdings),
      performAll settings clock (s.world h.bucket h.cache) ps = (xs, s.world h'.bucket h'.cache) ∧
        h'.IsSound ∧ (∀ p : Push, p.IsDone settings h.bucket → p.IsDone settings h'.bucket) ∧
        (Succeed xs → ∀ r : Record, r.IsLawful →
          h'.bucket.at? r = ps.foldl (fun held p => p.write settings r held) (h.bucket.at? r)) := by
  induction ps generalizing h with
  | nil => exact ⟨[], h, rfl, sound, fun _ done => done, fun _ _ _ => rfl⟩
  | cons p ps ih =>
    obtain ⟨x, h₁, ran, sound₁, leaves⟩ := run_action settings (clock ps.length) p s sound
    obtain ⟨xs, h', ran', sound', stays, rest⟩ := ih sound₁
    refine ⟨x :: xs, h', performAll_cons ran ran', sound',
      fun q done => stays q (done.leaves leaves), fun succeed r lawful => ?_⟩
    obtain ⟨⟨_, rfl⟩, later⟩ := List.forall_mem_cons.1 succeed
    generalize h₁.bucket = b₁ at leaves rest stays
    cases leaves with
    | done accepted => rw [rest later r lawful, at?_left accepted lawful, List.foldl_cons]

lemma write_comm (free : p.digest = q.digest → p.content = q.content)
    (other : ∀ n t, r ≠ .tagTarget n t) (held : Option Octets) :
    q.write settings r (p.write settings r held) =
      p.write settings r (q.write settings r held) := by
  cases r with
  | blob store d =>
    simp only [write]
    split_ifs with second first
    · rw [free (first.2.symm.trans second.2)]
    all_goals rfl
  | link kind n d =>
    simp only [write]
    split_ifs with second first
    · rw [← second.2.2, first.2.2]
    all_goals rfl
  | tagEntry n t d =>
    simp only [write]
    split_ifs with second first
    · rw [← second.2, first.2]
    all_goals rfl
  | tagTarget n t => exact absurd rfl (other n t)
  | uploadContent | uploadStart => rfl

lemma foldl_write_tagTarget (ps : List Push) (n : RepositoryName) (t : String)
    (held : Option Octets) :
    ps.foldl (fun held p => p.write settings (.tagTarget n t) held) held =
      (ps.filter (assigns n t)).foldl (fun _ p => some (Octets.ofText p.digest.text)) held := by
  rw [List.foldl_filter]
  rfl

/-- What pushes write for a record does not depend on their order, where those that assign the same
tag keep theirs. -/
lemma foldl_write_perm {ps qs : List Push} (perm : ps.Perm qs)
    (ordered : ∀ n t, ps.filter (assigns n t) = qs.filter (assigns n t))
    (free : ∀ p ∈ ps, ∀ q ∈ ps, p.digest = q.digest → p.content = q.content)
    (held : Option Octets) :
    ps.foldl (fun held p => p.write settings r held) held =
      qs.foldl (fun held p => p.write settings r held) held := by
  by_cases target : ∃ n t, r = .tagTarget n t
  · obtain ⟨n, t, rfl⟩ := target
    rw [foldl_write_tagTarget, foldl_write_tagTarget, ordered]
  · push Not at target
    exact perm.foldl_eq' (fun p hp q hq held => write_comm (free p hp q hq) target held) held

/-- The order in which pushes succeed does not matter, as long as those that assign the same tag
keep theirs. To push again what was pushed changes nothing, whatever was pushed in between, as long
as the tag still stands for it. -/
theorem order_irrelevant (settings : Settings) (clock clock' : Nat → String) (s : Site)
    {h : Holdings} (sound : h.IsSound) :
    (∀ ps qs : List Push, ps.Perm qs →
      (∀ n t, ps.filter (assigns n t) = qs.filter (assigns n t)) →
      (∀ p ∈ ps, ∀ q ∈ ps, p.digest = q.digest → p.content = q.content) →
      ∀ xs ys w w', performAll settings clock (s.world h.bucket h.cache) ps = (xs, w) →
        performAll settings clock' (s.world h.bucket h.cache) qs = (ys, w') →
        Succeed xs → Succeed ys → w.backend = w'.backend) ∧
    ∀ (p : Push) (time time' : String) (qs : List Push) descriptor w xs w',
      (s.world h.bucket h.cache).run (p.action settings time) = (.ok descriptor, w) →
      performAll settings clock w qs = (xs, w') →
      (∀ t, p.tag? = some t →
        w'.record? (.tagTarget p.name t) = some (Octets.ofText p.digest.text)) →
      (w'.run (p.action settings time')).2.backend = w'.backend := by
  constructor
  · intro ps qs perm ordered free xs ys w w' ran ran' succeed succeed'
    obtain ⟨_, h₁, ran₁, sound₁, -, left₁⟩ := run_performAll settings clock ps s sound
    obtain ⟨_, h₂, ran₂, sound₂, -, left₂⟩ := run_performAll settings clock' qs s sound
    obtain ⟨rfl, rfl⟩ := Prod.mk.inj (ran.symm.trans ran₁)
    obtain ⟨rfl, rfl⟩ := Prod.mk.inj (ran'.symm.trans ran₂)
    have same : h₁.bucket = h₂.bucket := by
      refine sound₁.isLedger.ext sound₂.isLedger fun r lawful => ?_
      rw [left₁ succeed r lawful, left₂ succeed' r lawful]
      exact foldl_write_perm perm ordered free _
    rw [same]
    rfl
  · intro p time time' qs descriptor w xs w' ran ran' stands
    obtain ⟨h₁, rfl, sound₁, accepted, left₁⟩ := exists_run_left sound ran
    obtain ⟨_, h₂, ran₂, sound₂, stays, -⟩ := run_performAll settings clock qs s sound₁
    obtain ⟨rfl, rfl⟩ := Prod.mk.inj (ran'.symm.trans ran₂)
    obtain ⟨_, h₃, ran₃, -, leaves₃⟩ := run_action settings time' p s sound₂
    have done : p.IsDone settings h₂.bucket := stays p (left₁ ▸ isDone_left accepted)
    have same : h₃.bucket = h₂.bucket := by
      refine done.eq_of_leaves sound₂.isLedger (fun t tag => ?_) leaves₃
      rw [← Site.record?_world s h₂.bucket h₂.cache]
      exact stands t tag
    rw [ran₃, same]
    rfl

open Collector

lemma exists_run_blob (settings : Settings) (s : Site) {h : Holdings} (sound : h.IsSound)
    (time : String) (n : RepositoryName) (mediaType : String) (content : Octets) :
    ∃ descriptor w, (s.world h.bucket h.cache).run
      ((blob n mediaType content).action settings time) = (.ok descriptor, w) := by
  rw [action, run_bind, sound.isFaithful.run_openNamed]
  exact ⟨_, _, LinkStore.run_put ..⟩

lemma exists_run_childless (settings : Settings) (s : Site) {h : Holdings} (sound : h.IsSound)
    (time : String) (n : RepositoryName) {i : ImageIndex} (childless : i.children = [])
    {t : String} (accepted : TagName.accepts t = true) :
    ∃ descriptor w, (s.world h.bucket h.cache).run
      ((manifest n (.index i) trivial (some t)).action settings time) = (.ok descriptor, w) := by
  have opened := sound.isFaithful.run_openNamed s h.bucket settings n
  change ∃ descriptor w, World.run _ (Repository.openNamed settings n >>= fun r =>
    Manifests.put r time _ _) = _
  rw [run_bind, opened]
  dsimp only
  rw [Manifests.put, run_bind,
    Manifests.run_prepare_index time fun child mem => by simp [childless] at mem]
  simp only [run_bind, LinkStore.run_put, Tags.run_assign accepted]
  exact ⟨_, _, rfl⟩

/-- A blob and a list with a tag are pushed in either order, and then the list again. -/
theorem blobAndIndex_commute : ∃ (p q : Push) (xs ys : List (Except RegistryError Descriptor))
    (w w' : World),
    performAll exampleRepository.settings (fun _ => "") (.fresh "registry" none) [p, q] = (xs, w) ∧
    performAll exampleRepository.settings (fun _ => "") (.fresh "registry" none) [q, p] = (ys, w') ∧
    Succeed xs ∧ Succeed ys ∧ p.content ≠ q.content ∧ q.tag? = some "latest" ∧
    w.backend = w'.backend ∧
    (w'.run (q.action exampleRepository.settings "")).2.backend = w'.backend := by
  obtain ⟨i, -, childless, payload⟩ := exists_ofPayload_emptyIndex
  let s : Site := ⟨"registry", ∅, none⟩
  let settings := exampleRepository.settings
  let n := exampleRepository.name
  let p : Push := .blob n MediaType.octets []
  let q : Push := .manifest n (.index i) trivial (some "latest")
  have sound := Holdings.isSound_empty
  obtain ⟨d₁, w₁, ran₁⟩ := exists_run_blob settings s sound "" n MediaType.octets []
  obtain ⟨h₁, rfl, sound₁, -, -⟩ := exists_run_left sound ran₁
  obtain ⟨d₂, w₂, ran₂⟩ := exists_run_childless settings s sound₁ "" n childless accepts_latest
  obtain ⟨e₁, v₁, ran₁'⟩ := exists_run_childless settings s sound "" n childless accepts_latest
  obtain ⟨k₁, rfl, sound₁', accepted, left₁⟩ := exists_run_left sound ran₁'
  obtain ⟨e₂, v₂, ran₂'⟩ := exists_run_blob settings s sound₁' "" n MediaType.octets []
  obtain ⟨k₂, rfl, -, -, left₂⟩ := exists_run_left sound₁' ran₂'
  have different : p.content ≠ q.content := by
    change [] ≠ i.payload
    rw [payload]
    decide
  have stands : (s.world k₂.bucket k₂.cache).record? (.tagTarget n "latest") =
      some (Octets.ofText q.digest.text) := by
    rw [Site.record?_world, left₂,
      at?_left (isAccepted_of_tag?_eq_none rfl) (r := .tagTarget _ _) accepts_latest, left₁,
      at?_left accepted (r := .tagTarget _ _) accepts_latest]
    rfl
  have succeeds (e e' : Descriptor) : Succeed [.ok e, .ok e'] := by simp [Succeed]
  have first : performAll settings (fun _ => "") (s.world ∅ .empty) [p, q] =
    ([.ok d₁, .ok d₂], w₂) := performAll_cons ran₁ (performAll_cons ran₂ rfl)
  have second : performAll settings (fun _ => "") (s.world ∅ .empty) [q, p] =
    ([.ok e₁, .ok e₂], s.world k₂.bucket k₂.cache) :=
      performAll_cons ran₁' (performAll_cons ran₂' rfl)
  obtain ⟨orders, again⟩ := order_irrelevant settings (fun _ => "") (fun _ => "") s sound
  refine ⟨p, q, _, _, w₂, _, first, second, succeeds _ _, succeeds _ _, different, rfl, ?_, ?_⟩
  · refine orders [p, q] [q, p] (.swap q p []) (fun m t => ?_) ?_ _ _ _ _ first second
      (succeeds _ _) (succeeds _ _)
    · have bare : p.assigns m t = false := by simp [p, assigns, tag?]
      simp [List.filter_cons, bare]
    · have apart : p.digest ≠ q.digest := by
        change Digest.ofContent [] ≠ Digest.ofContent i.payload
        rw [payload]
        exact digest_emptyIndex_ne.symm
      simp [apart, apart.symm]
  · refine again q "" "" [p] e₁ _ _ _ ran₁' (performAll_cons ran₂' rfl) fun t tag => ?_
    obtain rfl := Option.some.inj tag
    exact stands

end Push
end ImageRegistry
