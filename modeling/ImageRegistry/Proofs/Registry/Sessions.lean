import ImageRegistry.Crypto.Ed25519
import ImageRegistry.Location.WebLocation
import ImageRegistry.Proofs.Registry.Making
import ImageRegistry.Proofs.Registry.UploadIds

/-! Upload sessions as byte buffers. Whatever is called, in any order and for any sessions, the
calls agree with a map from the open sessions to what was uploaded in them. -/

namespace ImageRegistry

open World

/-- A call of the upload sessions of a repository. -/
inductive UploadCall where
  | start (id : UploadId) (time : String)
  | append (session : String) (chunk : Octets)
  | status (session : String)
  | commit (session : String) (d : Digest) (last : Octets)
  | cancel (session : String)

/-- What a call comes to. -/
inductive UploadAnswer where
  | progress (p : UploadProgress)
  | stored (descriptor : Descriptor)
  | cancelled
  deriving DecidableEq

namespace UploadCall

def action (r : Repository) : UploadCall → Action UploadAnswer
  | start id time => .progress <$> Uploads.start r id time
  | append session chunk => .progress <$> Uploads.append r session chunk
  | status session => .progress <$> Uploads.status r session
  | commit session d last => .stored <$> Uploads.commit r session d last
  | cancel session => (fun _ => .cancelled) <$> Uploads.cancel r session

def performAll (settings : Settings) :
    World → List (RepositoryName × UploadCall) → List (Except RegistryError UploadAnswer) × World
  | w, [] => ([], w)
  | w, (n, call) :: rest =>
    let (x, w) := w.run (call.action ⟨settings, n⟩)
    let (xs, w) := performAll settings w rest
    (x :: xs, w)

/-- The records that a call may change: those of its session, and those of the blob that a session
becomes. -/
def Touches (settings : Settings) (n : RepositoryName) : UploadCall → Record → Prop
  | start id _, r => r = .uploadContent n id ∨ r = .uploadStart n id
  | append session _, r => ∃ id, UploadId.Spells session id ∧ r = .uploadContent n id
  | status _, _ => False
  | commit session d _, r =>
    (∃ id, UploadId.Spells session id ∧ (r = .uploadContent n id ∨ r = .uploadStart n id)) ∨
      r = .blob (settings.blobStore n) d ∨ r = .link .layer n d
  | cancel session, r =>
    ∃ id, UploadId.Spells session id ∧ (r = .uploadContent n id ∨ r = .uploadStart n id)

end UploadCall

/-- The buffers of the open sessions, the contents that are stored, and the blobs that are part of a
repository. -/
structure Buffers where
  session : RepositoryName → UploadId → Option Octets
  stored : BlobStore → Digest → Option Octets
  linked : RepositoryName → Digest → Bool

namespace Buffers

/-- Gives a session another buffer, or closes it. -/
def write (buffers : Buffers) (n : RepositoryName) (id : UploadId) (buffer : Option Octets) :
    Buffers where
  session m other := if m = n ∧ other = id then buffer else buffers.session m other
  stored := buffers.stored
  linked := buffers.linked

/-- Stores content and makes it part of a repository. What is stored under its digest stays. -/
def push (buffers : Buffers) (settings : Settings) (n : RepositoryName) (content : Octets) :
    Buffers where
  session := buffers.session
  stored store d :=
    if store = settings.blobStore n ∧ d = .ofContent content then
      some ((buffers.stored store d).getD content)
    else buffers.stored store d
  linked m d := (m = n ∧ d = .ofContent content) || buffers.linked m d

def find (buffers : Buffers) (n : RepositoryName) (session : String) :
    Except RegistryError (UploadId × Octets) :=
  match UploadId.ofText? session with
  | none => .error (.uploadUnknown session)
  | some id =>
    match buffers.session n id with
    | none => .error (.uploadUnknown id.text)
    | some buffer => .ok (id, buffer)

/-- Answers a call. A call that fails changes nothing. -/
def answer (buffers : Buffers) (settings : Settings) (n : RepositoryName) :
    UploadCall → Except RegistryError UploadAnswer × Buffers
  | .start id _ => (.ok (.progress { id, offset := 0 }), buffers.write n id (some []))
  | .append session chunk =>
    if settings.resumable then
      match buffers.find n session with
      | .ok (id, buffer) =>
        (.ok (.progress { id, offset := (buffer ++ chunk).length }),
          buffers.write n id (some (buffer ++ chunk)))
      | .error e => (.error e, buffers)
    else (.error (.unsupported "chunked upload"), buffers)
  | .status session =>
    match buffers.find n session with
    | .ok (id, buffer) => (.ok (.progress { id, offset := buffer.length }), buffers)
    | .error e => (.error e, buffers)
  | .commit session d last =>
    match buffers.find n session with
    | .ok (id, buffer) =>
      if Digest.ofContent (buffer ++ last) = d then
        (.ok (.stored
          { mediaType := MediaType.octets, size := (buffer ++ last).length, digest := d }),
          (buffers.push settings n (buffer ++ last)).write n id none)
      else (.error (.digestMismatch d (.ofContent (buffer ++ last))), buffers)
    | .error e => (.error e, buffers)
  | .cancel session =>
    match buffers.find n session with
    | .ok (id, _) => (.ok .cancelled, buffers.write n id none)
    | .error e => (.error e, buffers)

def answerAll (settings : Settings) :
    Buffers → List (RepositoryName × UploadCall) →
      List (Except RegistryError UploadAnswer) × Buffers
  | buffers, [] => ([], buffers)
  | buffers, (n, call) :: rest =>
    let (x, buffers) := buffers.answer settings n call
    let (xs, buffers) := answerAll settings buffers rest
    (x :: xs, buffers)

end Buffers

namespace Bucket

/-- What a bucket holds of sessions, contents and blobs. -/
def buffers (b : Bucket) : Buffers where
  session n id := b.at? (.uploadContent n id)
  stored store d := b.at? (.blob store d)
  linked n d := (b.at? (.link .layer n d)).isSome

/-- Each session of which the start is recorded has a buffer. -/
def IsPaired (b : Bucket) : Prop :=
  ∀ n id, b.Has (.uploadStart n id) → b.Has (.uploadContent n id)

end Bucket

/-- A call leaves one bucket where there was another: the buffers are those of the call's answer,
and no other records are changed. -/
structure UploadCall.Leaves (settings : Settings) (n : RepositoryName) (call : UploadCall)
    (b b' : Bucket) : Prop where
  isLedger : b'.IsLedger
  isPaired : b'.IsPaired
  buffers : b'.buffers = (b.buffers.answer settings n call).2
  untouched : ∀ r : Record, r.IsLawful → ¬call.Touches settings n r → b'.at? r = b.at? r

namespace Uploads

variable {s : Site} {b : Bucket} {cache : DescriptorCache} {settings : Settings}
  {n : RepositoryName}

lemma run_content {α : Type} (session : String) (f : UploadId → Octets → Action α) :
    (s.world b cache).run (do
      let id ← readId session
      let buffer ← content ⟨settings, n⟩ id
      f id buffer) =
        match b.buffers.find n session with
        | .ok (id, buffer) => (s.world b cache).run (f id buffer)
        | .error e => (.error e, s.world b cache) := by
  rw [run_bind, run_liftExcept, readId, Buffers.find]
  cases UploadId.ofText? session with
  | none => rfl
  | some id =>
    have held : b.content? (Record.uploadContent n id).key = b.buffers.session n id := rfl
    simp only [content, run_bind, Site.run_fetch?, held]
    cases b.buffers.session n id <;> rfl

lemma run_erase (s : Site) (cache : DescriptorCache) (settings : Settings) (n : RepositoryName)
    (ledger : b.IsLedger) (paired : b.IsPaired) (id : UploadId) :
    ∃ b', (s.world b cache).run (erase ⟨settings, n⟩ id) =
        (.ok (b.buffers.session n id).isSome, s.world b' cache) ∧
      b.Drops b' fun r => r = .uploadContent n id ∨ r = .uploadStart n id := by
  have below (r : Record) (lawful : r.IsLawful) := Layout.startsWith_upload_iff lawful n id
  refine ⟨_, (s.run_eraseBelow b cache (Layout.upload n id)).trans ?_,
    (Bucket.Drops.removeBelow ledger _).congr fun r lawful _ =>
      (and_iff_right lawful).trans (below r lawful)⟩
  have isOpen : (!(b.keys (some (Layout.upload n id))).isEmpty) =
      (b.buffers.session n id).isSome := by
    rw [Bool.eq_iff_iff, Bool.not_eq_true', List.isEmpty_eq_false_iff, ledger.keys_ne_nil_iff]
    change _ ↔ b.Has (.uploadContent n id)
    constructor
    · rintro ⟨r, lawful, has, startsBelow⟩
      rcases (below r lawful).1 startsBelow with rfl | rfl
      · exact has
      · exact paired n id has
    · exact fun has =>
        ⟨.uploadContent n id, trivial, has, (below (.uploadContent n id) trivial).2 (.inl rfl)⟩
  rw [isOpen]

end Uploads

namespace Bucket

variable {b b' : Bucket} {n : RepositoryName} {id : UploadId}

lemma buffers_put (content : Octets) : (b.put (Record.uploadContent n id).key content).buffers =
    b.buffers.write n id (some content) := by
  unfold buffers Buffers.write
  congr 1
  · funext m other
    rw [at?_put (r := .uploadContent n id) (q := .uploadContent m other) trivial trivial]
    simp only [Record.uploadContent.injEq, eq_comm (a := n), eq_comm (a := id)]
  · funext store d
    rw [at?_put (r := .uploadContent n id) (q := .blob store d) trivial trivial, if_neg nofun]
  · funext m d
    rw [at?_put (r := .uploadContent n id) (q := .link .layer m d) trivial trivial,
      if_neg nofun]

lemma buffers_putStart (content : Octets) :
    (b.put (Record.uploadStart n id).key content).buffers = b.buffers := by
  unfold buffers
  congr 1
  · funext m other
    rw [at?_put (r := .uploadStart n id) (q := .uploadContent m other) trivial trivial,
      if_neg nofun]
  · funext store d
    rw [at?_put (r := .uploadStart n id) (q := .blob store d) trivial trivial, if_neg nofun]
  · funext m d
    rw [at?_put (r := .uploadStart n id) (q := .link .layer m d) trivial trivial,
      if_neg nofun]

lemma buffers_drops
    (drops : b.Drops b' fun r => r = .uploadContent n id ∨ r = .uploadStart n id) :
    b'.buffers = b.buffers.write n id none := by
  unfold buffers Buffers.write
  congr 1
  · funext m other
    split_ifs with same
    · obtain ⟨rfl, rfl⟩ := same
      exact (drops.2 (.uploadContent m other) trivial).1 (.inl rfl)
    · refine (drops.2 (.uploadContent m other) trivial).2 ?_
      simpa using same
  · funext store d
    exact (drops.2 (.blob store d) trivial).2 (by simp)
  · funext m d
    rw [(drops.2 (.link .layer m d) trivial).2 (by simp)]

lemma buffers_pushed (settings : Settings) (content : Octets) :
    ((Repository.blobs ⟨settings, n⟩).pushed b content).buffers =
      b.buffers.push settings n content := by
  unfold buffers Buffers.push
  congr 1
  · funext m other
    rw [at?_pushed (r := .uploadContent m other) trivial, if_neg nofun, if_neg nofun]
  · funext store d
    rw [at?_pushed (r := .blob store d) trivial, if_neg nofun]
    have stores : (Repository.blobs ⟨settings, n⟩).blobs = settings.blobStore n := rfl
    simp only [stores, Record.blob.injEq, Has]
    cases b.at? (.blob store d) <;> simp
  · funext m d
    have links : Record.link (Repository.blobs ⟨settings, n⟩).current
      (Repository.blobs ⟨settings, n⟩).repository (.ofContent content) =
        .link .layer n (.ofContent content) := rfl
    rw [at?_pushed (r := .link .layer m d) trivial, links]
    simp only [Record.link.injEq, true_and, reduceCtorEq, false_and, if_false]
    split_ifs with same <;> simp [same]

lemma IsPaired.put (paired : b.IsPaired) (content : Octets) :
    (b.put (Record.uploadContent n id).key content).IsPaired := by
  intro m other has
  rw [Has, at?_put (r := .uploadContent n id) (q := .uploadStart m other) trivial trivial,
    if_neg (by simp)] at has
  exact (paired m other has).put _ _

lemma IsPaired.putStart (paired : b.IsPaired) (has : b.Has (.uploadContent n id))
    (content : Octets) : (b.put (Record.uploadStart n id).key content).IsPaired := by
  intro m other started
  rw [Has, at?_put (r := .uploadStart n id) (q := .uploadStart m other) trivial trivial] at started
  split_ifs at started with same
  · obtain ⟨rfl, rfl⟩ := Record.uploadStart.inj same
    exact has.put _ _
  · exact (paired m other started).put _ _

lemma IsPaired.drops (paired : b.IsPaired)
    (drops : b.Drops b' fun r => r = .uploadContent n id ∨ r = .uploadStart n id) :
    b'.IsPaired := by
  intro m other started
  obtain ⟨started, spared⟩ := (drops.has (r := .uploadStart m other) trivial).1 started
  refine (drops.has (r := .uploadContent m other) trivial).2 ⟨paired m other started, ?_⟩
  simpa using spared

lemma IsPaired.pushed (paired : b.IsPaired) (links : LinkStore) (content : Octets) :
    (links.pushed b content).IsPaired := by
  intro m other started
  rw [Has, at?_pushed (r := .uploadStart m other) trivial, if_neg (by simp),
    if_neg (by simp)] at started
  exact (paired m other started).pushed _ _

end Bucket

namespace UploadCall

variable {s : Site} {b : Bucket} {cache : DescriptorCache} {settings : Settings}
  {n : RepositoryName}

/-- What a call comes to: the answer, the bucket that it leaves, and that a failure leaves
everything as it was. -/
def Agrees (s : Site) (settings : Settings) (n : RepositoryName) (b : Bucket)
    (cache : DescriptorCache) (call : UploadCall) : Prop :=
  ∃ b' cache', (s.world b cache).run (call.action ⟨settings, n⟩) =
      ((b.buffers.answer settings n call).1, s.world b' cache') ∧
    call.Leaves settings n b b' ∧
    ∀ e, (b.buffers.answer settings n call).1 = .error e → b' = b ∧ cache' = cache

lemma Leaves.idle {call : UploadCall} (ledger : b.IsLedger) (paired : b.IsPaired)
    (idle : (b.buffers.answer settings n call).2 = b.buffers) : call.Leaves settings n b b :=
  ⟨ledger, paired, idle.symm, fun _ _ _ => rfl⟩

lemma Agrees.fails {call : UploadCall} {e : RegistryError} (ledger : b.IsLedger)
    (paired : b.IsPaired)
    (ran : (s.world b cache).run (call.action ⟨settings, n⟩) = (.error e, s.world b cache))
    (answers : b.buffers.answer settings n call = (.error e, b.buffers)) :
    Agrees s settings n b cache call := by
  rw [Agrees, answers]
  exact ⟨b, cache, ran, .idle ledger paired (by rw [answers]), fun _ _ => ⟨rfl, rfl⟩⟩

lemma facts_of_find {buffers : Buffers} {session : String} {id : UploadId} {buffer : Octets}
    (found : buffers.find n session = .ok (id, buffer)) :
    UploadId.Spells session id ∧ buffers.session n id = some buffer := by
  unfold Buffers.find at found
  cases read : UploadId.ofText? session with
  | none => rw [read] at found; cases found
  | some id' =>
    rw [read] at found
    cases held : buffers.session n id' with
    | none => simp only [held] at found; cases found
    | some buffer' =>
      simp only [held] at found
      obtain ⟨rfl, rfl⟩ := Prod.mk.inj (Except.ok.inj found)
      exact ⟨UploadId.ofText?_eq_some_iff.1 read, held⟩

lemma agrees_start (ledger : b.IsLedger) (paired : b.IsPaired) (id : UploadId) (time : String) :
    Agrees s settings n b cache (.start id time) := by
  let b₁ := b.put (Record.uploadContent n id).key []
  let b₂ := b₁.put (Record.uploadStart n id).key (Octets.ofText time)
  refine ⟨b₂, cache, ?_, ⟨?_, ?_, ?_, fun r lawful apart => ?_⟩, nofun⟩
  · simp only [action, Uploads.start, run_map, run_bind, Site.run_store, run_pure]
    rfl
  · exact (ledger.put (r := .uploadContent n id) trivial trivial).put
      (r := .uploadStart n id) trivial trivial
  · exact (paired.put []).putStart (Bucket.has_put b (.uploadContent n id) []) _
  · rw [Bucket.buffers_putStart, Bucket.buffers_put]
    rfl
  · simp only [Touches, not_or] at apart
    rw [Bucket.at?_put (r := .uploadStart n id) trivial lawful, if_neg (Ne.symm apart.2),
      Bucket.at?_put (r := .uploadContent n id) trivial lawful, if_neg (Ne.symm apart.1)]

lemma agrees_append (ledger : b.IsLedger) (paired : b.IsPaired) (session : String)
    (chunk : Octets) : Agrees s settings n b cache (.append session chunk) := by
  by_cases resumable : settings.resumable = true
  · have ran : (s.world b cache).run (Uploads.append ⟨settings, n⟩ session chunk) =
        match b.buffers.find n session with
        | .ok (id, buffer) => (.ok { id, offset := (buffer ++ chunk).length },
          s.world (b.put (Record.uploadContent n id).key (buffer ++ chunk)) cache)
        | .error e => (.error e, s.world b cache) := by
      unfold Uploads.append
      rw [if_pos resumable]
      refine (Uploads.run_content session _).trans ?_
      cases b.buffers.find n session <;> simp
    cases found : b.buffers.find n session with
    | error e =>
      rw [found] at ran
      exact .fails ledger paired (by rw [action, run_map, ran])
        (by simp [Buffers.answer, resumable, found])
    | ok opened =>
      obtain ⟨id, buffer⟩ := opened
      rw [found] at ran
      have answers : b.buffers.answer settings n (.append session chunk) =
          (.ok (.progress { id, offset := (buffer ++ chunk).length }),
            b.buffers.write n id (some (buffer ++ chunk))) := by
        simp [Buffers.answer, resumable, found]
      rw [Agrees, answers]
      refine ⟨_, cache, by rw [action, run_map, ran], ⟨?_, paired.put _, ?_, ?_⟩, nofun⟩
      · exact ledger.put (r := .uploadContent n id) trivial trivial
      · rw [answers, Bucket.buffers_put]
      · intro r lawful apart
        rw [Bucket.at?_put (r := .uploadContent n id) trivial lawful, if_neg]
        rintro rfl
        exact apart ⟨id, (facts_of_find found).1, rfl⟩
  · refine .fails ledger paired ?_ (if_neg resumable)
    rw [action, run_map, Uploads.append, if_neg resumable]
    rfl

lemma agrees_status (ledger : b.IsLedger) (paired : b.IsPaired) (session : String) :
    Agrees s settings n b cache (.status session) := by
  have ran : (s.world b cache).run (Uploads.status ⟨settings, n⟩ session) =
      match b.buffers.find n session with
      | .ok (id, buffer) => (.ok { id, offset := buffer.length }, s.world b cache)
      | .error e => (.error e, s.world b cache) := by
    rw [Uploads.status, run_bind, run_liftExcept, Uploads.readId, Buffers.find]
    cases UploadId.ofText? session with
    | none => rfl
    | some id =>
      have held : b.content? (Record.uploadContent n id).key = b.buffers.session n id := rfl
      simp only [run_bind, Site.run_size?, held]
      cases b.buffers.session n id <;> rfl
  cases found : b.buffers.find n session with
  | error e =>
    rw [found] at ran
    exact .fails ledger paired (by rw [action, run_map, ran]) (by simp [Buffers.answer, found])
  | ok opened =>
    rw [found] at ran
    have answers : b.buffers.answer settings n (.status session) =
        (.ok (.progress { id := opened.1, offset := opened.2.length }), b.buffers) := by
      simp [Buffers.answer, found]
    rw [Agrees, answers]
    exact ⟨b, cache, by rw [action, run_map, ran], .idle ledger paired (by rw [answers]), nofun⟩

lemma agrees_committed (ledger : b.IsLedger) (paired : b.IsPaired) {session : String}
    {d : Digest} {last buffer : Octets} {id : UploadId}
    (found : b.buffers.find n session = .ok (id, buffer))
    (named : Digest.ofContent (buffer ++ last) = d)
    (ran : (s.world b cache).run (Uploads.commit ⟨settings, n⟩ session d last) =
      (s.world b cache).run (do
        let descriptor ← (Repository.blobs ⟨settings, n⟩).put MediaType.octets (buffer ++ last)
        let _ ← Uploads.erase ⟨settings, n⟩ id
        return descriptor)) : Agrees s settings n b cache (.commit session d last) := by
  let links := Repository.blobs ⟨settings, n⟩
  let pushed := links.pushed b (buffer ++ last)
  let descriptor : Descriptor :=
    { mediaType := MediaType.octets, size := (buffer ++ last).length, digest := d }
  let noted := links.noted cache d descriptor
  have put : (s.world b cache).run (links.put MediaType.octets (buffer ++ last)) =
      (.ok descriptor, s.world pushed noted) := by
    rw [LinkStore.run_put, named]
  have ledger' : pushed.IsLedger := LinkStore.isLedger_pushed ledger links (buffer ++ last)
  have paired' : pushed.IsPaired := paired.pushed links (buffer ++ last)
  obtain ⟨b', erased, drops⟩ := Uploads.run_erase s noted settings n ledger' paired' id
  have answers : b.buffers.answer settings n (.commit session d last) =
      (.ok (.stored descriptor),
        (b.buffers.push settings n (buffer ++ last)).write n id none) := by
    simp [Buffers.answer, found, named, descriptor]
  rw [Agrees, answers]
  refine ⟨b', noted, ?_, ⟨drops.1, paired'.drops drops, ?_, ?_⟩, nofun⟩
  · rw [action, run_map, ran, run_bind, put]
    simp only [run_bind, erased, run_pure]
  · rw [answers, Bucket.buffers_drops drops, Bucket.buffers_pushed]
  · intro r lawful apart
    simp only [Touches, not_or, not_exists, not_and] at apart
    obtain ⟨other, otherBlob, otherLink⟩ := apart
    obtain ⟨otherContent, otherStart⟩ := other id (facts_of_find found).1
    have blob : r ≠ .blob links.blobs d := otherBlob
    have link : r ≠ .link links.current links.repository d := otherLink
    rw [(drops.2 r lawful).2 (not_or.2 ⟨otherContent, otherStart⟩), Bucket.at?_pushed lawful,
      named, if_neg link, if_neg fun both => blob both.1]

lemma agrees_commit (ledger : b.IsLedger) (paired : b.IsPaired) (session : String) (d : Digest)
    (last : Octets) : Agrees s settings n b cache (.commit session d last) := by
  have ran : (s.world b cache).run (Uploads.commit ⟨settings, n⟩ session d last) =
      match b.buffers.find n session with
      | .ok (id, buffer) => (s.world b cache).run (do
        d.verify (buffer ++ last)
        let descriptor ← (Repository.blobs ⟨settings, n⟩).put MediaType.octets (buffer ++ last)
        let _ ← Uploads.erase ⟨settings, n⟩ id
        return descriptor)
      | .error e => (.error e, s.world b cache) := Uploads.run_content session _
  cases found : b.buffers.find n session with
  | error e =>
    rw [found] at ran
    exact .fails ledger paired (by rw [action, run_map, ran]) (by simp [Buffers.answer, found])
  | ok opened =>
    obtain ⟨id, buffer⟩ := opened
    rw [found] at ran
    simp only at ran
    rw [run_bind, run_liftExcept, Digest.verify] at ran
    by_cases named : Digest.ofContent (buffer ++ last) = d
    · rw [if_pos named] at ran
      exact agrees_committed ledger paired found named ran
    · rw [if_neg named] at ran
      exact .fails ledger paired (by rw [action, run_map, ran])
        (by simp [Buffers.answer, found, named])

lemma agrees_cancel (ledger : b.IsLedger) (paired : b.IsPaired) (session : String) :
    Agrees s settings n b cache (.cancel session) := by
  cases read : UploadId.ofText? session with
  | none =>
    refine .fails ledger paired (e := .uploadUnknown session) ?_ ?_
    · rw [action, run_map, Uploads.cancel, run_bind, run_liftExcept, Uploads.readId, read]
    · simp [Buffers.answer, Buffers.find, read]
  | some id =>
    obtain ⟨b', erased, drops⟩ := Uploads.run_erase s cache settings n ledger paired id
    have ran : (s.world b cache).run (Uploads.cancel ⟨settings, n⟩ session) =
        if (b.buffers.session n id).isSome then (.ok (), s.world b' cache)
        else (.error (.uploadUnknown id.text), s.world b' cache) := by
      rw [Uploads.cancel, run_bind, run_liftExcept, Uploads.readId, read]
      simp only [run_bind, erased]
      cases b.buffers.session n id <;> rfl
    cases held : b.buffers.session n id with
    | none =>
      have missing : ¬b.Has (.uploadContent n id) := by
        change ¬(b.buffers.session n id).isSome = true
        simp [held]
      obtain rfl : b' = b := by
        refine Bucket.Drops.eq_of_none ledger (C := fun _ => False) (drops.congr ?_)
          fun _ => not_false
        rintro r - has
        refine iff_of_false ?_ not_false
        rintro (rfl | rfl)
        · exact missing has
        · exact missing (paired n id has)
      refine .fails ledger paired (e := .uploadUnknown id.text) ?_ ?_
      · rw [action, run_map, ran, held]
        rfl
      · simp [Buffers.answer, Buffers.find, read, held]
    | some buffer =>
      have answers : b.buffers.answer settings n (.cancel session) =
          (.ok .cancelled, b.buffers.write n id none) := by
        simp [Buffers.answer, Buffers.find, read, held]
      rw [Agrees, answers]
      refine ⟨b', cache, ?_, ⟨drops.1, paired.drops drops, ?_, ?_⟩, nofun⟩
      · rw [action, run_map, ran, held]
        rfl
      · rw [answers, Bucket.buffers_drops drops]
      · intro r lawful apart
        refine (drops.2 r lawful).2 fun gone => apart ⟨id, ?_, gone⟩
        exact UploadId.ofText?_eq_some_iff.1 read

lemma agrees (ledger : b.IsLedger) (paired : b.IsPaired) (call : UploadCall) :
    Agrees s settings n b cache call := by
  cases call with
  | start id time => exact agrees_start ledger paired id time
  | append session chunk => exact agrees_append ledger paired session chunk
  | status session => exact agrees_status ledger paired session
  | commit session d last => exact agrees_commit ledger paired session d last
  | cancel session => exact agrees_cancel ledger paired session

end UploadCall

/-- Sessions are buffers. Calls for any repositories and any sessions, one after the other, are
answered as the buffers say, and leave what they say; what is stored has its digest. Another call
then changes no records but its own, and if it fails it changes nothing at all, the cache included.
The sessions may be named in any form of their identifiers. -/
theorem UploadCall.performAll_agrees (s : Site) (settings : Settings) {b : Bucket}
    (ledger : b.IsLedger) (paired : b.IsPaired) (cache : DescriptorCache)
    (calls : List (RepositoryName × UploadCall)) :
    (∀ (session : String) (id : UploadId),
      UploadId.ofText? session = some id ↔ UploadId.Spells session id) ∧
    ∃ b' cache', performAll settings (s.world b cache) calls =
        ((b.buffers.answerAll settings calls).1, s.world b' cache') ∧
      b'.buffers = (b.buffers.answerAll settings calls).2 ∧
      (∀ store d content, b'.buffers.stored store d = some content →
        Digest.ofContent content = d) ∧
      ∀ n (call : UploadCall), ∃ b'' cache'',
        (s.world b' cache').run (call.action ⟨settings, n⟩) =
          ((b'.buffers.answer settings n call).1, s.world b'' cache'') ∧
        b''.buffers = (b'.buffers.answer settings n call).2 ∧
        (∀ r : Record, r.IsLawful → ¬call.Touches settings n r → b''.at? r = b'.at? r) ∧
        ∀ e, (b'.buffers.answer settings n call).1 = .error e → b'' = b' ∧ cache'' = cache' := by
  refine ⟨fun session id => UploadId.ofText?_eq_some_iff, ?_⟩
  induction calls generalizing b cache with
  | nil =>
    refine ⟨b, cache, rfl, rfl, fun store d content stored => ?_, fun n call => ?_⟩
    · exact ledger.mayHold (r := .blob store d) trivial stored
    obtain ⟨b'', cache'', ran, leaves, failed⟩ := call.agrees ledger paired
    exact ⟨b'', cache'', ran, leaves.buffers, leaves.untouched, failed⟩
  | cons first rest ih =>
    obtain ⟨n, call⟩ := first
    obtain ⟨b₁, cache₁, ran, leaves, -⟩ := call.agrees ledger paired
    obtain ⟨b', cache', ran', buffers, next⟩ := ih leaves.isLedger leaves.isPaired cache₁
    rw [leaves.buffers] at ran' buffers
    refine ⟨b', cache', ?_, buffers, next⟩
    rw [performAll, ran]
    simp only [ran', Buffers.answerAll]

def exampleSession : UploadId := ⟨"6a2f41a3c54c4ce892d20324e1c32e22".toList, by decide, by decide⟩

/-- Calls that name the session in other forms, and then call it once more. -/
def exampleCalls : List UploadCall := [
  .start exampleSession "",
  .append "6A2F41A3C54C4CE892D20324E1C32E22" (Octets.ofText "hello "),
  .status "urn:uuid:6a2f41a3-c54c-4ce8-92d2-0324e1c32e22",
  .commit "6a2f41a3-c54c-4ce8-92d2-0324e1c32e22" (.ofContent []) (Octets.ofText "world"),
  .commit "\x7b6a2f41a3-c54c-4ce8-92d2-0324e1c32e22\x7d" (.ofContent (Octets.ofText "hello world"))
    (Octets.ofText "world"),
  .status "6a2f41a3-c54c-4ce8-92d2-0324e1c32e22"]

def exampleUploads : Repository where
  settings := { scheme := Ed25519.scheme, reader := .plain }
  name := ⟨"library/app", RepositoryName.accepts_libraryApp⟩

def exampleWhole : Octets := Octets.ofText "hello world"

lemma answerAll_exampleCalls :
    let left := Buffers.answerAll exampleUploads.settings
      ⟨fun _ _ => none, fun _ _ => none, fun _ _ => false⟩
      (exampleCalls.map (exampleUploads.name, ·))
    left.1.map Except.isOk = [true, true, true, false, true, false] ∧
      left.2.stored .shared (.ofContent exampleWhole) = some exampleWhole ∧
      left.2.linked exampleUploads.name (.ofContent exampleWhole) = true ∧
      left.2.session exampleUploads.name exampleSession = none := by
  decide +kernel

/-- A session collects two pieces, is not ended by a wrong digest, and is gone when it became a
blob. -/
theorem exampleCalls_agree :
    ∃ answers b cache, UploadCall.performAll exampleUploads.settings
        ((⟨"registry", ∅, none⟩ : Site).world ∅ .empty)
        (exampleCalls.map (exampleUploads.name, ·)) =
          (answers, (⟨"registry", ∅, none⟩ : Site).world b cache) ∧
      answers.map Except.isOk = [true, true, true, false, true, false] ∧
      b.at? (.blob .shared (.ofContent exampleWhole)) = some exampleWhole ∧
      b.Has (.link .layer exampleUploads.name (.ofContent exampleWhole)) ∧
      b.at? (.uploadContent exampleUploads.name exampleSession) = none := by
  obtain ⟨-, b, cache, ran, buffers, -⟩ :=
    UploadCall.performAll_agrees ⟨"registry", ∅, none⟩ exampleUploads.settings
      Bucket.isLedger_empty (fun n id has => by simp [Bucket.Has] at has) .empty
      (exampleCalls.map (exampleUploads.name, ·))
  have start : (∅ : Bucket).buffers = ⟨fun _ _ => none, fun _ _ => none, fun _ _ => false⟩ := by
    simp [Bucket.buffers]
  obtain ⟨answers, stored, linked, closed⟩ := answerAll_exampleCalls
  rw [start] at ran buffers
  rw [← buffers] at stored linked closed
  exact ⟨_, b, cache, ran, answers, stored, linked, closed⟩

end ImageRegistry
