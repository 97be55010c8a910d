import ImageRegistry.Proofs.Registry.Keyspace

/-! Storage backends that keep the records of a registry: what they reply does not depend on whether
they keep them in memory or on a disk. -/

namespace ImageRegistry

namespace Backend

/-- A backend keeps what a bucket holds. A bucket that is missing in memory is kept as an empty
one. -/
def Keeps (backend : Backend) (bucket : String) (b : Bucket) : Prop :=
  match backend with
  | memory m => m.buckets[bucket]? = some b ∨ m.buckets[bucket]? = none ∧ b = ∅
  | disk d => d.Keeps Layout.keyspace bucket b

variable {backend : Backend} {bucket : String} {b : Bucket} {r : Record} {base : Path}

lemma delete_disk {d d' : Disk} {key : Path} (deleted : d.delete bucket key = .ok d') :
    (disk d).delete bucket key = (.ok (), disk d') := by
  delta delete
  dsimp only
  rw [deleted]

lemma content?_empty (key : Path) : (∅ : Bucket).content? key = none := by
  simp [Bucket.content?]

section

variable (keeps : backend.Keeps bucket b) (lawful : r.IsLawful)

include keeps lawful

lemma Keeps.metadata : Action.unlessMissing (backend.metadata bucket r.key) =
    pure ((b.content? r.key).map List.length) := by
  cases backend with
  | memory m =>
    change Action.unlessMissing (m.metadata bucket r.key) = _
    rcases keeps with found | ⟨missing, rfl⟩
    · rw [Memory.metadata, Memory.bucket, found]
      cases held : b.content? r.key <;> simp only [bind, Except.bind, held] <;> rfl
    · rw [Memory.metadata, Memory.bucket, missing, content?_empty]
      rfl
  | disk d =>
    change Action.unlessMissing (d.metadata bucket r.key) = _
    rw [Bucket.content?_key lawful, Record.key_eq_along lawful,
      Disk.Keeps.metadata keeps ⟨r, lawful, rfl⟩]
    cases b.along? r.steps <;> rfl

lemma Keeps.download : Action.unlessMissing (backend.download bucket r.key) =
    pure (b.content? r.key) := by
  cases backend with
  | memory m =>
    change Action.unlessMissing (m.download bucket r.key) = _
    rcases keeps with found | ⟨missing, rfl⟩
    · rw [Memory.download, Memory.bucket, found]
      cases held : b.content? r.key <;> simp only [bind, Except.bind, held] <;> rfl
    · rw [Memory.download, Memory.bucket, missing, content?_empty]
      rfl
  | disk d =>
    change Action.unlessMissing (d.download bucket r.key) = _
    rw [Bucket.content?_key lawful, Record.key_eq_along lawful,
      Disk.Keeps.download keeps ⟨r, lawful, rfl⟩]
    cases b.along? r.steps <;> rfl

lemma Keeps.upload (content : Octets) :
    ∃ after, backend.upload bucket r.key content = (.ok (), after) ∧
      after.Keeps bucket (b.put r.key content) := by
  cases backend with
  | memory m =>
    refine ⟨.memory (m.upload bucket r.key content), rfl, .inl ?_⟩
    rcases keeps with found | ⟨missing, rfl⟩
    · rw [Memory.upload, Std.ExtTreeMap.getElem?_insert_self, found, Option.getD_some]
    · rw [Memory.upload, Std.ExtTreeMap.getElem?_insert_self, missing, Option.getD_none]
  | disk d =>
    obtain ⟨d', ran, kept⟩ := Disk.Keeps.upload keeps ⟨r, lawful, rfl⟩ content
    refine ⟨.disk d', ?_, ?_⟩
    · rw [Record.key_eq_along lawful]
      simp only [Backend.upload, ran]
    · rw [Record.key_eq_along lawful]
      exact kept

lemma Keeps.delete (has : b.Has r) :
    ∃ after, backend.delete bucket r.key = (.ok (), after) ∧
      after.Keeps bucket (b.remove r.key) := by
  cases backend with
  | memory m =>
    rcases keeps with found | ⟨missing, rfl⟩
    · have deleted : m.delete bucket r.key = .ok ⟨m.buckets.insert bucket (b.remove r.key)⟩ := by
        rw [Memory.delete, Memory.bucket, found]
        rfl
      refine ⟨.memory ⟨m.buckets.insert bucket (b.remove r.key)⟩, ?_,
        .inl Std.ExtTreeMap.getElem?_insert_self⟩
      exact delete_memory deleted
    · rw [Bucket.Has, Bucket.at?_empty] at has
      cases has
  | disk d =>
    obtain ⟨d', ran, kept⟩ := Disk.Keeps.delete keeps ⟨r, lawful, rfl⟩
    refine ⟨.disk d', ?_, ?_⟩
    · rw [Record.key_eq_along lawful]
      exact delete_disk ran
    · rw [Record.key_eq_along lawful]
      exact kept

end

lemma Keeps.list (keeps : backend.Keeps bucket b) (folder : Layout.IsFolder base) :
    ∃ found, Action.unlessMissing (backend.list bucket (some base)) = pure found ∧
      found.getD [] = b.keys (some base) := by
  cases backend with
  | memory m =>
    change ∃ found, Action.unlessMissing (m.list bucket (some base)) = pure found ∧ _
    rcases keeps with found | ⟨missing, rfl⟩
    · rw [Memory.list, Memory.bucket, found]
      exact ⟨_, rfl, rfl⟩
    · rw [Memory.list, Memory.bucket, missing]
      exact ⟨none, rfl, rfl⟩
  | disk d =>
    obtain ⟨r, names, more, lawful, nonempty, proper, rfl, steps⟩ := folder
    have isFileName : ∀ s ∈ names, Path.IsFileName s := fun s mem =>
      Record.isFileName_steps lawful s (steps ▸ List.mem_append_left more mem)
    have isName : ∀ s ∈ names, Path.IsName s := fun s mem => (isFileName s mem).1
    have listed : d.list bucket (some (.along names)) = b.keys (some (.along names)) :=
      Disk.Keeps.list rfl keeps (Disk.path_along d bucket isName nonempty).symm isFileName
        (fun _ => Layout.keyspace_not_contains lawful proper steps)
        (Bucket.selects_some isName nonempty)
    refine ⟨some (d.list bucket (some (.along names))), rfl, ?_⟩
    rw [Option.getD_some, listed]

lemma Keeps.toOption_list (keeps : backend.Keeps bucket b) :
    (backend.list bucket none).toOption.getD [] = b.keys none := by
  cases backend with
  | memory m =>
    change (m.list bucket none).toOption.getD [] = _
    rcases keeps with found | ⟨missing, rfl⟩
    · rw [Memory.list, Memory.bucket, found]
      rfl
    · rw [Memory.list, Memory.bucket, missing]
      rfl
  | disk d =>
    have listed : d.list bucket none = b.keys none :=
      Disk.Keeps.list rfl keeps rfl (by simp)
        (fun _ none contains => Layout.keyspace.nonempty contains (List.prefix_nil.1 none))
        Bucket.selects_none
    exact listed

lemma Keeps.toOption_download (keeps : backend.Keeps bucket b) {key : Path} (plain : key.IsPlain) :
    (backend.download bucket key).toOption = b.content? key := by
  cases backend with
  | memory m =>
    change (m.download bucket key).toOption = _
    rcases keeps with found | ⟨missing, rfl⟩
    · rw [Memory.download, Memory.bucket, found]
      cases held : b.content? key <;> simp only [bind, Except.bind, held] <;> rfl
    · rw [Memory.download, Memory.bucket, missing, content?_empty]
      rfl
  | disk d =>
    have names : splitText '/' key.text ≠ [] := by simp [splitText, pieces_ne_nil]
    rw [plain.eq_along plain.components, b.content?_along plain names]
    exact Disk.Keeps.toOption_download keeps plain names

end Backend

namespace World

open ImageRegistry.Action

/-- A registry stores what a bucket holds, records only, and no call is made to fail. -/
structure Stores (w : World) (b : Bucket) : Prop where
  faultless : w.faults = []
  catalog : b.IsCatalog
  keeps : w.backend.Keeps w.bucket b

variable {w : World} {b : Bucket} {r : Record} {base : Path}

lemma Stores.answer (stores : w.Stores b) (c : Call) : w.answer c = w.reply c := by
  obtain ⟨faultless, -, -⟩ := stores
  cases w
  subst faultless
  cases c <;> rfl

lemma Stores.after (stores : w.Stores b) {after : Backend} {b' : Bucket} (catalog : b'.IsCatalog)
    (keeps : after.Keeps w.bucket b') : { w with backend := after }.Stores b' :=
  ⟨stores.faultless, catalog, keeps⟩

section

variable (stores : w.Stores b) (lawful : r.IsLawful)

include stores lawful

lemma Stores.run_size? :
    w.run (size? r.key) = (.ok ((b.content? r.key).map List.length), w) := by
  rw [size?, run_bind, run_call, stores.answer]
  change w.run (unlessMissing (w.backend.metadata w.bucket r.key)) = _
  rw [stores.keeps.metadata lawful, run_pure]

lemma Stores.run_fetch? : w.run (fetch? r.key) = (.ok (b.content? r.key), w) := by
  rw [fetch?, run_bind, run_call, stores.answer]
  change w.run (unlessMissing (w.backend.download w.bucket r.key)) = _
  rw [stores.keeps.download lawful, run_pure]

lemma Stores.run_store (content : Octets) :
    ∃ after, w.run (store r.key content) = (.ok (), { w with backend := after }) ∧
      { w with backend := after }.Stores (b.put r.key content) := by
  obtain ⟨after, ran, keeps⟩ := stores.keeps.upload lawful content
  refine ⟨after, ?_, stores.after (stores.catalog.put lawful content) keeps⟩
  have replied : w.reply (.upload r.key content) = (.ok (), { w with backend := after }) := by
    rw [reply]
    simp only [ran]
  rw [store, run_bind, run_call, stores.answer, replied]
  rfl

lemma Stores.run_erase (has : b.Has r) :
    ∃ after, w.run (erase r.key) = (.ok (), { w with backend := after }) ∧
      { w with backend := after }.Stores (b.remove r.key) := by
  obtain ⟨after, ran, keeps⟩ := stores.keeps.delete lawful has
  refine ⟨after, ?_, stores.after (stores.catalog.remove r.key) keeps⟩
  have replied : w.reply (.delete r.key) = (.ok (), { w with backend := after }) :=
    congrArg (fun reply => (reply.1, { w with backend := reply.2 })) ran
  rw [erase, run_bind, run_call, stores.answer, replied]
  rfl

lemma Stores.run_eraseIfHeld :
    ∃ after, w.run (eraseIfHeld r.key) =
        (.ok (b.content? r.key).isSome, { w with backend := after }) ∧
      { w with backend := after }.Stores (b.remove r.key) := by
  have held : w.run (holds r.key) = (.ok (b.content? r.key).isSome, w) := by
    rw [holds, run_bind, stores.run_size? lawful]
    simp
  rw [eraseIfHeld, run_bind, held]
  cases found : b.content? r.key with
  | none =>
    refine ⟨w.backend, rfl, ?_⟩
    rw [Bucket.remove_of_content?_eq_none found]
    exact stores
  | some content =>
    have has : b.Has r := by rw [Bucket.Has, Bucket.at?, found]; rfl
    obtain ⟨after, ran, stores'⟩ := stores.run_erase lawful has
    refine ⟨after, ?_, stores'⟩
    simp only [Option.isSome_some, if_true]
    rw [run_bind, ran]
    rfl

end

lemma Stores.run_keysBelow (stores : w.Stores b) (folder : Layout.IsFolder base) :
    w.run (keysBelow base) = (.ok (b.keys (some base)), w) := by
  obtain ⟨found, listed, same⟩ := stores.keeps.list folder
  rw [keysBelow, run_bind, run_call, stores.answer]
  change w.run (do return (← unlessMissing (w.backend.list w.bucket (some base))).getD []) = _
  rw [listed, ← same]
  rfl

lemma Stores.run_forM_erase (stores : w.Stores b) {keys : List Path} (nodup : keys.Nodup)
    (held : ∀ key ∈ keys, ∃ r : Record, r.IsLawful ∧ b.Has r ∧ r.key = key) :
    ∃ after, w.run (keys.forM erase) = (.ok ⟨⟩, { w with backend := after }) ∧
      { w with backend := after }.Stores (keys.foldl Bucket.remove b) := by
  induction keys generalizing w b with
  | nil => exact ⟨w.backend, rfl, stores⟩
  | cons key keys ih =>
    obtain ⟨r, lawful, has, rfl⟩ := held key List.mem_cons_self
    obtain ⟨after, ran, stores'⟩ := stores.run_erase lawful has
    obtain ⟨fresh, nodup⟩ := List.nodup_cons.1 nodup
    obtain ⟨after', ran', stores''⟩ := ih stores' nodup fun key mem => by
      obtain ⟨q, lawful', has', rfl⟩ := held key (List.mem_cons_of_mem _ mem)
      exact ⟨q, lawful', has'.remove lawful lawful' fun same => fresh (same ▸ mem), rfl⟩
    refine ⟨after', ?_, stores''⟩
    change w.run (erase r.key >>= fun _ => keys.forM erase) = _
    rw [run_bind, ran]
    exact ran'

lemma Stores.run_eraseBelow (stores : w.Stores b) (folder : Layout.IsFolder base) :
    ∃ after, w.run (do
        let keys ← keysBelow base
        keys.forM erase
        return !keys.isEmpty : Action Bool) =
      (.ok !(b.keys (some base)).isEmpty, { w with backend := after }) ∧
      { w with backend := after }.Stores ((b.keys (some base)).foldl Bucket.remove b) := by
  have nodup : (b.keys (some base)).Nodup :=
    nodup_of_ascending (stores.catalog.isIn.pairwise_keys (some base))
  obtain ⟨after, ran, stores'⟩ := stores.run_forM_erase nodup fun key mem => by
    obtain ⟨r, lawful, has, -, same⟩ := stores.catalog.mem_keys_iff.1 mem
    exact ⟨r, lawful, has, same⟩
  refine ⟨after, ?_, stores'⟩
  rw [run_bind, stores.run_keysBelow folder]
  dsimp only
  rw [run_bind, ran]
  rfl

end World
end ImageRegistry
