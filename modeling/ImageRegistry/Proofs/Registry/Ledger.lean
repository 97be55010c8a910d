import ImageRegistry.Registry.Repository
import ImageRegistry.Registry.Tags
import ImageRegistry.Proofs.Program.Site
import ImageRegistry.Proofs.Registry.Records
import ImageRegistry.Proofs.Text.Octets

/-! Buckets that hold records only, and what is read from them. -/

namespace ImageRegistry

def Record.MayHold : Record → Octets → Prop
  | blob _ d, content => Digest.ofContent content = d
  | link _ _ d, content | tagEntry _ _ d, content => content = Octets.ofText d.text
  | tagTarget _ _, content => ∃ d : Digest, content = Octets.ofText d.text
  | uploadContent _ _, _ | uploadStart _ _, _ => True

namespace Bucket

/-- What a bucket holds for a record. -/
def at? (b : Bucket) (r : Record) : Option Octets := b.content? r.key

/-- Whether a bucket holds a record. -/
def Has (b : Bucket) (r : Record) : Prop := (b.at? r).isSome = true

instance (b : Bucket) (r : Record) : Decidable (b.Has r) := inferInstanceAs (Decidable (_ = true))

/-- Every key of the bucket is that of a record, written as such. -/
def IsCatalog (b : Bucket) : Prop :=
  ∀ cs stored, b[cs]? = some stored → ∃ r : Record, r.IsLawful ∧ r.key.components = cs ∧
    r.key = stored.spelling

/-- Every key of the bucket is that of a record, written as such, with a content that the record
may have. -/
def IsLedger (b : Bucket) : Prop :=
  ∀ cs stored, b[cs]? = some stored → ∃ r : Record, r.IsLawful ∧ r.key.components = cs ∧
    r.key = stored.spelling ∧ r.MayHold stored.content

variable {b : Bucket} {r q : Record}

lemma has_iff : b.Has r ↔ ∃ content, b.at? r = some content := Option.isSome_iff_exists

@[simp] lemma at?_empty (r : Record) : (∅ : Bucket).at? r = none := by
  simp [at?, content?]

lemma Has.put (has : b.Has r) (key : Path) (content : Octets) : (b.put key content).Has r := by
  rw [Has, at?, content?_put]
  split_ifs
  · rfl
  · exact has

lemma has_put (b : Bucket) (r : Record) (content : Octets) : (b.put r.key content).Has r := by
  rw [Has, at?, content?_put, if_pos rfl]
  rfl

lemma at?_put (hr : r.IsLawful) (hq : q.IsLawful) (content : Octets) :
    (b.put r.key content).at? q = if r = q then some content else b.at? q := by
  rw [at?, content?_put]
  by_cases same : r = q
  · simp [same]
  · rw [if_neg fun h => same (Record.key_injective hr hq h), if_neg same, at?]

lemma at?_remove (hr : r.IsLawful) (hq : q.IsLawful) :
    (b.remove r.key).at? q = if r = q then none else b.at? q := by
  rw [at?, content?_remove]
  by_cases same : r = q
  · simp [same]
  · rw [if_neg fun h => same (Record.key_injective hr hq h), if_neg same, at?]

lemma Has.remove (has : b.Has q) (hr : r.IsLawful) (hq : q.IsLawful) (different : r ≠ q) :
    (b.remove r.key).Has q := by
  rw [Has, at?_remove hr hq, if_neg different]
  exact has

lemma isLedger_empty : IsLedger (∅ : Bucket) := by
  intro cs stored h
  simp at h

lemma IsLedger.isCatalog (h : b.IsLedger) : b.IsCatalog := fun cs stored found =>
  let ⟨r, lawful, components, spelling, _⟩ := h cs stored found
  ⟨r, lawful, components, spelling⟩

lemma IsCatalog.put (h : b.IsCatalog) (hr : r.IsLawful) (content : Octets) :
    (b.put r.key content).IsCatalog := by
  intro cs stored found
  rw [Bucket.put, Std.ExtTreeMap.getElem?_insert] at found
  split_ifs at found with same
  · rw [Std.compare_eq_iff_eq] at same
    obtain rfl := Option.some.inj found
    refine ⟨r, hr, same, ?_⟩
    cases old : b[r.key.components]? with
    | none => rfl
    | some stored =>
      obtain ⟨r', hr', components, spelling⟩ := h _ _ old
      rw [Record.key_injective hr hr' components.symm]
      exact spelling
  · exact h cs stored found

lemma IsCatalog.remove (h : b.IsCatalog) (key : Path) : (b.remove key).IsCatalog := by
  intro cs stored found
  rw [Bucket.remove, Std.ExtTreeMap.getElem?_erase] at found
  split_ifs at found
  exact h cs stored found

lemma IsLedger.put (h : b.IsLedger) (hr : r.IsLawful) {content : Octets}
    (holds : r.MayHold content) : (b.put r.key content).IsLedger := by
  intro cs stored found
  obtain ⟨q, hq, components, spelling⟩ := h.isCatalog.put hr content cs stored found
  refine ⟨q, hq, components, spelling, ?_⟩
  have held : (b.put r.key content).at? q = some stored.content := by
    rw [at?, content?, components, found]
    rfl
  rw [at?_put hr hq] at held
  split_ifs at held with same
  · obtain rfl := Option.some.inj held
    exact same ▸ holds
  · obtain ⟨stored', found', content⟩ := Option.map_eq_some_iff.1 held
    obtain ⟨q', hq', components', _, holds'⟩ := h _ _ found'
    rw [Record.key_injective hq' hq components'] at holds'
    exact content ▸ holds'

lemma IsLedger.remove (h : b.IsLedger) (key : Path) : (b.remove key).IsLedger := by
  intro cs stored found
  rw [Bucket.remove, Std.ExtTreeMap.getElem?_erase] at found
  split_ifs at found
  exact h cs stored found

lemma IsCatalog.mem_keys_iff (h : b.IsCatalog) {base p : Path} :
    p ∈ b.keys (some base) ↔
      ∃ r : Record, r.IsLawful ∧ b.Has r ∧ r.key.startsWith base = true ∧ r.key = p := by
  rw [mem_keys]
  constructor
  · rintro ⟨cs, stored, found, below, rfl⟩
    obtain ⟨r, hr, rfl, spelling⟩ := h _ _ found
    exact ⟨r, hr, by simp [Has, at?, content?, found], below, spelling⟩
  · rintro ⟨r, hr, has, below, rfl⟩
    obtain ⟨stored, found, _⟩ := Option.map_eq_some_iff.1 (has_iff.1 has).choose_spec
    obtain ⟨r', hr', components, spelling⟩ := h _ _ found
    rw [Record.key_injective hr hr' components.symm]
    rw [Record.key_injective hr hr' components.symm] at below found
    exact ⟨_, stored, found, below, spelling.symm⟩

lemma IsLedger.mem_keys_iff (h : b.IsLedger) {base p : Path} :
    p ∈ b.keys (some base) ↔
      ∃ r : Record, r.IsLawful ∧ b.Has r ∧ r.key.startsWith base = true ∧ r.key = p :=
  h.isCatalog.mem_keys_iff

lemma IsLedger.keys_ne_nil_iff (h : b.IsLedger) {base : Path} :
    b.keys (some base) ≠ [] ↔
      ∃ r : Record, r.IsLawful ∧ b.Has r ∧ r.key.startsWith base = true := by
  rw [← List.isEmpty_eq_false_iff, List.isEmpty_eq_false_iff_exists_mem]
  simp only [h.mem_keys_iff]
  constructor
  · rintro ⟨_, r, lawful, has, below, -⟩
    exact ⟨r, lawful, has, below⟩
  · rintro ⟨r, lawful, has, below⟩
    exact ⟨r.key, r, lawful, has, below, rfl⟩

lemma IsLedger.mayHold (h : b.IsLedger) (hr : r.IsLawful) {content : Octets}
    (found : b.at? r = some content) : r.MayHold content := by
  obtain ⟨stored, at_key, rfl⟩ := Option.map_eq_some_iff.1 found
  obtain ⟨r', hr', components, _, holds⟩ := h _ _ at_key
  rwa [Record.key_injective hr hr' components.symm]

lemma IsLedger.at?_link (h : b.IsLedger) {kind : LinkKind} {n : RepositoryName} {d : Digest}
    {content : Octets} (found : b.at? (.link kind n d) = some content) :
    content = Octets.ofText d.text := h.mayHold (r := .link kind n d) trivial found

lemma IsLedger.ext {b b' : Bucket} (h : b.IsLedger) (h' : b'.IsLedger)
    (same : ∀ r : Record, r.IsLawful → b.at? r = b'.at? r) : b = b' := by
  have finds {b b' : Bucket} (h : b.IsLedger) (h' : b'.IsLedger)
      (same : ∀ r : Record, r.IsLawful → b.at? r = b'.at? r) {cs : List Component} {stored : Stored}
      (found : b[cs]? = some stored) : b'[cs]? = some stored := by
    obtain ⟨r, lawful, rfl, spelling, _⟩ := h _ _ found
    have held : b'.at? r = some stored.content := by
      rw [← same r lawful, at?, content?, found]
      rfl
    obtain ⟨stored', found', content⟩ := Option.map_eq_some_iff.1 held
    obtain ⟨r', lawful', components, spelling', _⟩ := h' _ _ found'
    obtain rfl := Record.key_injective lawful' lawful components
    rw [found']
    cases stored
    cases stored'
    simp_all
  refine Std.ExtTreeMap.ext_getElem? fun cs => Option.ext fun stored => ?_
  exact ⟨finds h h' same, finds h' h fun r lawful => (same r lawful).symm⟩

/-- The second bucket is the first one without the records that are condemned. -/
def Drops (b b' : Bucket) (condemned : Record → Prop) : Prop :=
  b'.IsLedger ∧ ∀ r : Record, r.IsLawful →
    (condemned r → b'.at? r = none) ∧ (¬condemned r → b'.at? r = b.at? r)

namespace Drops

variable {b b' b'' : Bucket} {C D : Record → Prop}

lemma none (h : b.IsLedger) (empty : ∀ r, ¬C r) : b.Drops b C :=
  ⟨h, fun r _ => ⟨fun condemned => absurd condemned (empty r), fun _ => rfl⟩⟩

lemma single (h : b.IsLedger) {r : Record} (lawful : r.IsLawful) :
    b.Drops (b.remove r.key) fun other => r = other := by
  refine ⟨h.remove _, fun other lawful' => ⟨fun same => ?_, fun different => ?_⟩⟩
  · rw [at?_remove lawful lawful', if_pos same]
  · rw [at?_remove lawful lawful', if_neg different]

lemma trans (first : b.Drops b' C) (second : b'.Drops b'' D) :
    b.Drops b'' fun r => C r ∨ D r := by
  refine ⟨second.1, fun r lawful => ⟨fun condemned => ?_, fun spared => ?_⟩⟩
  · by_cases later : D r
    · exact (second.2 r lawful).1 later
    · rw [(second.2 r lawful).2 later]
      exact (first.2 r lawful).1 (condemned.resolve_right later)
  · rw [(second.2 r lawful).2 fun later => spared (.inr later),
      (first.2 r lawful).2 fun before => spared (.inl before)]

lemma congr (drops : b.Drops b' C) (same : ∀ r, r.IsLawful → b.Has r → (C r ↔ D r)) :
    b.Drops b' D := by
  refine ⟨drops.1, fun r lawful => ?_⟩
  by_cases has : b.Has r
  · rw [← same r lawful has]
    exact drops.2 r lawful
  · have missing : b.at? r = Option.none := by
      rw [Has, Bool.not_eq_true, Option.isSome_eq_false_iff, Option.isNone_iff_eq_none] at has
      exact has
    have still : b'.at? r = Option.none := by
      by_cases condemned : C r
      · exact (drops.2 r lawful).1 condemned
      · rw [(drops.2 r lawful).2 condemned, missing]
    exact ⟨fun _ => still, fun _ => by rw [still, missing]⟩

lemma removeAll (h : b.IsLedger) {keys : List Path}
    (records : ∀ key ∈ keys, ∃ r : Record, r.IsLawful ∧ r.key = key) :
    b.Drops (keys.foldl Bucket.remove b) fun r => r.key ∈ keys := by
  induction keys generalizing b with
  | nil => exact .none h fun _ => List.not_mem_nil
  | cons key keys ih =>
    obtain ⟨r, lawful, rfl⟩ := records key List.mem_cons_self
    have first := single h lawful
    have later := ih first.1 fun k mem => records k (List.mem_cons_of_mem _ mem)
    refine (first.trans later).congr fun q lawful' _ => ?_
    rw [List.mem_cons, eq_comm (a := q.key)]
    refine or_congr_left ⟨congrArg Record.key, fun same => ?_⟩
    exact Record.key_injective lawful lawful' (congrArg Path.components same)

lemma removeBelow (h : b.IsLedger) (base : Path) :
    b.Drops ((b.keys (some base)).foldl Bucket.remove b) fun r =>
      r.IsLawful ∧ r.key.startsWith base = true := by
  have records (key : Path) (mem : key ∈ b.keys (some base)) :
      ∃ r : Record, r.IsLawful ∧ r.key = key := by
    obtain ⟨r, lawful, _, _, same⟩ := h.mem_keys_iff.1 mem
    exact ⟨r, lawful, same⟩
  refine (removeAll h records).congr fun r lawful has => ?_
  rw [h.mem_keys_iff]
  constructor
  · rintro ⟨q, lawful', _, startsBelow, same⟩
    exact ⟨lawful, same ▸ startsBelow⟩
  · exact fun startsBelow => ⟨r, lawful, has, startsBelow.2, rfl⟩

lemma unique (drops : b.Drops b' C) (drops' : b.Drops b'' C) : b' = b'' := by
  refine drops.1.ext drops'.1 fun r lawful => ?_
  by_cases condemned : C r
  · rw [(drops.2 r lawful).1 condemned, (drops'.2 r lawful).1 condemned]
  · rw [(drops.2 r lawful).2 condemned, (drops'.2 r lawful).2 condemned]

lemma eq_of_none (h : b.IsLedger) (drops : b.Drops b' C) (empty : ∀ r, ¬C r) : b' = b :=
  drops.1.ext h fun r lawful => (drops.2 r lawful).2 (empty r)

lemma has (drops : b.Drops b' C) {r : Record} (lawful : r.IsLawful) :
    b'.Has r ↔ b.Has r ∧ ¬C r := by
  by_cases condemned : C r
  · simp [Bucket.Has, (drops.2 r lawful).1 condemned, condemned]
  · simp [Bucket.Has, (drops.2 r lawful).2 condemned, condemned]

lemma content? (h : b.IsLedger) (drops : b.Drops b' C) (lawful : ∀ r, C r → r.IsLawful)
    (key : Path) :
    ((∃ r, C r ∧ r.key.components = key.components) → b'.content? key = Option.none) ∧
      (¬(∃ r, C r ∧ r.key.components = key.components) → b'.content? key = b.content? key) := by
  have told (b : Bucket) {r : Record} (same : r.key.components = key.components) :
      b.content? key = b.at? r := by
    simp only [at?, Bucket.content?, same]
  constructor
  · rintro ⟨r, condemned, same⟩
    rw [told b' same]
    exact (drops.2 r (lawful r condemned)).1 condemned
  · intro spared
    by_cases isRecord : ∃ r : Record, r.IsLawful ∧ r.key.components = key.components
    · obtain ⟨r, hr, same⟩ := isRecord
      rw [told b' same, told b same]
      exact (drops.2 r hr).2 fun condemned => spared ⟨r, condemned, same⟩
    · have nothing {b : Bucket} (h : b.IsLedger) : b.content? key = Option.none := by
        rw [Bucket.content?, Option.map_eq_none_iff, Option.eq_none_iff_forall_ne_some]
        intro stored found
        obtain ⟨r, hr, same, -⟩ := h _ _ found
        exact isRecord ⟨r, hr, same⟩
      rw [nothing drops.1, nothing h]

end Drops

end Bucket
end ImageRegistry
