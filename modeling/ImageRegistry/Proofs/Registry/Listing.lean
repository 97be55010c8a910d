import Mathlib.Data.List.Induction
import ImageRegistry.Proofs.Registry.Queries

/-! What can be told from the keys of a bucket. No key of a record is at or below the key of another
one, and from the keys of any records it is told which repositories, blobs, links and tags there
are. -/

namespace ImageRegistry

namespace Record

lemma eq_nil_of_place_append {a b : Record} {rest : List String}
    (h : a.place = b.place ++ rest) : rest = [] := by
  cases b with
  | blob s d =>
    cases a with
    | blob t e => cases s <;> cases t <;> simp_all [place]
    | link kind m e => cases s <;> cases kind <;> simp [place, LinkKind.place] at h
    | tagTarget | tagEntry | uploadContent | uploadStart => cases s <;> simp [place] at h
  | link kind n d =>
    cases a with
    | blob t e => cases kind <;> cases t <;> simp [place, LinkKind.place] at h
    | link kind' m e => cases kind <;> cases kind' <;> simp_all [place, LinkKind.place]
    | tagTarget | tagEntry | uploadContent | uploadStart =>
      cases kind <;> simp [place, LinkKind.place] at h
  | tagTarget n t | tagEntry n t d | uploadContent n id | uploadStart n id =>
    cases a with
    | blob s e => cases s <;> simp [place] at h
    | link kind m e => cases kind <;> simp [place, LinkKind.place] at h
    | tagTarget | tagEntry | uploadContent | uploadStart => simp_all [place]

lemma eq_of_isPrefix {a b : Record} (h : b.steps <+: a.steps) : a = b := by
  obtain ⟨rest, h⟩ := h
  have below : b.steps.isPrefixOf? a.steps = some rest :=
    List.isPrefixOf?_eq_some_iff_append_eq.2 h
  cases ho : b.owner? with
  | some n =>
    obtain ⟨part, more, hb, isPart⟩ := exists_part ho
    rw [steps, ho, hb, isPrefixOf?_steps a n more isPart] at below
    split_ifs at below with owner
    have place : a.place = b.place ++ rest := by
      rw [hb]
      exact (List.isPrefixOf?_eq_some_iff_append_eq.1 below).symm
    obtain rfl := eq_nil_of_place_append place
    exact eq_of_place (owner.trans ho.symm) (by simpa using place)
  | none =>
    obtain ⟨d, rfl⟩ := exists_shared ho
    cases ha : a.owner? with
    | some n =>
      rw [steps, steps, ha] at h
      simp [owner?, Layout.ownerSteps, place] at h
    | none =>
      rw [steps, steps, ha, ho, List.append_assoc] at h
      have place := (List.append_cancel_left h).symm
      obtain rfl := eq_nil_of_place_append place
      exact eq_of_place (ha.trans ho.symm) (by simpa using place)

theorem eq_of_startsWith {a b : Record} (ha : a.IsLawful) (hb : b.IsLawful)
    (h : a.key.startsWith b.key = true) : a = b := by
  rw [Path.startsWith, List.isPrefixOf_iff_prefix, (leads_key ha).2, (leads_key hb).2] at h
  exact eq_of_isPrefix ((List.prefix_map_iff_of_injective fun _ _ => Component.name.inj).1 h)

end Record

namespace Bucket

/-- The bucket that holds some records with their contents, and nothing else. -/
def ofRecords (entries : List (Record × Octets)) : Bucket :=
  entries.foldl (fun b entry => b.put entry.1.key entry.2) ∅

variable {entries : List (Record × Octets)}

lemma ofRecords_append (entry : Record × Octets) :
    ofRecords (entries ++ [entry]) = (ofRecords entries).put entry.1.key entry.2 := by
  simp [ofRecords]

lemma isCatalog_ofRecords (lawful : ∀ entry ∈ entries, entry.1.IsLawful) :
    (ofRecords entries).IsCatalog := by
  induction entries using List.reverseRecOn with
  | nil => exact isLedger_empty.isCatalog
  | append_singleton entries entry ih =>
    rw [ofRecords_append]
    exact (ih fun e mem => lawful e (by simp [mem])).put (lawful entry (by simp)) entry.2

lemma has_ofRecords (lawful : ∀ entry ∈ entries, entry.1.IsLawful) {r : Record}
    (hr : r.IsLawful) : (ofRecords entries).Has r ↔ ∃ content, (r, content) ∈ entries := by
  induction entries using List.reverseRecOn with
  | nil => simp [ofRecords, Has]
  | append_singleton entries entry ih =>
    have first := ih fun e mem => lawful e (by simp [mem])
    rw [ofRecords_append, Has, at?_put (lawful entry (by simp)) hr]
    split_ifs with same
    · subst same
      simp only [Option.isSome_some, true_iff]
      exact ⟨entry.2, by simp⟩
    · have other (content : Octets) : (r, content) ≠ entry := by
        rintro rfl
        exact same rfl
      simpa [other, Has] using first

end Bucket

/-- The members of a list are exactly those with a property, in ascending order and each once. -/
def Lists {α : Type} [Ord α] (xs : List α) (P : α → Prop) : Prop :=
  xs.Pairwise (fun x y => compare x y = .lt) ∧ ∀ x, x ∈ xs ↔ P x

/-- Different records have keys of which none is at or below the other, and from the keys of any
records everything is listed that they are records of. -/
theorem Layout.keys_tell_records (entries : List (Record × Octets))
    (lawful : ∀ entry ∈ entries, entry.1.IsLawful) (s : Site) (cache : DescriptorCache) :
    (∀ a b : Record, a.IsLawful → b.IsLawful → a ≠ b →
      a.key.components ≠ b.key.components ∧ a.key.startsWith b.key = false) ∧
    let w := s.world (.ofRecords entries) cache
    let Held (r : Record) : Prop := ∃ content, (r, content) ∈ entries
    (∃ names, w.run Repository.names = (.ok names, w) ∧
      Lists names fun n => ∃ r, Held r ∧ r.owner? = some n) ∧
    (∀ store : BlobStore, ∃ ds, w.run store.enumerate = (.ok ds, w) ∧
      Lists ds fun d => Held (.blob store d)) ∧
    (∀ links : LinkStore, ∃ ds, w.run links.enumerate = (.ok ds, w) ∧
      Lists ds fun d => Held (.link links.current links.repository d)) ∧
    (∀ n t, TagName.accepts t = true → ∃ ds, w.run (Tags.history n t) = (.ok ds, w) ∧
      Lists ds fun d => Held (.tagEntry n t d)) ∧
    ∀ n, ∃ ts, w.run (Tags.all n) = (.ok ts, w) ∧ Lists ts fun t => Held (.tagTarget n t) := by
  have catalog := Bucket.isCatalog_ofRecords lawful
  have has {r : Record} (hr : r.IsLawful) := Bucket.has_ofRecords lawful hr
  refine ⟨fun a b ha hb different => ⟨fun same => ?_, ?_⟩, ?_, fun store => ?_, fun links => ?_,
    fun n t accepted => ?_, fun n => ?_⟩
  · exact different (Record.key_injective ha hb same)
  · exact Bool.eq_false_iff.2 fun below => different (Record.eq_of_startsWith ha hb below)
  · refine ⟨_, s.run_repositories cache, pairwise_ascending _, fun n => ?_⟩
    rw [catalog.mem_repositories]
    constructor
    · rintro ⟨r, hr, held, owner⟩
      exact ⟨r, (has hr).1 held, owner⟩
    · rintro ⟨r, ⟨content, mem⟩, owner⟩
      have hr := lawful _ mem
      exact ⟨r, hr, (has hr).2 ⟨content, mem⟩, owner⟩
  · refine ⟨_, s.run_enumerateBlobs cache store, pairwise_ascending _, fun d => ?_⟩
    exact catalog.mem_storedDigests.trans (has (r := .blob store d) trivial)
  · refine ⟨_, s.run_enumerate cache links, pairwise_ascending _, fun d => ?_⟩
    exact catalog.mem_linkedDigests.trans (has (r := .link _ _ d) trivial)
  · refine ⟨_, s.run_remembered cache n t, pairwise_ascending _, fun d => ?_⟩
    exact (catalog.mem_remembered accepted).trans (has (r := .tagEntry n t d) accepted)
  · refine ⟨_, s.run_tags cache n, pairwise_ascending _, fun t => ?_⟩
    rw [catalog.mem_tags]
    constructor
    · rintro ⟨accepted, held⟩
      exact (has (r := .tagTarget n t) accepted).1 held
    · rintro ⟨content, mem⟩
      have accepted : TagName.accepts t = true := lawful _ mem
      exact ⟨accepted, (has (r := .tagTarget n t) accepted).2 ⟨content, mem⟩⟩

/-- Records of which the repositories and the tags are called like parts of the layout. -/
def Layout.confusingRecords : List (Record × Octets) :=
  let blobs : RepositoryName := ⟨"blobs", by decide +kernel⟩
  let nested : RepositoryName := ⟨"blobs/data", by decide +kernel⟩
  let d : Digest := .ofContent []
  [(.blob .shared d, []), (.blob (.ofRepository blobs) d, []), (.link .layer nested d, []),
    (.tagTarget blobs "current", []), (.tagTarget nested "link", []),
    (.tagEntry blobs "index" d, [])]

/-- The only tag of a repository is found, though others look like it. -/
theorem Layout.confusingRecords_told :
    let blobs : RepositoryName := ⟨"blobs", by decide +kernel⟩
    let w := (⟨"registry", ∅, none⟩ : Site).world (.ofRecords confusingRecords) .empty
    (∀ entry ∈ confusingRecords, entry.1.IsLawful) ∧
    ∃ ts, w.run (Tags.all blobs) = (.ok ts, w) ∧ ∀ t, t ∈ ts ↔ t = "current" := by
  intro blobs w
  have lawful : ∀ entry ∈ confusingRecords, entry.1.IsLawful := by
    have current : TagName.accepts "current" = true := by decide +kernel
    have link : TagName.accepts "link" = true := by decide +kernel
    have index : TagName.accepts "index" = true := by decide +kernel
    simp [confusingRecords, Record.IsLawful, current, link, index]
  obtain ⟨-, -, -, -, -, told⟩ :=
    keys_tell_records confusingRecords lawful ⟨"registry", ∅, none⟩ .empty
  obtain ⟨ts, ran, -, listed⟩ := told blobs
  refine ⟨lawful, ts, ran, fun t => (listed t).trans ?_⟩
  simp [confusingRecords, blobs]

end ImageRegistry
