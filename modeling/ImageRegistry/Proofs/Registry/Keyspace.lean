import ImageRegistry.Proofs.Registry.Confinement
import ImageRegistry.Proofs.Registry.Listing
import ImageRegistry.Proofs.Storage.Listings

/-! The keys of records in a tree of files: none of them is in the way of another one, or of where
another one is staged, and the files below a path of the layout are the records there. -/

namespace ImageRegistry

open ImageRegistry.Path (IsFileName IsName IsStep Leads)

namespace Digest

lemma isFileName_of_mem_hex {cs : List Char} (step : IsStep (String.ofList cs))
    (digits : ∀ c ∈ cs, Hex.isLowerDigit c = true) : IsFileName (String.ofList cs) := by
  refine ⟨step.isName, fun null => ?_⟩
  rw [String.toList_ofList] at null
  exact absurd (digits _ null) (by decide)

lemma isFileName_hex (d : Digest) : IsFileName d.hex :=
  ⟨d.isStep_hex.isName, fun null => absurd (isLowerDigit_of_mem_hex null) (by decide)⟩

lemma isFileName_shard (d : Digest) : IsFileName (Layout.shard d) := by
  refine isFileName_of_mem_hex d.isStep_shard fun c mem => ?_
  exact isLowerDigit_of_mem_hex (List.mem_of_mem_take mem)

end Digest

lemma TagName.isFileName_of_accepts {t : String} (accepted : accepts t = true) : IsFileName t := by
  refine ⟨(isStep_of_accepts accepted).isName, fun null => ?_⟩
  unfold accepts at accepted
  cases chars : t.toList with
  | nil =>
    rw [chars] at null
    cases null
  | cons c cs =>
    simp only [chars, Bool.and_eq_true] at accepted null
    obtain ⟨⟨first, rest⟩, -⟩ := accepted
    rcases List.mem_cons.1 null with rfl | mem
    · exact absurd first (by decide +kernel)
    · exact absurd (List.all_eq_true.1 rest _ mem) (by decide +kernel)

lemma UploadId.isFileName_text (id : UploadId) : IsFileName id.text := by
  have digits : ∀ c ∈ id.digits, Hex.isLowerDigit c = true := List.all_eq_true.1 id.isLower
  have other : ¬Hex.isLowerDigit (Char.ofNat 0) = true := by decide
  refine ⟨id.isStep_text.isName, fun null => ?_⟩
  rw [text, String.toList_ofList] at null
  have hyphen : Char.ofNat 0 ≠ '-' := by decide
  simp only [grouped, List.mem_append, List.mem_cons, hyphen, false_or] at null
  rcases null with h | h | h | h | h
  · exact other (digits _ (List.mem_of_mem_take h))
  · exact other (digits _ (List.mem_of_mem_drop (List.mem_of_mem_take h)))
  · exact other (digits _ (List.mem_of_mem_drop (List.mem_of_mem_take h)))
  · exact other (digits _ (List.mem_of_mem_drop (List.mem_of_mem_take h)))
  · exact other (digits _ (List.mem_of_mem_drop h))

namespace RepositoryName

lemma not_mem_of_completes {p : Progress} {cs : List Char} (completed : completes p cs = true) :
    Char.ofNat 0 ∉ cs := by
  induction cs generalizing p with
  | nil => simp
  | cons c cs ih =>
    rw [completes] at completed
    cases next : p.next? c with
    | none =>
      rw [next] at completed
      cases completed
    | some q =>
      rw [next] at completed
      rw [List.mem_cons, not_or]
      refine ⟨?_, ih completed⟩
      rintro rfl
      have nowhere : p.next? (Char.ofNat 0) = none := by cases p <;> rfl
      rw [nowhere] at next
      cases next

lemma isFileName_of_mem_steps {n : RepositoryName} {s : String} (mem : s ∈ n.steps) :
    IsFileName s := by
  refine ⟨(isStep_of_mem_steps mem).isName, fun null => ?_⟩
  have accepted := n.accepted
  simp only [accepts, Bool.and_eq_true] at accepted
  obtain ⟨piece, inText, rfl⟩ := List.mem_map.1 mem
  rw [String.toList_ofList] at null
  have found : Char.ofNat 0 ∈ (pieces '/' n.text.toList).flatMap (· ++ ['/']) :=
    List.mem_flatMap.2 ⟨piece, inText, List.mem_append_left _ null⟩
  rw [Path.flatMap_pieces, List.mem_append] at found
  rcases found with found | found
  · exact not_mem_of_completes accepted.2 found
  · exact absurd found (by decide)

end RepositoryName

lemma Layout.isFileName_ownerSteps (owner : Option RepositoryName) :
    ∀ s ∈ ownerSteps owner, IsFileName s := by
  cases owner with
  | none => decide
  | some n =>
    have roots : ∀ s ∈ ["docker", "registry", "v2", "repositories"], IsFileName s := by decide
    intro s mem
    rcases List.mem_append.1 mem with mem | mem
    · exact roots s mem
    · exact RepositoryName.isFileName_of_mem_steps mem

namespace Record

def fileNames : List String := ["data", "link", "startedat"]

lemma isFileName_place {r : Record} (lawful : r.IsLawful) : ∀ s ∈ r.place, IsFileName s := by
  have parts : ∀ s ∈ ["blobs", "_blobs", "_layers", "_manifests", "revisions", "tags", "current",
      "index", "_uploads", Digest.algorithm, "data", "link", "startedat"], IsFileName s := by decide
  cases r with
  | blob store d =>
    have := d.isFileName_hex
    have := d.isFileName_shard
    cases store <;> simp_all [place]
  | link kind n d =>
    have := d.isFileName_hex
    cases kind <;> simp_all [place, LinkKind.place]
  | tagTarget n t =>
    have := TagName.isFileName_of_accepts lawful
    simp_all [place]
  | tagEntry n t d =>
    have := d.isFileName_hex
    have := TagName.isFileName_of_accepts lawful
    simp_all [place]
  | uploadContent n id | uploadStart n id =>
    have := id.isFileName_text
    simp_all [place]

lemma isFileName_steps {r : Record} (lawful : r.IsLawful) : ∀ s ∈ r.steps, IsFileName s := by
  intro s mem
  rw [steps, List.mem_append] at mem
  rcases mem with mem | mem
  · exact Layout.isFileName_ownerSteps r.owner? s mem
  · exact isFileName_place lawful s mem

lemma exists_file {r : Record} {n : RepositoryName} (owner : r.owner? = some n) :
    ∃ part front file, r.place = part :: front ++ [file] ∧ Layout.isPart part = true := by
  cases r with
  | blob store d =>
    cases store with
    | shared => cases owner
    | ofRepository m => exact ⟨_, [_, _, _], _, rfl, by decide⟩
  | link kind m d =>
    cases kind
    · exact ⟨_, [_, _], _, rfl, by decide⟩
    · exact ⟨_, [_, _, _], _, rfl, by decide⟩
  | tagTarget m t => exact ⟨_, [_, _, _], _, rfl, by decide⟩
  | tagEntry m t d => exact ⟨_, [_, _, _, _, _], _, rfl, by decide⟩
  | uploadContent m id | uploadStart m id => exact ⟨_, [_], _, rfl, by decide⟩

lemma mem_fileNames_of_place {a b : Record} {front more : List String} {file s : String}
    (ha : a.place = front ++ [file]) (hb : b.place = front ++ s :: more) : s ∈ fileNames := by
  have split : b.place = a.place.dropLast ++ s :: more := by rw [ha, List.dropLast_concat, hb]
  cases a with
  | blob t d =>
    cases b with
    | blob u e =>
      cases t <;> cases u <;> simp [place, fileNames] at split ⊢ <;> simp [split]
    | link kind m e => cases t <;> cases kind <;> simp [place, LinkKind.place] at split
    | tagTarget | tagEntry | uploadContent | uploadStart => cases t <;> simp [place] at split
  | link kind n d =>
    cases b with
    | blob u e => cases kind <;> cases u <;> simp [place, LinkKind.place] at split
    | link kind' m e =>
      cases kind <;> cases kind' <;>
        simp [place, LinkKind.place, fileNames] at split ⊢ <;> simp [split]
    | tagTarget | tagEntry | uploadContent | uploadStart =>
      cases kind <;> simp [place, LinkKind.place] at split
  | tagTarget n t | tagEntry n t d | uploadContent n id | uploadStart n id =>
    cases b with
    | blob u e => cases u <;> simp [place] at split
    | link kind m e => cases kind <;> simp [place, LinkKind.place] at split
    | tagTarget | tagEntry | uploadContent | uploadStart =>
      simp [place, fileNames] at split ⊢ <;> simp [split]

lemma mem_fileNames {a b : Record} {names more : List String} {file s : String}
    (ha : a.steps = names ++ [file]) (hb : b.steps = names ++ s :: more) : s ∈ fileNames := by
  have below : names.isPrefixOf? b.steps = some (s :: more) :=
    List.isPrefixOf?_eq_some_iff_append_eq.2 hb.symm
  cases owner : a.owner? with
  | some n =>
    obtain ⟨part, front, file', place, isPart⟩ := exists_file owner
    rw [steps, owner, place, ← List.append_assoc] at ha
    obtain ⟨rfl, -⟩ := List.append_inj' ha rfl
    rw [isPrefixOf?_steps b n front isPart] at below
    split_ifs at below
    exact mem_fileNames_of_place place (List.isPrefixOf?_eq_some_iff_append_eq.1 below).symm
  | none =>
    obtain ⟨d, rfl⟩ := exists_shared owner
    have shared : (blob .shared d).steps = (Layout.ownerSteps none ++
      ["blobs", Digest.algorithm, Layout.shard d, d.hex]) ++ ["data"] := rfl
    rw [shared] at ha
    obtain ⟨rfl, -⟩ := List.append_inj' ha rfl
    cases ownerB : b.owner? with
    | some n => simp [steps, ownerB, Layout.ownerSteps] at hb
    | none =>
      obtain ⟨e, rfl⟩ := exists_shared ownerB
      simp only [steps, owner?, place, List.append_assoc, List.append_cancel_left_eq] at hb
      simp [fileNames] at hb ⊢
      simp [hb]

end Record

/-- The names along which the records of a registry are kept. -/
def Layout.keyspace : Keyspace where
  Contains names := ∃ r : Record, r.IsLawful ∧ r.steps = names
  nonempty := by
    rintro _ ⟨r, lawful, rfl⟩
    exact (Record.leads_key lawful).1
  isFileName := by
    rintro _ ⟨r, lawful, rfl⟩
    exact Record.isFileName_steps lawful
  apart := by
    rintro _ more ⟨r, -, rfl⟩ ⟨q, -, leads⟩
    obtain rfl := Record.eq_of_isPrefix ⟨more, leads.symm⟩
    simpa using leads
  unstaged := by
    rintro names file n more ⟨r, -, ends⟩ ⟨q, -, leads⟩
    have beside := Record.mem_fileNames ends leads
    have dotless : ∀ s ∈ Record.fileNames, '.' ∉ s.toList := by decide
    refine dotless _ beside ?_
    simp [Path.extended]

lemma Record.key_eq_along {r : Record} (lawful : r.IsLawful) : r.key = .along r.steps :=
  (isPlain_key lawful).eq_along (leads_key lawful).2

lemma Bucket.IsCatalog.isIn {b : Bucket} (catalog : b.IsCatalog) : b.IsIn Layout.keyspace := by
  intro cs stored found
  obtain ⟨r, lawful, components, spelling⟩ := catalog cs stored found
  refine ⟨r.steps, ⟨r, lawful, rfl⟩, ?_, ?_⟩
  · rw [← components, (Record.leads_key lawful).2]
  · rw [← spelling, Record.key_eq_along lawful]

lemma Bucket.content?_key {r : Record} (lawful : r.IsLawful) (b : Bucket) :
    b.content? r.key = b.along? r.steps := by
  rw [Record.key_eq_along lawful, b.content?_along
    (fun s mem => (Record.isFileName_steps lawful s mem).1) (Record.leads_key lawful).1]

namespace Layout

/-- A path of the layout below which records can be, but which is not the key of one. -/
def IsFolder (base : Path) : Prop :=
  ∃ (r : Record) (names more : List String), r.IsLawful ∧ names ≠ [] ∧ more ≠ [] ∧
    base = .along names ∧ r.steps = names ++ more

lemma isFolder_of_leads {r : Record} (lawful : r.IsLawful) {names : List String} {base : Path}
    (leads : Leads names base) (plain : base.IsPlain) (more : List String) (proper : more ≠ [])
    (steps : r.steps = names ++ more) : IsFolder base :=
  ⟨r, names, more, lawful, leads.1, proper, plain.eq_along leads.2, steps⟩

lemma isFolder_blobs (store : BlobStore) : IsFolder (blobs store) := by
  let d : Digest := .ofContent []
  refine isFolder_of_leads (r := .blob store d) trivial (leads_blobs store) (isPlain_blobs store)
    [Digest.algorithm, shard d, d.hex, "data"] (by simp) ?_
  cases store <;> simp [Record.steps, Record.owner?, Record.place, blobsSteps]

lemma isFolder_links (n : RepositoryName) (kind : LinkKind) : IsFolder (links n kind) := by
  let d : Digest := .ofContent []
  refine isFolder_of_leads (r := .link kind n d) trivial (leads_links n kind) (isPlain_links n kind)
    [Digest.algorithm, d.hex, "link"] (by simp) ?_
  simp [Record.steps, Record.owner?, Record.place]

lemma isFolder_tags (n : RepositoryName) : IsFolder (tags n) := by
  have accepted : TagName.accepts "latest" = true := by decide +kernel
  refine isFolder_of_leads (r := .tagTarget n "latest") accepted (leads_tags n) (isPlain_tags n)
    ["latest", "current", "link"] (by simp) ?_
  simp [Record.steps, Record.owner?, Record.place]

section

variable (n : RepositoryName) {t : String} (accepted : TagName.accepts t = true)

include accepted

lemma isFolder_tag : IsFolder (tag n t) := by
  refine isFolder_of_leads (r := .tagTarget n t) accepted (leads_tag n accepted)
    (isPlain_tag n (TagName.isFileName_of_accepts accepted).1) ["current", "link"] (by simp) ?_
  simp [Record.steps, Record.owner?, Record.place]

lemma isFolder_tagEntries : IsFolder (tagEntries n t) := by
  let d : Digest := .ofContent []
  refine isFolder_of_leads (r := .tagEntry n t d) accepted (leads_tagEntries n accepted)
    ((isPlain_tag n (TagName.isFileName_of_accepts accepted).1).step (by decide))
    [Digest.algorithm, d.hex, "link"] (by simp) ?_
  simp [Record.steps, Record.owner?, Record.place]

end

lemma isFolder_upload (n : RepositoryName) (id : UploadId) : IsFolder (upload n id) := by
  refine isFolder_of_leads (r := .uploadContent n id) trivial (leads_upload n id)
    (isPlain_upload n id) ["data"] (by simp) ?_
  simp [Record.steps, Record.owner?, Record.place]

lemma isFolder_repositories : IsFolder repositories := by
  let n : RepositoryName := ⟨"a", by decide⟩
  let d : Digest := .ofContent []
  refine isFolder_of_leads (r := .link .layer n d) trivial leads_repositories (by decide)
    (n.steps ++ ["_layers", Digest.algorithm, d.hex, "link"]) (by simp) ?_
  simp [Record.steps, Record.owner?, Record.place, ownerSteps, LinkKind.place]

lemma keyspace_not_contains {r : Record} (lawful : r.IsLawful) {names more : List String}
    (proper : more ≠ []) (steps : r.steps = names ++ more) {front : List String}
    (leads : front <+: names) : ¬keyspace.Contains front := by
  intro contains
  obtain ⟨rest, rfl⟩ := leads
  have none := keyspace.apart contains ⟨r, lawful, by rw [steps, List.append_assoc]⟩
  exact proper (List.append_eq_nil_iff.1 none).2

end Layout
end ImageRegistry
