import Mathlib.Data.List.Basic
import ImageRegistry.Proofs.Registry.Names

/-! Where records are stored. The key of a record leads along its owner and then a place of its
own, from which the record can be told: no two records share a key, and of the keys below a path
of the layout the record is known that each one stands for. -/

namespace ImageRegistry

open ImageRegistry.Path (IsStep Leads)

def LinkKind.place : LinkKind → List String
  | layer => ["_layers"]
  | revision => ["_manifests", "revisions"]

namespace Record

/-- The repository to which a record belongs, unless it is shared. -/
def owner? : Record → Option RepositoryName
  | blob .shared _ => none
  | blob (.ofRepository n) _ | link _ n _ | tagTarget n _ | tagEntry n _ _ | uploadContent n _
  | uploadStart n _ => some n

/-- The steps to a record from its repository, or from the root if it is shared. -/
def place : Record → List String
  | blob .shared d => ["blobs", Digest.algorithm, Layout.shard d, d.hex, "data"]
  | blob (.ofRepository _) d => ["_blobs", Digest.algorithm, Layout.shard d, d.hex, "data"]
  | link kind _ d => kind.place ++ [Digest.algorithm, d.hex, "link"]
  | tagTarget _ t => ["_manifests", "tags", t, "current", "link"]
  | tagEntry _ t d => ["_manifests", "tags", t, "index", Digest.algorithm, d.hex, "link"]
  | uploadContent _ id => ["_uploads", id.text, "data"]
  | uploadStart _ id => ["_uploads", id.text, "startedat"]

def tagSteps? (n : RepositoryName) : Record → Option (List String)
  | tagTarget m t => if m = n then some [t, "current", "link"] else none
  | tagEntry m t d => if m = n then some [t, "index", Digest.algorithm, d.hex, "link"] else none
  | blob _ _ | link _ _ _ | uploadContent _ _ | uploadStart _ _ => none

/-- A record that a registry writes: a tag has a name that is accepted. -/
def IsLawful : Record → Prop
  | tagTarget _ t | tagEntry _ t _ => TagName.accepts t = true
  | blob _ _ | link _ _ _ | uploadContent _ _ | uploadStart _ _ => True

end Record

namespace Layout

def ownerSteps : Option RepositoryName → List String
  | none => ["docker", "registry", "v2"]
  | some n => ["docker", "registry", "v2", "repositories"] ++ n.steps

lemma leads_root : Leads (ownerSteps none) root := ⟨by simp [ownerSteps], by decide⟩

lemma leads_repositories : Leads ["docker", "registry", "v2", "repositories"] repositories :=
  leads_root.step (by decide)

lemma leads_repository (n : RepositoryName) : Leads (ownerSteps (some n)) (repository n) :=
  leads_repositories.splitText n.relative fun _ => RepositoryName.isStep_of_mem_steps

def partNames : List String := ["_layers", "_manifests", "_uploads", "_blobs"]

lemma isPart_of_mem {part : String} (mem : part ∈ partNames) : isPart part = true := by
  have all : ∀ part ∈ partNames, isPart part = true := by decide
  exact all part mem

lemma leads_part (n : RepositoryName) {part : String} (mem : part ∈ partNames) :
    Leads (ownerSteps (some n) ++ [part]) (repository n / part) := by
  have all : ∀ part ∈ partNames, IsStep part := by decide
  exact (leads_repository n).step (all part mem)

lemma leads_links (n : RepositoryName) (kind : LinkKind) :
    Leads (ownerSteps (some n) ++ kind.place) (links n kind) := by
  cases kind with
  | layer => exact (leads_repository n).step (by decide)
  | revision =>
    have := ((leads_repository n).step (q := "_manifests") (by decide)).step (q := "revisions")
      (by decide)
    rwa [List.append_assoc] at this

lemma leads_tags (n : RepositoryName) :
    Leads (ownerSteps (some n) ++ ["_manifests", "tags"]) (tags n) := by
  have := ((leads_repository n).step (q := "_manifests") (by decide)).step (q := "tags") (by decide)
  rwa [List.append_assoc] at this

lemma leads_tag (n : RepositoryName) {t : String} (accepted : TagName.accepts t = true) :
    Leads (ownerSteps (some n) ++ ["_manifests", "tags", t]) (tag n t) := by
  have := (leads_tags n).step (TagName.isStep_of_accepts accepted)
  rwa [List.append_assoc] at this

lemma leads_tagEntries (n : RepositoryName) {t : String} (accepted : TagName.accepts t = true) :
    Leads (ownerSteps (some n) ++ ["_manifests", "tags", t, "index"]) (tagEntries n t) := by
  have := (leads_tag n accepted).step (q := "index") (by decide)
  rwa [List.append_assoc] at this

lemma leads_upload (n : RepositoryName) (id : UploadId) :
    Leads (ownerSteps (some n) ++ ["_uploads", id.text]) (upload n id) := by
  have := ((leads_repository n).step (q := "_uploads") (by decide)).step id.isStep_text
  rwa [List.append_assoc] at this

def blobsSteps : BlobStore → List String
  | .shared => ownerSteps none ++ ["blobs"]
  | .ofRepository n => ownerSteps (some n) ++ ["_blobs"]

lemma leads_blobs : (store : BlobStore) → Leads (blobsSteps store) (blobs store)
  | .shared => leads_root.step (by decide)
  | .ofRepository n => (leads_repository n).step (by decide)

lemma leads_linkTo {steps : List String} {base : Path} (h : Leads steps base) (d : Digest) :
    Leads (steps ++ [Digest.algorithm, d.hex, "link"]) (linkTo base d) := by
  have := ((h.step (q := Digest.algorithm) (by decide)).step d.isStep_hex).step (q := "link")
    (by decide)
  simp only [List.append_assoc] at this
  exact this

end Layout

namespace Record

def steps (r : Record) : List String := Layout.ownerSteps r.owner? ++ r.place

theorem leads_key {r : Record} (lawful : r.IsLawful) : Leads r.steps r.key := by
  cases r with
  | blob store d =>
    have := ((((Layout.leads_blobs store).step (q := Digest.algorithm) (by decide)).step
      d.isStep_shard).step d.isStep_hex).step (q := "data") (by decide)
    cases store <;> (simp only [Layout.blobsSteps, List.append_assoc] at this; exact this)
  | link kind n d =>
    have := Layout.leads_linkTo (Layout.leads_links n kind) d
    simp only [List.append_assoc] at this
    exact this
  | tagTarget n t =>
    have := ((Layout.leads_tag n lawful).step (q := "current") (by decide)).step (q := "link")
      (by decide)
    simp only [List.append_assoc] at this
    exact this
  | tagEntry n t d =>
    have := Layout.leads_linkTo (Layout.leads_tagEntries n lawful) d
    simp only [List.append_assoc] at this
    exact this
  | uploadContent n id =>
    have := (Layout.leads_upload n id).step (q := "data") (by decide)
    simp only [List.append_assoc] at this
    exact this
  | uploadStart n id =>
    have := (Layout.leads_upload n id).step (q := "startedat") (by decide)
    simp only [List.append_assoc] at this
    exact this

lemma exists_part {r : Record} {n : RepositoryName} (h : r.owner? = some n) :
    ∃ part rest, r.place = part :: rest ∧ Layout.isPart part = true := by
  cases r with
  | blob store d =>
    cases store with
    | shared => cases h
    | ofRepository m => exact ⟨_, _, rfl, by decide⟩
  | link kind m d => cases kind <;> exact ⟨_, _, rfl, by decide⟩
  | tagTarget m t | tagEntry m t d | uploadContent m id | uploadStart m id =>
    exact ⟨_, _, rfl, by decide⟩

lemma exists_shared {r : Record} (h : r.owner? = none) : ∃ d, r = blob .shared d := by
  cases r with
  | blob store d => cases store <;> [exact ⟨d, rfl⟩; cases h]
  | link | tagTarget | tagEntry | uploadContent | uploadStart => cases h

lemma isPrefixOf?_append_append {α : Type} [BEq α] [LawfulBEq α] (a p q : List α) :
    (a ++ p).isPrefixOf? (a ++ q) = p.isPrefixOf? q := by
  induction a with
  | nil => rfl
  | cons x a ih => simp [List.isPrefixOf?, ih]

lemma isPrefixOf?_parts {a b : List String} {x y : String} (xs ys : List String)
    (ha : ∀ s ∈ a, Layout.isPart s = false) (hb : ∀ s ∈ b, Layout.isPart s = false)
    (hx : Layout.isPart x = true) (hy : Layout.isPart y = true) :
    (a ++ x :: xs).isPrefixOf? (b ++ y :: ys) =
      if a = b then (x :: xs).isPrefixOf? (y :: ys) else none := by
  induction a generalizing b with
  | nil =>
    cases b with
    | nil => simp
    | cons t b =>
      have other : x ≠ t := by
        rintro rfl
        have := hb x List.mem_cons_self
        rw [hx] at this
        cases this
      simp [List.isPrefixOf?, other]
  | cons s a ih =>
    cases b with
    | nil =>
      have other : s ≠ y := by
        rintro rfl
        have := ha s List.mem_cons_self
        rw [hy] at this
        cases this
      simp [List.isPrefixOf?, other]
    | cons t b =>
      have rest := ih (fun u hu => ha u (List.mem_cons_of_mem s hu))
        fun u hu => hb u (List.mem_cons_of_mem t hu)
      by_cases same : s = t
      · simp [List.isPrefixOf?, same, rest]
      · simp [List.isPrefixOf?, same]

lemma isPrefixOf?_steps (r : Record) (n : RepositoryName) {part : String} (more : List String)
    (hp : Layout.isPart part = true) :
    (Layout.ownerSteps (some n) ++ part :: more).isPrefixOf? r.steps =
      if r.owner? = some n then (part :: more).isPrefixOf? r.place else none := by
  rw [steps]
  cases ho : r.owner? with
  | none =>
    obtain ⟨d, rfl⟩ := exists_shared ho
    simp [Layout.ownerSteps, place, List.isPrefixOf?]
  | some m =>
    obtain ⟨other, rest, hr, isPart⟩ := exists_part ho
    rw [Layout.ownerSteps, Layout.ownerSteps, List.append_assoc, List.append_assoc,
      isPrefixOf?_append_append, hr,
      isPrefixOf?_parts _ _ (fun _ => RepositoryName.not_isPart_of_mem_steps)
        (fun _ => RepositoryName.not_isPart_of_mem_steps) hp isPart]
    by_cases same : m = n
    · simp [same]
    · have : n.steps ≠ m.steps := fun h => same (RepositoryName.steps_injective h).symm
      simp [same, this]

lemma eq_of_place {a b : Record} (owner : a.owner? = b.owner?) (place : a.place = b.place) :
    a = b := by
  have digest : ∀ {d e : Digest}, d.hex = e.hex → d = e := by
    rintro ⟨_, _⟩ ⟨_, _⟩ rfl
    rfl
  cases a with
  | blob s d =>
    cases b with
    | blob t e =>
      cases s <;> cases t <;> simp_all [owner?, Record.place]
      all_goals exact digest place.2
    | link kind m e => cases s <;> cases kind <;> simp [Record.place, LinkKind.place] at place
    | tagTarget | tagEntry | uploadContent | uploadStart =>
      cases s <;> simp [Record.place] at place
  | link kind n d =>
    cases b with
    | blob t e => cases kind <;> cases t <;> simp [Record.place, LinkKind.place] at place
    | link kind' m e =>
      cases kind <;> cases kind' <;> simp_all [owner?, Record.place, LinkKind.place]
      all_goals exact digest place
    | tagTarget | tagEntry | uploadContent | uploadStart =>
      cases kind <;> simp [Record.place, LinkKind.place] at place
  | tagTarget n t =>
    cases b with
    | tagTarget m u => simp_all [owner?, Record.place]
    | blob s e => cases s <;> simp [Record.place] at place
    | link kind m e => cases kind <;> simp [Record.place, LinkKind.place] at place
    | tagEntry | uploadContent | uploadStart => simp [Record.place] at place
  | tagEntry n t d =>
    cases b with
    | tagEntry m u e =>
      simp_all [owner?, Record.place]
      exact digest place.2
    | blob s e => cases s <;> simp [Record.place] at place
    | link kind m e => cases kind <;> simp [Record.place, LinkKind.place] at place
    | tagTarget | uploadContent | uploadStart => simp [Record.place] at place
  | uploadContent n id =>
    cases b with
    | uploadContent m id' =>
      simp_all [owner?, Record.place]
      exact UploadId.text_injective place
    | blob s e => cases s <;> simp [Record.place] at place
    | link kind m e => cases kind <;> simp [Record.place, LinkKind.place] at place
    | tagTarget | tagEntry | uploadStart => simp [Record.place] at place
  | uploadStart n id =>
    cases b with
    | uploadStart m id' =>
      simp_all [owner?, Record.place]
      exact UploadId.text_injective place
    | blob s e => cases s <;> simp [Record.place] at place
    | link kind m e => cases kind <;> simp [Record.place, LinkKind.place] at place
    | tagTarget | tagEntry | uploadContent => simp [Record.place] at place

lemma steps_injective {a b : Record} (h : a.steps = b.steps) : a = b := by
  have below (r : Record) (n : RepositoryName) (ho : r.owner? = some n) (s : Record)
      (same : r.steps = s.steps) : s.owner? = some n := by
    obtain ⟨part, rest, hr, isPart⟩ := exists_part ho
    have found := isPrefixOf?_steps r n rest isPart
    rw [if_pos ho, same, isPrefixOf?_steps s n rest isPart, ← hr,
      List.isPrefixOf?_eq_some_iff_append_eq.2 (List.append_nil r.place)] at found
    by_contra other
    rw [if_neg other] at found
    cases found
  have owner : a.owner? = b.owner? := by
    cases ha : a.owner? with
    | some n => exact (below a n ha b h).symm
    | none =>
      cases hb : b.owner? with
      | none => rfl
      | some n => rw [below b n hb a h.symm] at ha; cases ha
  rw [steps, steps, owner] at h
  exact eq_of_place owner (List.append_cancel_left h)

theorem key_injective {a b : Record} (ha : a.IsLawful) (hb : b.IsLawful)
    (h : a.key.components = b.key.components) : a = b := by
  rw [(leads_key ha).2, (leads_key hb).2] at h
  exact steps_injective (List.map_injective_iff.2 (fun _ _ => Component.name.inj) h)

end Record

namespace Layout

open Record

lemma namesBelow?_of_leads {base steps : List String} {p q : Path} (hp : Leads base p)
    (hq : Leads steps q) : namesBelow? p q = base.isPrefixOf? steps := by
  rw [namesBelow?, hp.componentsAfter? hq]
  cases base.isPrefixOf? steps with
  | none => rfl
  | some rest => simp [Component.text, Function.comp_def]

lemma namesBelow?_key {r : Record} (lawful : r.IsLawful) {n : RepositoryName} {base : Path}
    {part : String} {more : List String} (isPart : isPart part = true)
    (h : Leads (ownerSteps (some n) ++ part :: more) base) (names : List String) :
    namesBelow? base r.key = some names ↔
      r.owner? = some n ∧ r.place = (part :: more) ++ names := by
  rw [namesBelow?_of_leads h (leads_key lawful), isPrefixOf?_steps r n more isPart]
  split_ifs with owner
  · rw [List.isPrefixOf?_eq_some_iff_append_eq, eq_comm]
    simp [owner]
  · simp [owner]

/-- Below a path at which links are kept a key is found to link to a digest if it is the key of such
a link. -/
lemma linkedDigest?_key_of_below {r : Record} {base : Path} {owner : Option RepositoryName}
    {place : List String} (link : Digest → Record)
    (below : ∀ names, namesBelow? base r.key = some names ↔
      r.owner? = owner ∧ r.place = place ++ names)
    (owned : ∀ d, (link d).owner? = owner)
    (placed : ∀ d, (link d).place = place ++ [Digest.algorithm, d.hex, "link"]) (d : Digest) :
    linkedDigest? base r.key = some d ↔ r = link d := by
  constructor
  · intro h
    unfold linkedDigest? at h
    split at h
    case h_2 => cases h
    case h_1 algorithm hex file found =>
      obtain ⟨hr, at_place⟩ := (below _).1 found
      split_ifs at h with facts
      obtain ⟨rfl, rfl⟩ := facts
      obtain rfl := Digest.ofHex?_eq_some_iff.1 h
      exact eq_of_place (hr.trans (owned d).symm) (at_place.trans (placed d).symm)
  · rintro rfl
    rw [linkedDigest?, (below [Digest.algorithm, d.hex, "link"]).2 ⟨owned d, placed d⟩]
    simp [Digest.ofHex?_hex]

theorem linkedDigest?_key {r : Record} (lawful : r.IsLawful) (n : RepositoryName)
    (kind : LinkKind) (d : Digest) :
    linkedDigest? (links n kind) r.key = some d ↔ r = .link kind n d := by
  refine linkedDigest?_key_of_below (.link kind n) (fun names => ?_) (fun _ => rfl) (fun _ => rfl) d
  cases kind with
  | layer => exact namesBelow?_key lawful (by decide) (leads_links n .layer) names
  | revision => exact namesBelow?_key lawful (by decide) (leads_links n .revision) names

theorem linkedDigest?_key_tagEntries {r : Record} (lawful : r.IsLawful) (n : RepositoryName)
    {t : String} (accepted : TagName.accepts t = true) (d : Digest) :
    linkedDigest? (tagEntries n t) r.key = some d ↔ r = .tagEntry n t d :=
  linkedDigest?_key_of_below (.tagEntry n t)
    (namesBelow?_key lawful (by decide) (leads_tagEntries n accepted)) (fun _ => rfl)
    (fun _ => rfl) d

/-- Below the tags of a repository a key is found to hold the target of a tag if it is the key
of that target. -/
theorem tagName?_key {r : Record} (lawful : r.IsLawful) (n : RepositoryName) (t : String) :
    tagName? (tags n) r.key = some t ↔ r = .tagTarget n t := by
  have below := namesBelow?_key lawful (by decide) (leads_tags n)
  constructor
  · intro h
    unfold tagName? at h
    split at h
    case h_2 => cases h
    case h_1 tag folder file found =>
      obtain ⟨owner, place⟩ := (below _).1 found
      split_ifs at h with facts
      obtain ⟨rfl, rfl⟩ := facts
      obtain rfl := Option.some.inj h
      exact eq_of_place owner place
  · rintro rfl
    rw [tagName?, (below [t, "current", "link"]).2 ⟨rfl, rfl⟩]
    simp

lemma isPrefixOf_shard (d : Digest) : (shard d).toList.isPrefixOf d.hex.toList = true := by
  rw [shard, String.toList_ofList, List.isPrefixOf_iff_prefix]
  exact List.take_prefix 2 _

lemma namesBelow?_blobs {r : Record} (lawful : r.IsLawful) (store : BlobStore) (d : Digest)
    (names : List String) :
    namesBelow? (blobs store) r.key = some names ↔
      r.owner? = (Record.blob store d).owner? ∧
        r.place = (Record.blob store d).place.take 1 ++ names := by
  cases store with
  | ofRepository n => exact namesBelow?_key lawful (by decide) (leads_blobs (.ofRepository n)) names
  | shared =>
    rw [namesBelow?_of_leads (leads_blobs .shared) (leads_key lawful),
      List.isPrefixOf?_eq_some_iff_append_eq, blobsSteps, steps, List.append_assoc]
    cases ho : r.owner? with
    | none => simp [owner?, place, eq_comm]
    | some n => simp [owner?, ownerSteps]

/-- Below a blob store a key is found to hold the content of a digest if it is the key of that
blob. -/
theorem blobDigest?_key {r : Record} (lawful : r.IsLawful) (store : BlobStore) (d : Digest) :
    blobDigest? (blobs store) r.key = some d ↔ r = .blob store d := by
  have below := namesBelow?_blobs lawful store d
  constructor
  · intro h
    unfold blobDigest? at h
    split at h
    case h_2 => cases h
    case h_1 algorithm shard hex file found =>
      obtain ⟨owner, place⟩ := (below _).1 found
      split_ifs at h with facts
      obtain ⟨rfl, -, rfl⟩ := facts
      obtain rfl := Digest.ofHex?_eq_some_iff.1 h
      cases r with
      | blob store' e =>
        refine eq_of_place owner ?_
        cases store <;> cases store' <;> simp_all [Record.place, owner?, Layout.shard]
      | link kind m e =>
        cases store <;> cases kind <;> simp [Record.place, LinkKind.place] at place
      | tagTarget | tagEntry | uploadContent | uploadStart =>
        cases store <;> simp [Record.place] at place
  · rintro rfl
    have found := (below [Digest.algorithm, shard d, d.hex, "data"]).2
      ⟨rfl, by cases store <;> rfl⟩
    rw [blobDigest?, found]
    simp [isPrefixOf_shard, Digest.ofHex?_hex]

lemma startsWith_iff (base key : Path) :
    key.startsWith base = true ↔ ∃ names, namesBelow? base key = some names := by
  rw [Path.startsWith, ← List.isSome_isPrefixOf?_eq_isPrefixOf, Option.isSome_iff_exists]
  simp [namesBelow?, Path.componentsAfter?]

lemma namesBelow?_tags {r : Record} (lawful : r.IsLawful) (n : RepositoryName) :
    namesBelow? (tags n) r.key = r.tagSteps? n := by
  apply Option.ext
  intro names
  rw [namesBelow?_key lawful (by decide) (leads_tags n)]
  cases r with
  | blob store d => cases store <;> simp [Record.place, Record.tagSteps?]
  | link kind m d => cases kind <;> simp [Record.place, LinkKind.place, Record.tagSteps?]
  | tagTarget m u | tagEntry m u d =>
    by_cases same : m = n <;> simp [Record.owner?, Record.place, Record.tagSteps?, same]
  | uploadContent | uploadStart => simp [Record.place, Record.tagSteps?]

/-- What lies at or below the path of a tag, whatever it is called, is what the name leads to
from the tags on. -/
theorem startsWith_tagText_iff {r : Record} (lawful : r.IsLawful) (n : RepositoryName)
    (t : String) :
    r.key.startsWith (tag n t) = true ↔ t.toList.head? ≠ some '/' ∧
      ∃ steps, r.tagSteps? n = some steps ∧ Path.onward t <+: steps.map Component.name := by
  have leads := Record.leads_key lawful
  rw [Path.startsWith, List.isPrefixOf_iff_prefix]
  by_cases absolute : t.toList.head? = some '/'
  · -- what begins at the root is not where the records are
    have same : tag n t = ⟨t⟩ := if_pos absolute
    refine iff_of_false (fun below => ?_) fun relative => relative.1 absolute
    rw [same, leads.2] at below
    have root := below.subset (Path.root_mem_components absolute)
    simp at root
  · have joined : (tag n t).components = (tags n).components ++ Path.onward t :=
      Path.components_join (by simp [(leads_tags n).2]) absolute
    rw [joined, leads.2, (leads_tags n).2, ← namesBelow?_tags lawful,
      namesBelow?_of_leads (leads_tags n) leads, and_iff_right absolute]
    simp only [List.isPrefixOf?_eq_some_iff_append_eq]
    constructor
    · rintro ⟨rest, below⟩
      rw [List.append_assoc, eq_comm, List.map_eq_append_iff] at below
      obtain ⟨base, steps, split, same, onward⟩ := below
      obtain rfl := List.map_injective_iff.2 (fun _ _ => Component.name.inj) same
      exact ⟨steps, split.symm, onward ▸ List.prefix_append _ _⟩
    · rintro ⟨steps, split, onward⟩
      have whole : r.steps.map Component.name =
          (ownerSteps (some n) ++ ["_manifests", "tags"]).map Component.name ++
            steps.map Component.name := by simp [← split]
      rw [whole]
      exact (List.prefix_append_right_inj _).2 onward

theorem startsWith_tag_iff {r : Record} (lawful : r.IsLawful) (n : RepositoryName) {t : String}
    (accepted : TagName.accepts t = true) :
    r.key.startsWith (tag n t) = true ↔ r = .tagTarget n t ∨ ∃ d, r = .tagEntry n t d := by
  have isStep := TagName.isStep_of_accepts accepted
  rw [startsWith_tagText_iff lawful, isStep.onward, and_iff_right isStep.relative]
  cases r with
  | tagTarget m u | tagEntry m u d =>
    by_cases same : m = n <;> simp [Record.tagSteps?, same, eq_comm (a := t)]
  | blob | link | uploadContent | uploadStart => simp [Record.tagSteps?]

theorem startsWith_upload_iff {r : Record} (lawful : r.IsLawful) (n : RepositoryName)
    (id : UploadId) :
    r.key.startsWith (upload n id) = true ↔ r = .uploadContent n id ∨ r = .uploadStart n id := by
  rw [startsWith_iff]
  simp only [namesBelow?_key lawful (n := n) (by decide) (leads_upload n id)]
  constructor
  · rintro ⟨names, owner, place⟩
    cases r with
    | blob store d => cases store <;> simp [Record.place] at place
    | link kind m d => cases kind <;> simp [Record.place, LinkKind.place] at place
    | tagTarget m u | tagEntry m u d => simp [Record.place] at place
    | uploadContent m id' => 
      simp [Record.place, owner?] at owner place
      simp [owner, UploadId.text_injective place.1]
    | uploadStart m id' => 
      simp [Record.place, owner?] at owner place
      simp [owner, UploadId.text_injective place.1]
  · rintro (rfl | rfl)
    · exact ⟨["data"], rfl, rfl⟩
    · exact ⟨["startedat"], rfl, rfl⟩

theorem repositoryName?_key {r : Record} (lawful : r.IsLawful) :
    repositoryName? r.key = r.owner? := by
  rw [repositoryName?, namesBelow?_of_leads leads_repositories (leads_key lawful), steps]
  cases ho : r.owner? with
  | none =>
    obtain ⟨d, rfl⟩ := exists_shared ho
    rfl
  | some n =>
    obtain ⟨part, rest, hr, isPart⟩ := exists_part ho
    have below : ["docker", "registry", "v2", "repositories"].isPrefixOf?
        (ownerSteps (some n) ++ r.place) = some (n.steps ++ part :: rest) := by
      rw [List.isPrefixOf?_eq_some_iff_append_eq, ownerSteps, List.append_assoc, hr]
    have names : (n.steps ++ part :: rest).takeWhile (fun s => !Layout.isPart s) = n.steps := by
      rw [List.takeWhile_append_of_pos fun s hs => by
        simp [RepositoryName.not_isPart_of_mem_steps hs]]
      simp [isPart]
    rw [below, Option.bind_eq_bind, Option.bind_some]
    simp only [names]
    rw [if_neg (by simp [n.steps_ne_nil]), n.intercalate_steps, RepositoryName.ofText?_text]

end Layout
end ImageRegistry
