import ImageRegistry.Proofs.Registry.Keyspace
import ImageRegistry.Proofs.Storage.Holding

/-! What is enumerated, whatever keys there are. A key is taken for a link exactly if it is the key
of that link, but for a blob also if its folder is named by more or fewer digits than two. -/

namespace ImageRegistry

open ImageRegistry.Path (Counts IsFileName IsName)

namespace Path

lemma Counts.eq_name {c : Component} (counts : Counts c) (name : IsName c.text) :
    c = .name c.text := Option.some.inj (counts.2.symm.trans name.ofPiece?)

lemma Counts.text_ne_empty {c : Component} (counts : Counts c) : c.text ≠ "" := by
  intro empty
  have := counts.2
  rw [empty] at this
  cases this

end Path

namespace Digest

/-- A digest begins with some digits. -/
def BeginsWith (d : Digest) (digits : String) : Prop :=
  digits ≠ "" ∧ digits.toList <+: d.hex.toList

lemma BeginsWith.isFileName {d : Digest} {folder : String} (begins : d.BeginsWith folder) :
    IsFileName folder := by
  have digits : ∀ c ∈ folder.toList, Hex.isLowerDigit c = true := fun c mem =>
    isLowerDigit_of_mem_hex (begins.2.subset mem)
  have nonempty : folder.toList ≠ [] := fun empty => begins.1 (String.toList_inj.1 empty)
  have isStep := isStep_of_isLowerDigit nonempty digits
  have isFileName := isFileName_of_mem_hex isStep digits
  rwa [String.ofList_toList] at isFileName

lemma beginsWith_shard (d : Digest) : d.BeginsWith (Layout.shard d) :=
  ⟨d.isFileName_shard.1.2.1, List.isPrefixOf_iff_prefix.1 (Layout.isPrefixOf_shard d)⟩

end Digest

namespace Layout

variable {base key : Path} {names : List String}

lemma namesBelow?_of_components (components : key.components = base.components ++ names.map .name) :
    namesBelow? base key = some names := by
  have after : key.componentsAfter? base = some (names.map .name) := by
    rw [Path.componentsAfter?, List.isPrefixOf?_eq_some_iff_append_eq, components]
  rw [namesBelow?, after]
  simp [Component.text, Function.comp_def]

lemma components_of_namesBelow? (started : base.components ≠ [])
    (below : namesBelow? base key = some names) :
    (∀ s ∈ names, s ≠ "") ∧
      ((∀ s ∈ names, IsName s) → key.components = base.components ++ names.map .name) := by
  obtain ⟨cs, after, rfl⟩ := Option.map_eq_some_iff.1 below
  have components := (List.isPrefixOf?_eq_some_iff_append_eq.1 after).symm
  have counts := Path.counts_of_append started components
  refine ⟨fun s mem => ?_, fun isName => ?_⟩
  · obtain ⟨c, isAfter, rfl⟩ := List.mem_map.1 mem
    exact (counts c isAfter).text_ne_empty
  · rw [components, List.map_map]
    congr 1
    refine (List.map_congr_left fun c mem => ?_).trans (List.map_id cs) |>.symm
    exact ((counts c mem).eq_name (isName _ (List.mem_map_of_mem mem))).symm

lemma components_linkTo (started : base.components ≠ []) (d : Digest) :
    (linkTo base d).components =
      base.components ++ [Digest.algorithm, d.hex, "link"].map .name := by
  have algorithm : IsName Digest.algorithm := by decide
  have link : IsName "link" := by decide
  have hex := d.isFileName_hex.1
  rw [linkTo, link.components_join, hex.components_join, algorithm.components_join started]
  · simp
  · simp [algorithm.components_join started]
  · simp [hex.components_join, algorithm.components_join started]

theorem linkedDigest?_eq_some_iff (started : base.components ≠ []) {d : Digest} :
    linkedDigest? base key = some d ↔ key.components = (linkTo base d).components := by
  rw [components_linkTo started]
  constructor
  · intro decoded
    unfold linkedDigest? at decoded
    split at decoded
    case h_2 => cases decoded
    case h_1 algorithm hex file below =>
      split_ifs at decoded with facts
      obtain ⟨rfl, rfl⟩ := facts
      obtain rfl := Digest.ofHex?_eq_some_iff.1 decoded
      refine (components_of_namesBelow? started below).2 ?_
      have algorithm : IsName Digest.algorithm := by decide
      have link : IsName "link" := by decide
      simp [algorithm, link, d.isFileName_hex.1]
  · intro components
    rw [linkedDigest?, namesBelow?_of_components components]
    simp [Digest.ofHex?_hex]

theorem blobDigest?_eq_some_iff (started : base.components ≠ []) {d : Digest} :
    blobDigest? base key = some d ↔ ∃ folder, d.BeginsWith folder ∧
      key.components = base.components ++ [Digest.algorithm, folder, d.hex, "data"].map .name := by
  constructor
  · intro decoded
    unfold blobDigest? at decoded
    split at decoded
    case h_2 => cases decoded
    case h_1 algorithm folder hex file below =>
      split_ifs at decoded with facts
      obtain ⟨rfl, begins, rfl⟩ := facts
      obtain rfl := Digest.ofHex?_eq_some_iff.1 decoded
      obtain ⟨nonempty, components⟩ := components_of_namesBelow? started below
      have begins : d.BeginsWith folder :=
        ⟨nonempty folder (by simp), List.isPrefixOf_iff_prefix.1 begins⟩
      have algorithm : IsName Digest.algorithm := by decide
      have data : IsName "data" := by decide
      refine ⟨folder, begins, components ?_⟩
      simp [algorithm, data, d.isFileName_hex.1, begins.isFileName.1]
  · rintro ⟨folder, ⟨-, begins⟩, components⟩
    rw [blobDigest?, namesBelow?_of_components components]
    simp [Digest.ofHex?_hex, begins]

end Layout

/-- The steps to the content of a digest, if it were in a folder of a name. -/
def BlobStore.stepsIn (store : BlobStore) (folder : String) (d : Digest) : List String :=
  Layout.blobsSteps store ++ [Digest.algorithm, folder, d.hex, "data"]

lemma BlobStore.steps_blob (store : BlobStore) (d : Digest) :
    (Record.blob store d).steps = store.stepsIn (Layout.shard d) d := by
  cases store <;> simp [Record.steps, Record.owner?, Record.place, stepsIn, Layout.blobsSteps]

lemma Layout.isFileName_blobsSteps (store : BlobStore) : ∀ s ∈ blobsSteps store, IsFileName s := by
  cases store with
  | shared => decide
  | ofRepository n =>
    have part : ∀ s ∈ ["_blobs"], IsFileName s := by decide
    exact fun s mem => (List.mem_append.1 mem).elim (isFileName_ownerSteps (some n) s) (part s)

lemma Layout.isFileName_linksSteps (n : RepositoryName) (kind : LinkKind) :
    ∀ s ∈ ownerSteps (some n) ++ kind.place, IsFileName s := by
  have parts : ∀ s ∈ kind.place, IsFileName s := by cases kind <;> decide
  exact fun s mem => (List.mem_append.1 mem).elim (isFileName_ownerSteps (some n) s) (parts s)

namespace World

variable {w : World} (tidy : w.IsTidy)

include tidy

lemma run_holds_record {r : Record} (lawful : r.IsLawful) :
    w.run (Action.holds r.key) = (.ok true, w) ↔ w.HoldsAlong r.steps := by
  rw [Record.key_eq_along lawful]
  exact run_holds_iff tidy (Record.isFileName_steps lawful) (Record.leads_key lawful).1

lemma run_decoded {ns : List String} {base : Path} (plain : base.IsPlain)
    (leads : Path.Leads ns base) (isFileName : ∀ s ∈ ns, IsFileName s)
    (decode : Path → Option Digest) (Leads : Digest → List String → Prop)
    (proper : ∀ d more, Leads d more → more ≠ [])
    (decoded : ∀ key d, decode key = some d ↔
      ∃ more, Leads d more ∧ key.components = base.components ++ more.map .name) :
    ∃ ds, w.run (do return ascending ((← Action.keysBelow base).filterMap decode)) = (.ok ds, w) ∧
      Lists ds fun d => ∃ more, Leads d more ∧ w.HoldsAlong (ns ++ more) := by
  obtain ⟨keys, ran, listed⟩ := run_keysBelow_tidy tidy isFileName leads.1
  rw [← plain.eq_along leads.2] at ran
  refine ⟨ascending (keys.filterMap decode), ?_, pairwise_ascending _, fun d => ?_⟩
  · rw [run_bind, ran]
    rfl
  · simp only [mem_ascending, List.mem_filterMap, decoded, leads.2, ← List.map_append]
    constructor
    · rintro ⟨key, mem, more, tail, components⟩
      exact ⟨more, tail, (listed more (proper d more tail)).1 ⟨key, mem, components⟩⟩
    · rintro ⟨more, tail, holds⟩
      obtain ⟨key, mem, components⟩ := (listed more (proper d more tail)).2 holds
      exact ⟨key, mem, more, tail, components⟩

lemma run_enumerateLinks (links : LinkStore) :
    ∃ ds, w.run links.enumerate = (.ok ds, w) ∧
      Lists ds fun d => w.HoldsAlong (Record.link links.current links.repository d).steps := by
  obtain ⟨settings, n, kind, older⟩ := links
  have started := (Layout.isPlain_links n kind).components_ne_nil
  obtain ⟨ds, ran, ordered, listed⟩ := run_decoded tidy (Layout.isPlain_links n kind)
    (Layout.leads_links n kind) (Layout.isFileName_linksSteps n kind)
    (Layout.linkedDigest? (Layout.links n kind))
    (fun d more => more = [Digest.algorithm, d.hex, "link"]) (by simp) fun key d => by
      rw [Layout.linkedDigest?_eq_some_iff started, Layout.components_linkTo started]
      simp
  refine ⟨ds, ran, ordered, fun d => (listed d).trans ?_⟩
  simp [Record.steps, Record.owner?, Record.place]

lemma run_enumerateBlobs (store : BlobStore) :
    ∃ ds, w.run store.enumerate = (.ok ds, w) ∧
      Lists ds fun d => ∃ folder, d.BeginsWith folder ∧ w.HoldsAlong (store.stepsIn folder d) := by
  have started := (Layout.isPlain_blobs store).components_ne_nil
  obtain ⟨ds, ran, ordered, listed⟩ := run_decoded tidy (Layout.isPlain_blobs store)
    (Layout.leads_blobs store) (Layout.isFileName_blobsSteps store)
    (Layout.blobDigest? (Layout.blobs store))
    (fun d more => ∃ folder, d.BeginsWith folder ∧
      more = [Digest.algorithm, folder, d.hex, "data"]) (by rintro d _ ⟨_, -, rfl⟩; simp)
    fun key d => by
      rw [Layout.blobDigest?_eq_some_iff started]
      simp
  refine ⟨ds, ran, ordered, fun d => (listed d).trans ?_⟩
  simp [BlobStore.stepsIn]

/-- Whatever a bucket holds, the digests are enumerated in ascending order to which there are
links, and of blobs those that are in a folder that is named by their first digits. These are the
blobs that are stored exactly if none of them is only in a folder of more or fewer digits than two.
-/
theorem enumerates_iff :
    (∀ (n : RepositoryName) (kind : LinkKind) (key : Path) (d : Digest),
      Layout.linkedDigest? (Layout.links n kind) key = some d ↔
        key.components = (Record.link kind n d).key.components) ∧
    (∀ links : LinkStore, ∃ ds, w.run links.enumerate = (.ok ds, w) ∧
      Lists ds fun d => w.run (Action.holds (links.key links.current d)) = (.ok true, w)) ∧
    (∀ (store : BlobStore) (key : Path) (d : Digest),
      Layout.blobDigest? (Layout.blobs store) key = some d ↔
        ∃ folder, d.BeginsWith folder ∧ key.components = (store.stepsIn folder d).map .name) ∧
    ∀ store : BlobStore, ∃ ds, w.run store.enumerate = (.ok ds, w) ∧
      Lists ds (fun d => ∃ folder, d.BeginsWith folder ∧ w.HoldsAlong (store.stepsIn folder d)) ∧
      (∀ d, w.run (store.contains d) = (.ok true, w) ↔
        w.HoldsAlong (store.stepsIn (Layout.shard d) d)) ∧
      (Lists ds (fun d => w.run (store.contains d) = (.ok true, w)) ↔
        ∀ d folder, d.BeginsWith folder → w.HoldsAlong (store.stepsIn folder d) →
          w.HoldsAlong (store.stepsIn (Layout.shard d) d)) := by
  refine ⟨fun n kind key d =>
    Layout.linkedDigest?_eq_some_iff (Layout.isPlain_links n kind).components_ne_nil,
    fun links => ?_, fun store key d => ?_, fun store => ?_⟩
  · obtain ⟨ds, ran, ordered, listed⟩ := run_enumerateLinks tidy links
    refine ⟨ds, ran, ordered, fun d => (listed d).trans ?_⟩
    exact (run_holds_record tidy (r := .link links.current links.repository d) trivial).symm
  · rw [Layout.blobDigest?_eq_some_iff (Layout.isPlain_blobs store).components_ne_nil,
      (Layout.leads_blobs store).2]
    simp [BlobStore.stepsIn]
  · obtain ⟨ds, ran, ordered, listed⟩ := run_enumerateBlobs tidy store
    have stored (d : Digest) : w.run (store.contains d) = (.ok true, w) ↔
        w.HoldsAlong (store.stepsIn (Layout.shard d) d) := by
      rw [← store.steps_blob]
      exact run_holds_record tidy (r := .blob store d) trivial
    refine ⟨ds, ran, ⟨ordered, listed⟩, stored, ?_⟩
    simp only [Lists, listed, stored]
    constructor
    · rintro ⟨-, same⟩ d folder begins holds
      exact (same d).1 ⟨folder, begins, holds⟩
    · intro filed
      refine ⟨ordered, fun d => ⟨fun ⟨folder, begins, holds⟩ => filed d folder begins holds, ?_⟩⟩
      exact fun holds => ⟨_, d.beginsWith_shard, holds⟩

end World

/-- A digest all of whose digits are the same. -/
def Digest.plain : Digest := ⟨String.ofList (List.replicate 64 'a'), by decide⟩

/-- A bucket with a blob in a folder of one digit, and nothing else. -/
def strayBucket : Bucket := Bucket.put ∅ (.along (BlobStore.shared.stepsIn "a" .plain)) []

lemma along?_strayBucket (names : List String) : strayBucket.along? names =
    if names = BlobStore.shared.stepsIn "a" .plain then some [] else none := by
  have isName : ∀ s ∈ BlobStore.shared.stepsIn "a" .plain, IsName s := by decide
  rw [strayBucket, Bucket.along?_put isName (by simp [BlobStore.stepsIn])]
  simp [Bucket.along?]

/-- A registry with that bucket. -/
def strayWorld : World := (⟨"registry", ∅, none⟩ : Site).world strayBucket .empty

lemma isTidy_strayWorld : strayWorld.IsTidy := by
  refine ⟨rfl, fun b found => ?_⟩
  change ((∅ : Std.ExtTreeMap String Bucket).insert "registry" strayBucket)["registry"]? = some b
    at found
  obtain rfl : strayBucket = b := by simpa using found
  exact Bucket.isSpelled_empty.put _ _

lemma holds_strayWorld {names : List String} :
    strayWorld.HoldsAlong names ↔ names = BlobStore.shared.stepsIn "a" .plain := by
  change (∃ b : Bucket,
      ((∅ : Std.ExtTreeMap String Bucket).insert "registry" strayBucket)["registry"]?
    = some b ∧ _) ↔ _
  simp [along?_strayBucket]

/-- The blob in the folder of one digit is enumerated, but it is not stored. -/
theorem BlobStore.strayBlob_enumerated :
    strayWorld.run BlobStore.shared.enumerate = (.ok [.plain], strayWorld) ∧
      strayWorld.run (BlobStore.shared.contains .plain) = (.ok false, strayWorld) := by
  constructor
  · obtain ⟨ds, ran, ordered, listed⟩ := World.run_enumerateBlobs isTidy_strayWorld .shared
    have only : ds = [.plain] := eq_of_ascending ordered (List.pairwise_singleton _ _) fun d => by
      rw [listed, List.mem_singleton]
      constructor
      · rintro ⟨folder, -, held⟩
        have steps := holds_strayWorld.1 held
        have same : Digest.plain.hex = d.hex := by
          simp only [stepsIn, List.append_cancel_left_eq, List.cons.injEq] at steps
          exact steps.2.2.1.symm
        exact Option.some.inj
          ((Digest.ofHex?_eq_some_iff.2 same).symm.trans Digest.plain.ofHex?_hex)
      · rintro rfl
        exact ⟨"a", ⟨by decide, by decide⟩, holds_strayWorld.2 rfl⟩
    rw [ran, only]
  · have lawful : (Record.blob .shared .plain).IsLawful := trivial
    have missing : strayBucket.content? (BlobStore.shared.key .plain) = none := by
      rw [key, Bucket.content?_key lawful, along?_strayBucket, if_neg]
      decide
    rw [strayWorld, contains, Site.run_holds, missing]
    rfl

/-- It is enumerated for the digit that its folder has in common with it. -/
theorem World.strayWorld_enumerates :
    strayWorld.IsTidy ∧ ∃ ds, strayWorld.run BlobStore.shared.enumerate = (.ok ds, strayWorld) ∧
      ∀ d, d ∈ ds ↔ ∃ folder, d.BeginsWith folder ∧
        strayWorld.HoldsAlong (BlobStore.shared.stepsIn folder d) := by
  obtain ⟨-, -, -, enumerated⟩ := enumerates_iff isTidy_strayWorld
  obtain ⟨ds, ran, ⟨-, listed⟩, -, -⟩ := enumerated .shared
  exact ⟨isTidy_strayWorld, ds, ran, listed⟩

end ImageRegistry
