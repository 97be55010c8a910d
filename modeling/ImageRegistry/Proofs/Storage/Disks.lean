import ImageRegistry.Proofs.Storage.Buckets
import ImageRegistry.Proofs.Storage.FileTrees
import ImageRegistry.Storage.Backend

/-! Buckets on disks: how a tree of files stands for a bucket, and that what is done to the one is
done to the other. -/

namespace ImageRegistry

open ImageRegistry.Path (IsFileName IsName IsUnslashed)

/-- Keys that can be kept beside each other in a tree of files: none leads on from another one, nor
from where another one is staged. -/
structure Keyspace where
  Contains : List String → Prop
  nonempty : ∀ {names}, Contains names → names ≠ []
  isFileName : ∀ {names}, Contains names → ∀ s ∈ names, IsFileName s
  apart : ∀ {names more}, Contains names → Contains (names ++ more) → more = []
  unstaged : ∀ {names file} (n : ℕ) (more), Contains (names ++ [file]) →
    ¬Contains (names ++ Path.extended file (Disk.stagingExtension n) :: more)

namespace Bucket

/-- The content of the key that names lead along. -/
def along? (b : Bucket) (names : List String) : Option Octets :=
  b[names.map Component.name]?.map Stored.content

/-- Every key of the bucket is one of a space, written as such. -/
def IsIn (b : Bucket) (K : Keyspace) : Prop :=
  ∀ (cs : List Component) (stored : Stored), b[cs]? = some stored →
    ∃ names, K.Contains names ∧ cs = names.map .name ∧ stored.spelling = .along names

variable {b : Bucket} {K : Keyspace} {names : List String} {content : Octets}

lemma content?_along (b : Bucket) (isName : ∀ s ∈ names, IsName s) (nonempty : names ≠ []) :
    b.content? (.along names) = b.along? names := by
  rw [content?, along?, Path.components_along isName nonempty]

lemma IsIn.contains (isIn : b.IsIn K) (found : b.along? names = some content) :
    K.Contains names := by
  obtain ⟨stored, held, -⟩ := Option.map_eq_some_iff.1 found
  obtain ⟨names', contains, same, -⟩ := isIn _ stored held
  rwa [Path.map_name_inj.1 same]

lemma along?_put (isName : ∀ s ∈ names, IsName s) (nonempty : names ≠ []) (content : Octets)
    (other : List String) :
    (b.put (.along names) content).along? other =
      if other = names then some content else b.along? other := by
  rw [along?, put, Path.components_along isName nonempty, Std.ExtTreeMap.getElem?_insert]
  simp only [Std.compare_eq_iff_eq, Path.map_name_inj, eq_comm (a := other)]
  split_ifs <;> rfl

lemma along?_remove (isName : ∀ s ∈ names, IsName s) (nonempty : names ≠ [])
    (other : List String) :
    (b.remove (.along names)).along? other = if other = names then none else b.along? other := by
  rw [along?, remove, Path.components_along isName nonempty, Std.ExtTreeMap.getElem?_erase]
  simp only [Std.compare_eq_iff_eq, Path.map_name_inj, eq_comm (a := other)]
  split_ifs <;> rfl

lemma IsIn.put (isIn : b.IsIn K) (contains : K.Contains names) (content : Octets) :
    (b.put (.along names) content).IsIn K := by
  have isName : ∀ s ∈ names, IsName s := fun s mem => (K.isFileName contains s mem).1
  have components := Path.components_along isName (K.nonempty contains)
  intro cs stored found
  rw [Bucket.put, Std.ExtTreeMap.getElem?_insert] at found
  split_ifs at found with same
  · rw [Std.compare_eq_iff_eq] at same
    obtain rfl := Option.some.inj found
    refine ⟨names, contains, same.symm.trans components, ?_⟩
    cases old : b[(Path.along names).components]? with
    | none => rfl
    | some stored =>
      obtain ⟨names', -, components', spelling⟩ := isIn _ stored old
      rw [components, Path.map_name_inj] at components'
      exact components' ▸ spelling
  · exact isIn cs stored found

lemma IsIn.remove (isIn : b.IsIn K) (key : Path) : (b.remove key).IsIn K := by
  intro cs stored found
  rw [Bucket.remove, Std.ExtTreeMap.getElem?_erase] at found
  split_ifs at found
  exact isIn cs stored found

end Bucket

namespace FileTree

/-- The files below a place are what a bucket holds, and its directories lie on the way to keys. -/
structure Holds (t : FileTree) (K : Keyspace) (place : List String) (b : Bucket) : Prop where
  isIn : b.IsIn K
  file : ∀ names content,
    t.node? (place ++ names) = some (.file content) ↔ b.along? names = some content
  onward : ∀ names, names ≠ [] → t.node? (place ++ names) = some .directory →
    ∃ more, more ≠ [] ∧ K.Contains (names ++ more)

variable {t t' : FileTree} {K : Keyspace} {root : Path} {place names : List String} {b : Bucket}
  {file : String} {content : Octets}

namespace Holds

lemma isClear (holds : t.Holds K place b) (contains : K.Contains names) :
    t.IsClear place names := by
  rintro ns more content rfl proper found
  exact proper (K.apart (holds.isIn.contains ((holds.file ns content).1 found)) contains)

lemma ne_directory (holds : t.Holds K place b) (contains : K.Contains names) :
    t.node? (place ++ names) ≠ some .directory := by
  intro directory
  obtain ⟨more, proper, onward⟩ := holds.onward names (K.nonempty contains) directory
  exact proper (K.apart contains onward)

lemma node?_eq (holds : t.Holds K place b) (contains : K.Contains names) :
    t.node? (place ++ names) = (b.along? names).map .file := by
  cases held : b.along? names with
  | some content => exact (holds.file names content).2 held
  | none =>
    cases found : t.node? (place ++ names) with
    | none => rfl
    | some node =>
      cases node with
      | directory => exact absurd found (holds.ne_directory contains)
      | file content =>
        rw [(holds.file names content).1 found] at held
        cases held

lemma node?_staging (holds : t.Holds K place b) (contains : K.Contains (names ++ [file])) (n : ℕ) :
    t.node? (place ++ (names ++ [Path.extended file (Disk.stagingExtension n)])) = none := by
  cases found : t.node? (place ++ (names ++ [Path.extended file (Disk.stagingExtension n)])) with
  | none => rfl
  | some node =>
    cases node with
    | directory =>
      obtain ⟨more, -, onward⟩ := holds.onward _ (by simp) found
      exact absurd (by simpa using onward) (K.unstaged n more contains)
    | file content =>
      exact absurd (holds.isIn.contains ((holds.file _ content).1 found))
        (K.unstaged n [] contains)

end Holds

lemma IsRooted.replace (rooted : t.IsRooted root place) (holds : t.Holds K place b)
    (contains : K.Contains (names ++ [file])) (grows : t.Grows t' place names) {n : ℕ}
    {t'' : FileTree} (limits : t''.limits = t'.limits)
    (nodes : ∀ q, t''.node? q = if q = place ++ (names ++ [file]) then some (.file content)
      else if q = place ++ (names ++ [Path.extended file (Disk.stagingExtension n)]) then none
      else t'.node? q) :
    t''.IsRooted root place ∧
      t''.Holds K place (b.put (.along (names ++ [file])) content) := by
  have isName : ∀ s ∈ names ++ [file], IsName s := fun s mem => (K.isFileName contains s mem).1
  have directories {q : List String} (directory : t'.node? q = some .directory) :
      t''.node? q = some .directory := by
    rw [nodes, if_neg ?_, if_neg ?_, directory]
    · rintro rfl
      rw [grows.beyond, holds.node?_staging contains] at directory
      cases directory
    · rintro rfl
      rw [grows.beyond] at directory
      exact holds.ne_directory contains directory
  have limits' : t''.limits = t.limits := limits.trans grows.limits
  refine ⟨⟨limits'.trans rooted.unlimited, rooted.unslashed, rooted.clean,
    rooted.reaches.mono limits' fun q directory => directories (grows.stays directory),
    fun ns s held => ?_⟩,
    ⟨holds.isIn.put contains content, fun ns found => ?_, fun ns proper directory => ?_⟩⟩
  · rw [nodes] at held
    split_ifs at held with key staging
    · rw [List.append_assoc, List.append_cancel_left_eq] at key
      obtain ⟨rfl, -⟩ := List.append_inj' key rfl
      exact directories (grows.directory ns List.prefix_rfl)
    · cases held
    · exact directories (grows.isClosedBelow rooted.closed ns s held)
  · rw [Bucket.along?_put isName (by simp), nodes]
    by_cases key : ns = names ++ [file]
    · simp [key]
    rw [if_neg (mt List.append_cancel_left key), if_neg key]
    by_cases staging : ns = names ++ [Path.extended file (Disk.stagingExtension n)]
    · rw [staging, if_pos rfl]
      refine iff_of_false nofun fun held => ?_
      exact K.unstaged n [] contains (holds.isIn.contains held)
    rw [if_neg (mt List.append_cancel_left staging)]
    by_cases within : ns <+: names
    · obtain ⟨more, rfl⟩ := within
      rw [grows.directory ns (List.prefix_append ns more)]
      refine iff_of_false nofun fun held => ?_
      rw [List.append_assoc] at contains
      simpa using K.apart (holds.isIn.contains held) contains
    · rw [grows.apart within]
      exact holds.file ns found
  · rw [nodes] at directory
    split_ifs at directory
    · cases directory
    by_cases within : ns <+: names
    · obtain ⟨more, rfl⟩ := within
      exact ⟨more ++ [file], by simp, by simpa using contains⟩
    · rw [grows.apart within] at directory
      exact holds.onward ns proper directory

lemma IsRooted.unset (rooted : t.IsRooted root place) (holds : t.Holds K place b)
    (contains : K.Contains names) {old : Octets} (held : b.along? names = some old) :
    (t.unset (place ++ names)).IsRooted root place ∧
      (t.unset (place ++ names)).Holds K place (b.remove (.along names)) := by
  have nonempty : place ++ names ≠ [] := by simp [K.nonempty contains]
  have isName : ∀ s ∈ names, IsName s := fun s mem => (K.isFileName contains s mem).1
  have here : t.node? (place ++ names) = some (.file old) := (holds.file names old).2 held
  have stays {q : List String} (directory : t.node? q = some .directory) :
      (t.unset (place ++ names)).node? q = some .directory := by
    rw [node?_unset nonempty, if_neg ?_, directory]
    rintro rfl
    rw [here] at directory
    cases directory
  refine ⟨⟨rooted.unlimited, rooted.unslashed, rooted.clean,
    rooted.reaches.mono rfl fun _ => stays, fun ns s held => ?_⟩,
    ⟨holds.isIn.remove _, fun ns content => ?_, fun ns proper directory => ?_⟩⟩
  · rw [node?_unset nonempty] at held
    split_ifs at held
    · cases held
    · exact stays (rooted.closed ns s held)
  · rw [node?_unset nonempty, Bucket.along?_remove isName (K.nonempty contains)]
    by_cases same : ns = names
    · simp [same]
    · rw [if_neg (mt List.append_cancel_left same), if_neg same]
      exact holds.file ns content
  · rw [node?_unset nonempty] at directory
    split_ifs at directory
    exact holds.onward ns proper directory

end FileTree

namespace Disk

open FileTree

/-- The directory of a bucket holds what the bucket does; or there is none yet, but it can be made,
and the bucket is empty. -/
def Keeps (d : Disk) (K : Keyspace) (bucket : String) (b : Bucket) : Prop :=
  ∃ t place, t.IsRooted (d.base bucket) place ∧ t.Holds K place b ∧
    (d.tree = t ∨ b = ∅ ∧ d.tree.limits = .none ∧ d.tree.Lacks (d.base bucket).components ∧
      d.tree.makeDirectories (d.base bucket) = (t, .ok ()))

variable {d : Disk} {K : Keyspace} {bucket : String} {b : Bucket} {names : List String}

lemma path_along (d : Disk) (bucket : String) (isName : ∀ s ∈ names, IsName s)
    (nonempty : names ≠ []) : d.path bucket (.along names) = (d.base bucket).descend names :=
  have isB : IsName "b" := by decide
  (isB.isUnslashed_join _).join_along isName nonempty

section

variable (keeps : d.Keeps K bucket b) (contains : K.Contains names)

include keeps contains

lemma Keeps.look : d.tree.look (d.path bucket (.along names)) =
    match b.along? names with
    | some content => .ok (.file content)
    | none => .error .notFound := by
  have isFileName : ∀ s ∈ names, IsFileName s := K.isFileName contains
  rw [path_along d bucket (fun s mem => (isFileName s mem).1) (K.nonempty contains)]
  obtain ⟨t, place, rooted, holds, rfl | ⟨rfl, unlimited, lacks, -⟩⟩ := keeps
  · rw [rooted.look_descend isFileName (holds.isClear contains), holds.node?_eq contains]
    cases b.along? names <;> rfl
  · rw [FileTree.look, lacks.find_descend unlimited rooted.unslashed rooted.clean isFileName]
    simp [Bucket.along?, bind, Except.bind]

theorem Keeps.metadata : d.metadata bucket (.along names) =
    match b.along? names with
    | some content => .ok content.length
    | none =>
      .error (failure .notFound "local driver: metadata" (d.path bucket (.along names))) := by
  unfold Disk.metadata
  simp only [keeps.look contains]
  cases b.along? names <;> rfl

theorem Keeps.download : d.download bucket (.along names) =
    match b.along? names with
    | some content => .ok content
    | none => .error (failure .notFound "open remote file" (d.path bucket (.along names))) := by
  unfold Disk.download
  simp only [keeps.look contains]
  cases b.along? names <;> rfl

theorem Keeps.delete : ∃ d', d.delete bucket (.along names) = .ok d' ∧
    d'.Keeps K bucket (b.remove (.along names)) := by
  have isFileName : ∀ s ∈ names, IsFileName s := K.isFileName contains
  have isName : ∀ s ∈ names, IsName s := fun s mem => (isFileName s mem).1
  have unchanged (missing : b.along? names = none) : b.remove (.along names) = b :=
    Bucket.remove_of_content?_eq_none <| by
      rw [b.content?_along isName (K.nonempty contains), missing]
  have path := path_along d bucket isName (K.nonempty contains)
  have kept := keeps
  obtain ⟨t, place, rooted, holds, rfl | ⟨rfl, unlimited, lacks, -⟩⟩ := keeps
  · have finds := rooted.find_descend isFileName (holds.isClear contains)
    rw [← path, holds.node?_eq contains] at finds
    cases held : b.along? names with
    | none =>
      rw [held] at finds
      refine ⟨d, ?_, by rwa [unchanged held]⟩
      simp only [Disk.delete, removeFile, finds]
      rfl
    | some old =>
      rw [held] at finds
      have found := holds.node?_eq contains
      rw [held] at found
      obtain ⟨rooted', holds'⟩ := rooted.unset holds contains held
      refine ⟨{ d with tree := d.tree.unset (place ++ names) }, ?_,
        _, place, rooted', holds', .inl rfl⟩
      simp only [Disk.delete, removeFile, finds, Option.map_some, Option.isSome_some, if_true, bind,
        Except.bind, found]
      rfl
  · have finds := lacks.find_descend unlimited rooted.unslashed rooted.clean isFileName
    rw [← path] at finds
    have missing : (∅ : Bucket).along? names = none := by simp [Bucket.along?]
    refine ⟨d, ?_, by rwa [unchanged missing]⟩
    simp only [Disk.delete, removeFile, finds]
    rfl

end

lemma toList_stagingExtension (n : ℕ) :
    (stagingExtension n).toList = "upload-00000000-0000-4000-8000-".toList ++ digits n := by
  have append (s : String) (cs : List Char) : (s ++ String.ofList cs).toList = s.toList ++ cs := by
    rw [String.toList_append, String.toList_ofList]
  exact append _ _

lemma mem_stagingExtension {n : ℕ} {c : Char} (mem : c ∈ (stagingExtension n).toList) :
    c ≠ '/' ∧ c ≠ Char.ofNat 0 := by
  rw [toList_stagingExtension, List.mem_append] at mem
  rcases mem with mem | mem
  · have plain : ∀ c ∈ "upload-00000000-0000-4000-8000-".toList, c ≠ '/' ∧ c ≠ Char.ofNat 0 := by
      simp
    exact plain c mem
  · have plain : ∀ k < 16, Hex.digit k ≠ '/' ∧ Hex.digit k ≠ Char.ofNat 0 := by decide
    unfold digits at mem
    obtain ⟨i, -, same⟩ := List.mem_map.1 mem
    exact same ▸ plain _ (Nat.mod_lt _ (Nat.zero_lt_succ 15))

lemma stagingExtension_ne_empty (n : ℕ) : stagingExtension n ≠ "" := by
  intro empty
  have toList := toList_stagingExtension n
  rw [empty] at toList
  exact absurd (List.append_eq_nil_iff.1 toList.symm).1 (by decide)

lemma isFileName_extended {file : String} (isFileName : IsFileName file) (n : ℕ) :
    IsFileName (Path.extended file (stagingExtension n)) := by
  refine ⟨isFileName.1.extended (fun mem => (mem_stagingExtension mem).1 rfl)
    (stagingExtension_ne_empty n), ?_⟩
  have null : Char.ofNat 0 ∉ Path.stemOf file := fun mem =>
    isFileName.2 ((Path.stemOf_isPrefix file).subset mem)
  rw [Path.extended, String.toList_ofList, List.mem_append, List.mem_cons, not_or, not_or]
  exact ⟨null, by decide, fun mem => (mem_stagingExtension mem).2 rfl⟩

lemma makeDirectories_parent {t : FileTree} {place : List String} {file : String}
    (rooted : t.IsRooted (d.base bucket) place) (holds : t.Holds K place b)
    (before : d.tree = t ∨ b = ∅ ∧ d.tree.limits = .none ∧ d.tree.Lacks (d.base bucket).components ∧
      d.tree.makeDirectories (d.base bucket) = (t, .ok ()))
    (contains : K.Contains (names ++ [file])) :
    ∃ t', d.tree.makeDirectories
        (uploadWith.parent ((d.base bucket).descend (names ++ [file]))) = (t', .ok ()) ∧
      t.Grows t' place names := by
  let base := d.base bucket
  let parent := uploadWith.parent (base.descend (names ++ [file]))
  have isFileName : ∀ s ∈ names ++ [file], IsFileName s := K.isFileName contains
  have components : parent.components = base.components ++ (names ++ []).map .name := by
    have whole := Path.components_descend rooted.unslashed.components_ne_nil fun s mem =>
      (isFileName s mem).1
    rw [List.map_append, ← List.append_assoc] at whole
    change (ancestor _ _).components = _
    rw [Path.components_ancestor, whole, List.append_nil]
    exact List.take_left' (by simp)
  have clean : parent.IsClean := (rooted.clean.descend rooted.unslashed isFileName).ancestor _
  have unlimited : d.tree.limits = .none := by
    rcases before with same | ⟨-, unlimited, -⟩
    · exact same ▸ rooted.unlimited
    · exact unlimited
  have made : d.tree.makeDirectories base = (t, .ok ()) := by
    rcases before with same | ⟨-, -, -, made⟩
    · have isB : IsName "b" := by decide
      obtain ⟨cs, ends⟩ := isB.exists_components_join (d.root / bucket)
      rw [same]
      exact makeDirectories_of_reaches rooted.unlimited rooted.clean ends rooted.reaches
    · exact made
  have started : makeDirectories.go d.tree parent.components base.components.length =
      (t, .ok ()) := by
    have same : parent.components.take base.components.length =
        base.components.take base.components.length := by
      rw [components]
      simp
    rw [go_congr d.tree same]
    exact made
  have clear : ∀ ns content, ns <+: names → t.node? (place ++ ns) ≠ some (.file content) := by
    rintro ns content ⟨more, rfl⟩
    exact holds.isClear contains ns (more ++ [file]) content (by simp) (by simp)
  obtain ⟨t', ran, grows⟩ := makeDirectories_go unlimited rooted.unlimited clean components started
    rooted.reaches rooted.closed clear (before.imp_right fun other => other.2.2.1)
  refine ⟨t', ?_, grows⟩
  rw [List.append_nil] at components
  rw [FileTree.makeDirectories]
  change makeDirectories.go d.tree parent.components parent.components.length = _
  rw [← ran, components]
  simp

theorem Keeps.upload (keeps : d.Keeps K bucket b) (contains : K.Contains names) (content : Octets) :
    ∃ d', d.upload bucket (.along names) content = (d', .ok ()) ∧
      d'.Keeps K bucket (b.put (.along names) content) := by
  have isFileName : ∀ s ∈ names, IsFileName s := K.isFileName contains
  have path := path_along d bucket (fun s mem => (isFileName s mem).1) (K.nonempty contains)
  obtain ⟨t, place, rooted, holds, before⟩ := keeps
  obtain ⟨names, file, rfl⟩ : ∃ names' file, names = names' ++ [file] := by
    rcases List.eq_nil_or_concat names with rfl | ⟨names, file, rfl⟩
    · exact absurd rfl (K.nonempty contains)
    · exact ⟨names, file, List.concat_eq_append⟩
  let staging := Path.extended file (stagingExtension d.stagings)
  obtain ⟨t', made, grows⟩ := makeDirectories_parent rooted holds before contains
  have rooted' := rooted.grows grows
  have directory := grows.directory names List.prefix_rfl
  have isName : ∀ s ∈ names, IsName s := fun s mem => (isFileName s (List.mem_append_left _ mem)).1
  have isFileName' : ∀ s ∈ names ++ [staging], IsFileName s := by
    intro s mem
    rcases List.mem_append.1 mem with mem | mem
    · exact isFileName s (List.mem_append_left _ mem)
    · exact List.mem_singleton.1 mem ▸ isFileName_extended (isFileName file (by simp)) d.stagings
  have staged : (d.path bucket (.along (names ++ [file]))).withExtension
      (stagingExtension d.stagings) = (d.base bucket).descend (names ++ [staging]) := by
    have unslashed := rooted.unslashed.descend isName
    rw [path, Path.descend_concat, Path.descend_concat]
    exact Path.withExtension_step unslashed unslashed.components_ne_nil
      (isFileName file (by simp)).1 (fun mem => (mem_stagingExtension mem).1 rfl)
      (stagingExtension_ne_empty d.stagings)
  have distinct : file ≠ staging := fun same =>
    K.unstaged d.stagings [] contains (by rwa [same] at contains)
  obtain ⟨t₁, t₂, t₃, created, written, renamed, limits, nodes⟩ :=
    rooted'.stage directory isFileName' isFileName
      (by rw [grows.beyond, holds.node?_staging contains]; nofun)
      (by rw [grows.beyond]; exact holds.ne_directory contains) distinct content
  obtain ⟨replaced, holds'⟩ := rooted.replace holds contains grows limits nodes
  refine ⟨{ d with tree := t₃, stagings := d.stagings + 1 }, ?_,
    t₃, place, replaced, holds', .inl rfl⟩
  rw [path] at staged
  unfold Disk.upload uploadWith
  simp only [path, staged, made, created, UploadFault.written, written, renamed]

end Disk
end ImageRegistry
