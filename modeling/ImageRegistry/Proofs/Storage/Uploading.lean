import ImageRegistry.Proofs.Storage.Gains

/-! What an upload to a disk leaves, wherever it fails: the content under its key, or what was there
before, or a staging file that is listed and read like any other. -/

namespace ImageRegistry

open ImageRegistry.Path (IsName)

lemma exists_pieces_append {ending : List Char} (slashless : '/' ∉ ending) (cs : List Char) :
    ∃ front last, pieces '/' (cs ++ ending) = front ++ [last ++ ending] := by
  induction cs with
  | nil => exact ⟨[], [], pieces_of_not_mem slashless⟩
  | cons c cs ih =>
    obtain ⟨front, last, split⟩ := ih
    rw [List.cons_append, pieces_cons, split]
    by_cases slash : c = '/'
    · exact ⟨[] :: front, last, by simp [consPiece, slash]⟩
    · cases front with
      | nil => exact ⟨[], c :: last, by simp [consPiece, slash]⟩
      | cons first front => exact ⟨(c :: first) :: front, last, by simp [consPiece, slash]⟩

namespace FileTree

variable {t : FileTree} {p : Path} {place : List String} {s : String}

lemma getLast?_of_steps {front : List Step} (ends : steps p = front ++ [.down s]) :
    p.components.getLast? = some (.name s) := by
  have moved : moves p.components = front.filter (· != .stay) ++ [.down s] := by
    rw [← filter_steps, ends, List.filter_append]
    rfl
  obtain ⟨first, components, begins⟩ := p.components_eq
  have idle : moves first = [] := by rcases begins with rfl | rfl | rfl <;> rfl
  rw [components, moves_append, idle, List.nil_append] at moved
  rw [components]
  have counts := p.counts_pieces
  generalize (pieces '/' p.text.toList).filterMap Component.ofPiece? = cs at moved counts ⊢
  rcases List.eq_nil_or_concat cs with rfl | ⟨front', c, rfl⟩
  · simp [moves] at moved
  · have isPiece := (counts c (by simp)).2
    rw [List.concat_eq_append, moves_append] at moved
    cases c with
    | root => cases isPiece
    | current => cases isPiece
    | parent => simpa [moves] using congrArg List.getLast? moved
    | name u =>
      have same : u = s := by simpa [moves] using congrArg List.getLast? moved
      simp [same]

lemma exists_last_step {before ending : List Char} (slashless : '/' ∉ ending)
    (nonempty : ending ≠ []) (text : p.text.toList = before ++ '.' :: ending) :
    ∃ front last step, steps p = front ++ [step] ∧
      (step = .up ∨ step = .down (String.ofList (last ++ '.' :: ending))) := by
  have slashless' : '/' ∉ '.' :: ending := by simpa using slashless
  obtain ⟨others, last, pieces⟩ := exists_pieces_append slashless' before
  have final : p.text.toList.getLast? ≠ some '/' := by
    rw [text, List.getLast?_append_of_ne_nil _ (List.cons_ne_nil _ _)]
    exact fun slash => slashless' (List.mem_of_getLast? slash)
  obtain ⟨step, counts, kind⟩ : ∃ step, Step.ofPiece? (last ++ '.' :: ending) = some step ∧
      (step = .up ∨ step = .down (String.ofList (last ++ '.' :: ending))) := by
    unfold Step.ofPiece?
    rw [if_neg (by simp), if_neg (by cases last <;> simp [nonempty])]
    split_ifs <;> simp
  refine ⟨others.filterMap Step.ofPiece?, last, step, ?_, kind⟩
  rw [steps, if_neg final, List.append_nil, text, pieces, List.filterMap_append]
  simp [counts]

lemma isSuffix_of_findEntry {extension : String} (slashless : '/' ∉ extension.toList)
    (nonempty : extension ≠ "") (finds : t.findEntry (p.withExtension extension) = .ok place) :
    ∃ (parent : List String) (s : String),
      place = parent ++ [s] ∧ extension.toList <:+ s.toList := by
  obtain ⟨parent, front, s, rfl, ends, -⟩ := exists_of_findEntry finds
  refine ⟨parent, s, rfl, ?_⟩
  cases stemmed : p.stem? with
  | none =>
    -- the path stays as it is, but ends with a name
    rw [Path.withExtension, stemmed] at ends
    unfold Path.stem? at stemmed
    rw [getLast?_of_steps ends] at stemmed
    cases stemmed
  | some split =>
    obtain ⟨before, stem⟩ := split
    have text : (p.withExtension extension).text.toList =
        (before ++ stem) ++ '.' :: extension.toList := by
      rw [Path.withExtension, stemmed, String.toList_ofList]
    obtain ⟨front', last, step, ends', kind⟩ :=
      exists_last_step slashless (by simpa using nonempty) text
    obtain ⟨-, same⟩ := List.append_inj' (ends'.symm.trans ends) rfl
    obtain rfl := List.head_eq_of_cons_eq same
    rcases kind with kind | kind
    · cases kind
    · obtain rfl := Step.down.inj kind
      rw [String.toList_ofList]
      exact (List.suffix_cons '.' _).trans (List.suffix_append last _)

end FileTree

namespace Disk

open FileTree

variable {d d' : Disk} {bucket : String} {key : Path} {base : Option Path} {place : List String}
  {x : Path} {file : Option (List String × Octets)}

/-- The directory whose files are listed. -/
def folder (d : Disk) (bucket : String) (base : Option Path) : Path :=
  base.elim (d.base bucket) fun p => (d.base bucket).join p.text

/-- What is listed for a file at a place, if it lies in the directory. -/
def Spells (d : Disk) (bucket : String) (base : Option Path) (place : List String) (x : Path) :
    Prop :=
  ∃ above names, d.tree.find (d.folder bucket base) = .ok above ∧
    d.tree.node? above = some .directory ∧ place = above ++ names ∧
    ((d.folder bucket base).descend names).textAfter? (d.base bucket) = some x

lemma components_base_ne_nil (d : Disk) (bucket : String) : (d.base bucket).components ≠ [] := by
  obtain ⟨cs, components⟩ := d.exists_components_base bucket
  simp [components]

lemma components_folder_ne_nil (d : Disk) (bucket : String) (base : Option Path) :
    (d.folder bucket base).components ≠ [] := by
  have started := d.components_base_ne_nil bucket
  cases base with
  | none => exact started
  | some p => exact Path.components_join_ne_nil started p.text

lemma mem_list_of_directory (named : d.tree.IsNamed)
    (finds : d.tree.find (d.folder bucket base) = .ok place)
    (directory : d.tree.node? place = some .directory) : x ∈ d.list bucket base ↔
      ∃ names content, d.tree.node? (place ++ names) = some (.file content) ∧
        ((d.folder bucket base).descend names).textAfter? (d.base bucket) = some x := by
  have mem_files {names : List String} : names ∈ d.tree.filesBelow place ↔
      ∃ content, d.tree.node? (place ++ names) = some (.file content) := by
    simp only [mem_filesBelow_iff, named.node?_eq_file]
  have isName {names : List String} (mem : names ∈ d.tree.filesBelow place) :
      ∀ s ∈ names, IsName s := by
    obtain ⟨content, found⟩ := mem_files.1 mem
    have held : (d.tree.node? (place ++ names)).isSome = true := by rw [found]; rfl
    exact fun s mem => named.isName held s (List.mem_append_right place mem)
  rw [list_of_directory (p := d.folder bucket base) rfl finds directory,
    mem_listed_iff (d.components_base_ne_nil bucket) (d.components_folder_ne_nil bucket base)
      fun names mem => isName mem]
  simp only [mem_files]
  exact exists_congr fun names => ⟨fun ⟨⟨content, found⟩, spelled⟩ => ⟨content, found, spelled⟩,
    fun ⟨content, found, spelled⟩ => ⟨⟨content, found⟩, spelled⟩⟩

theorem mem_list (named : d.tree.IsNamed) : x ∈ d.list bucket base ↔
    ∃ place content, d.tree.node? place = some (.file content) ∧ d.Spells bucket base place x := by
  constructor
  · intro mem
    obtain ⟨above, finds, directory⟩ := exists_of_mem_list (p := d.folder bucket base) rfl mem
    obtain ⟨names, content, found, spelled⟩ := (mem_list_of_directory named finds directory).1 mem
    exact ⟨_, content, found, above, names, finds, directory, rfl, spelled⟩
  · rintro ⟨place, content, found, above, names, finds, directory, rfl, spelled⟩
    exact (mem_list_of_directory named finds directory).2 ⟨names, content, found, spelled⟩

lemma pairwise_list (d : Disk) (bucket : String) (base : Option Path) :
    (d.list bucket base).Pairwise fun x y => compare x y = .lt := by
  unfold Disk.list
  dsimp only
  split
  · exact pairwise_ascending _
  · exact .nil

def staging (d : Disk) (bucket : String) (key : Path) : Path :=
  (d.path bucket key).withExtension (stagingExtension d.stagings)

/-- No file has the extension of the next staging file. -/
def IsFresh (d : Disk) : Prop :=
  ∀ place s content, d.tree.node? (place ++ [s]) = some (.file content) →
    ¬(stagingExtension d.stagings).toList <:+ s.toList

/-- An upload ends with the content at its target, or with an error: before there is a staging file
nothing but directories was made, and afterwards some of the content stays in that file. -/
inductive Ends (d d' : Disk) (bucket : String) (key : Path) (content : Octets) :
    Except StorageError Unit → Prop
  | written (place : List String) :
      d.tree.Gains d'.tree (some (place, content)) →
      d'.tree.find (d.path bucket key) = .ok place → Ends d d' bucket key content (.ok ())
  | unwritten (e : StorageError) :
      e.source = "create_dir_all" ∨ e.source = "local: create staging file" →
      d.tree.Gains d'.tree none → Ends d d' bucket key content (.error e)
  | staged (e : StorageError) (place : List String) (n : ℕ) :
      e.source = "copy" ∨ e.source = "shutdown writer" ∨ e.source = "rename into place" →
      d.tree.Gains d'.tree (some (place, content.take n)) → d.tree.node? place = none →
      d'.tree.find (d.staging bucket key) = .ok place → Ends d d' bucket key content (.error e)

lemma UploadFault.exists_written_eq_take (content : Octets) (fault : Option UploadFault) :
    ∃ n, UploadFault.written content fault = content.take n := by
  unfold written
  split
  · exact ⟨_, rfl⟩
  · exact ⟨_, rfl⟩
  · exact ⟨content.length, content.take_length.symm⟩

lemma exists_staged (fresh : d.IsFresh) {t t' : FileTree} (gains : d.tree.Gains t none)
    (created : t.createFile (d.staging bucket key) = .ok t') (content : Octets) :
    ∃ place t'', t'.write (d.staging bucket key) content = .ok t'' ∧
      t''.find (d.staging bucket key) = .ok place ∧ d.tree.node? place = none ∧
      t.node? place = none ∧ t''.limits = t.limits ∧ (t.IsNamed → t''.IsNamed) ∧
      ∀ q, t''.node? q = if q = place then some (.file content) else t.node? q := by
  obtain ⟨place, t'', finds, free, wrote, finds', limits, named, nodes⟩ :=
    exists_write_of_createFile created content
  have slashless : '/' ∉ (stagingExtension d.stagings).toList := fun mem =>
    (mem_stagingExtension mem).1 rfl
  obtain ⟨parent, s, rfl, ending⟩ :=
    isSuffix_of_findEntry slashless (stagingExtension_ne_empty d.stagings) finds
  have new : t.node? (parent ++ [s]) = none := by
    cases found : t.node? (parent ++ [s]) with
    | none => rfl
    | some node =>
      cases node with
      | directory => exact absurd found free
      | file old => exact absurd ending (fresh parent s old ((gains.file_iff nofun).1 found))
  have before : d.tree.node? (parent ++ [s]) = none := by
    rw [← Option.not_isSome_iff_eq_none]
    intro held
    have held' := gains.held held
    rw [new] at held'
    cases held'
  exact ⟨_, t'', wrote, finds', before, new, limits, named, nodes⟩

theorem uploadWith_ends (fresh : d.IsFresh) (bucket : String) (key : Path) (content : Octets)
    (fault : Option UploadFault) :
    (d.uploadWith bucket key content fault).1.root = d.root ∧
      d.Ends (d.uploadWith bucket key content fault).1 bucket key content
        (d.uploadWith bucket key content fault).2 := by
  have made := gains_makeDirectories d.tree (uploadWith.parent (d.path bucket key))
  unfold uploadWith
  dsimp only
  -- the directories: made up to a component, or as far as the tree allows
  split
  · exact ⟨rfl, .unwritten _ (.inl rfl) (gains_go d.tree _ _)⟩
  split
  · next ran =>
    rw [ran] at made
    exact ⟨rfl, .unwritten _ (.inl rfl) made⟩
  next t ran =>
  rw [ran] at made
  -- the staging file, which nothing is in the way of once it is made
  split
  · exact ⟨rfl, .unwritten _ (.inr rfl) made⟩
  split
  · exact ⟨rfl, .unwritten _ (.inr rfl) made⟩
  next t' created =>
  obtain ⟨place, t'', wrote, finds, before, new, limits, named, nodes⟩ :=
    exists_staged fresh made created (UploadFault.written content fault)
  have wrote' : t'.write ((d.path bucket key).withExtension (stagingExtension d.stagings))
    (UploadFault.written content fault) = .ok t'' := wrote
  rw [wrote']
  dsimp only
  have free : t.node? place ≠ some .directory := by simp [new]
  have left : d.tree.Gains t'' (some (place, UploadFault.written content fault)) :=
    made.trans (gains_of_nodes limits named free nodes)
  obtain ⟨n, part⟩ := UploadFault.exists_written_eq_take content fault
  rw [part] at left
  -- from here on an error leaves the staging file
  split
  · exact ⟨rfl, .staged _ place n (.inl rfl) left before finds⟩
  · exact ⟨rfl, .staged _ place n (.inr (.inl rfl)) left before finds⟩
  · exact ⟨rfl, .staged _ place n (.inr (.inr rfl)) left before finds⟩
  next copied closed moved =>
  split
  · next renamed =>
    obtain ⟨goal, gained, finds'⟩ := exists_of_rename finds limits named new nodes renamed
    have whole : UploadFault.written content fault = content := by
      unfold UploadFault.written
      split
      · exact absurd rfl (copied _ _)
      · exact absurd rfl (closed _ _)
      · rfl
    exact ⟨rfl, .written goal (whole ▸ made.trans gained) finds'⟩
  · exact ⟨rfl, .staged _ place n (.inr (.inr rfl)) left before finds⟩

/-- What was written is seen, and everything else as it was before, as far as no path comes upon a
directory or a file where there was nothing. -/
structure Leaves (d d' : Disk) (file : Option (List String × Octets)) : Prop where
  /-- A key that leads to the file has its content. -/
  written : ∀ bucket key place content, file = some (place, content) →
    d'.tree.find (d.path bucket key) = .ok place →
      d'.metadata bucket key = .ok content.length ∧ d'.download bucket key = .ok content
  kept : ∀ bucket key, ¬d.tree.Discovers d'.tree (d.path bucket key) →
    (∀ place content, file = some (place, content) →
      d'.tree.find (d.path bucket key) ≠ .ok place) →
      d'.metadata bucket key = d.metadata bucket key ∧
        d'.download bucket key = d.download bucket key
  /-- What a key comes upon was not found before. -/
  found : ∀ bucket key, d.tree.Discovers d'.tree (d.path bucket key) →
    d.metadata bucket key =
        .error (failure .notFound "local driver: metadata" (d.path bucket key)) ∧
      d.download bucket key = .error (failure .notFound "open remote file" (d.path bucket key))
  /-- The file is listed wherever it lies below. -/
  listed : ∀ bucket base, ¬d.tree.Discovers d'.tree (d.folder bucket base) → ∀ x,
    x ∈ d'.list bucket base ↔
      x ∈ d.list bucket base ∨ ∃ place content, file = some (place, content) ∧
        d.Spells bucket base place x
  relisted : ∀ bucket base, ¬d.tree.Discovers d'.tree (d.folder bucket base) →
    (∀ place content x, file = some (place, content) → ¬d.Spells bucket base place x) →
      d'.list bucket base = d.list bucket base
  /-- Nothing was listed below what is come upon. -/
  unlisted : ∀ bucket base, d.tree.Discovers d'.tree (d.folder bucket base) →
    d.list bucket base = []

lemma base_eq (root : d'.root = d.root) (bucket : String) : d'.base bucket = d.base bucket := by
  rw [Disk.base, root, Disk.base]

lemma path_eq (root : d'.root = d.root) (bucket : String) (key : Path) :
    d'.path bucket key = d.path bucket key := by
  rw [path, base_eq root, path]

section

variable (gains : d.tree.Gains d'.tree file)

include gains

lemma read_found (discovers : d.tree.Discovers d'.tree (d.path bucket key)) :
    d.metadata bucket key =
        .error (failure .notFound "local driver: metadata" (d.path bucket key)) ∧
      d.download bucket key =
        .error (failure .notFound "open remote file" (d.path bucket key)) := by
  have looked : d.tree.look (d.path bucket key) = .error .notFound := by
    rw [look, gains.find_of_discovers discovers]
    rfl
  unfold metadata download
  simp only [looked, and_self]

variable (root : d'.root = d.root)

include root

lemma read_written {content : Octets} (wrote : file = some (place, content))
    (finds : d'.tree.find (d.path bucket key) = .ok place) :
    d'.metadata bucket key = .ok content.length ∧ d'.download bucket key = .ok content := by
  have looked : d'.tree.look (d'.path bucket key) = .ok (.file content) := by
    rw [path_eq root]
    exact look_eq_ok_iff.2 ⟨place, finds, (gains.written place content wrote).1⟩
  unfold metadata download
  simp only [looked, and_self]

lemma read_kept (known : ¬d.tree.Discovers d'.tree (d.path bucket key))
    (apart : ∀ place content, file = some (place, content) →
      d'.tree.find (d.path bucket key) ≠ .ok place) :
    d'.metadata bucket key = d.metadata bucket key ∧
      d'.download bucket key = d.download bucket key := by
  have same : d'.tree.look (d.path bucket key) = d.tree.look (d.path bucket key) := by
    rw [look, look]
    have finds := gains.find_eq known
    rw [finds] at apart ⊢
    cases ends : d.tree.find (d.path bucket key) with
    | error e => rfl
    | ok place =>
      have same : d'.tree.node? place = d.tree.node? place := by
        rcases gains.other place fun content wrote => apart place content wrote ends with
          same | ⟨none, -⟩
        · exact same
        · have held := (stands_of_find ends).1
          rw [none] at held
          cases held
      simp only [bind, Except.bind, same]
  unfold metadata download
  simp only [path_eq root, same, and_self]

lemma spells_iff (known : ¬d.tree.Discovers d'.tree (d.folder bucket base)) :
    d'.Spells bucket base place x ↔ d.Spells bucket base place x := by
  have spelled := base_eq root bucket
  have folder : d'.folder bucket base = d.folder bucket base := by
    rw [Disk.folder, spelled, Disk.folder]
  have directories {above : List String} (finds : d.tree.find (d.folder bucket base) = .ok above) :
      d'.tree.node? above = some .directory ↔ d.tree.node? above = some .directory := by
    refine ⟨fun directory => ?_, gains.directory⟩
    obtain ⟨node, found⟩ := Option.isSome_iff_exists.1 (stands_of_find finds).1
    cases node with
    | directory => exact found
    | file content =>
      obtain ⟨content', found'⟩ := gains.exists_file found
      rw [found'] at directory
      cases directory
  unfold Spells
  rw [folder, gains.find_eq known, spelled]
  refine exists_congr fun above => exists_congr fun names => and_congr_right fun finds => ?_
  rw [directories finds]

lemma list_iff (named : d.tree.IsNamed) (known : ¬d.tree.Discovers d'.tree (d.folder bucket base))
    (x : Path) : x ∈ d'.list bucket base ↔
      x ∈ d.list bucket base ∨ ∃ place content, file = some (place, content) ∧
        d.Spells bucket base place x := by
  rw [mem_list named, mem_list (gains.named named)]
  simp only [spells_iff gains root known]
  constructor
  · rintro ⟨place, content, found, spells⟩
    by_cases wrote : ∃ content, file = some (place, content)
    · obtain ⟨content, wrote⟩ := wrote
      exact .inr ⟨place, content, wrote, spells⟩
    · have other := fun content same => wrote ⟨content, same⟩
      exact .inl ⟨place, content, (gains.file_iff other).1 found, spells⟩
  · rintro (⟨place, content, found, spells⟩ | ⟨place, content, wrote, spells⟩)
    · obtain ⟨content', found'⟩ := gains.exists_file found
      exact ⟨place, content', found', spells⟩
    · exact ⟨place, content, (gains.written place content wrote).1, spells⟩

theorem leaves (named : d.tree.IsNamed) : d.Leaves d' file where
  written _ _ _ _ := read_written gains root
  kept _ _ := read_kept gains root
  found _ _ := read_found gains
  listed _ _ known := list_iff gains root named known
  relisted bucket base known apart := by
    refine eq_of_ascending (pairwise_list _ _ _) (pairwise_list _ _ _) fun x => ?_
    rw [list_iff gains root named known, or_iff_left]
    rintro ⟨place, content, wrote, spells⟩
    exact apart place content x wrote spells
  unlisted bucket base discovers := list_of_error rfl (gains.find_of_discovers discovers)

end

/-- An upload that succeeds leaves the content under its key. One that fails leaves what there was
only until the staging file is made: from then on that file is listed and read with whatever was
written of the content. -/
theorem uploadWith_leaves (named : d.tree.IsNamed) (fresh : d.IsFresh) (bucket : String)
    (key : Path) (content : Octets) (fault : Option UploadFault) :
    let after := d.uploadWith bucket key content fault
    match after.2 with
    | .ok () =>
      after.1.metadata bucket key = .ok content.length ∧
        after.1.download bucket key = .ok content ∧
        ∃ place, after.1.tree.find (d.path bucket key) = .ok place ∧
          d.Leaves after.1 (some (place, content))
    | .error e =>
      (e.source = "create_dir_all" ∨ e.source = "local: create staging file") ∧
          d.Leaves after.1 none ∨
        (e.source = "copy" ∨ e.source = "shutdown writer" ∨ e.source = "rename into place") ∧
          ∃ place n, d.tree.node? place = none ∧
            after.1.tree.find (d.staging bucket key) = .ok place ∧
            d.Leaves after.1 (some (place, content.take n)) := by
  obtain ⟨root, ends⟩ := uploadWith_ends fresh bucket key content fault
  dsimp only
  generalize d.uploadWith bucket key content fault = after at root ends ⊢
  obtain ⟨d', reply⟩ := after
  cases ends with
  | written place gains finds =>
    obtain ⟨size, read⟩ := read_written gains root rfl finds
    exact ⟨size, read, place, finds, leaves gains root named⟩
  | unwritten e source gains => exact .inl ⟨source, leaves gains root named⟩
  | staged e place n source gains new finds =>
    exact .inr ⟨source, place, n, new, finds, leaves gains root named⟩

lemma isNamed_empty (name : String) (root : Path) : (empty name root).tree.IsNamed := by
  intro place node found
  change (∅ : Std.ExtTreeMap (List String) Node)[place]? = some node at found
  simp at found

lemma isFresh_empty (name : String) (root : Path) : (empty name root).IsFresh := by
  intro place s content found
  have found := (isNamed_empty name root).node?_eq_file.2 found
  change (∅ : Std.ExtTreeMap (List String) Node)[place ++ [s]]? = _ at found
  simp at found

/-- A staging file that could not be moved is all there is on a disk. -/
theorem empty_uploadWith :
    let d := empty "local" ⟨"/"⟩
    let after := d.uploadWith "bucket" ⟨"a"⟩ [50, 51] (some (.rename .other))
    d.tree.IsNamed ∧ d.IsFresh ∧ ∃ place n, d.tree.node? place = none ∧
      after.1.tree.find (d.staging "bucket" ⟨"a"⟩) = .ok place ∧
      d.Leaves after.1 (some (place, [50, 51].take n)) := by
  have named := isNamed_empty "local" ⟨"/"⟩
  have fresh := isFresh_empty "local" ⟨"/"⟩
  have failed : ((empty "local" ⟨"/"⟩).uploadWith "bucket" ⟨"a"⟩ [50, 51]
      (some (.rename .other))).2 =
        .error (failure .other "rename into place" ⟨"/bucket/b/a"⟩) := by
    decide +kernel
  have leaves := uploadWith_leaves named fresh "bucket" ⟨"a"⟩ [50, 51] (some (.rename .other))
  dsimp only at leaves
  rw [failed] at leaves
  obtain ⟨source, -⟩ | ⟨-, left⟩ := leaves
  · rcases source with source | source <;> exact absurd source (by decide)
  · exact ⟨named, fresh, left⟩

/-- A disk with a directory where a file is to be. -/
def nested : Disk := holding "local" ⟨"/"⟩ "bucket" [(⟨"a/b"⟩, [49])]

theorem nested_upload :
    nested.list "bucket" none = [⟨"a/b"⟩] ∧
      (nested.upload "bucket" ⟨"a"⟩ [50]).2 =
        .error (failure .other "rename into place" ⟨"/bucket/b/a"⟩) ∧
      (nested.upload "bucket" ⟨"a"⟩ [50]).1.list "bucket" none =
        [⟨"a/b"⟩, ⟨"a.upload-00000000-0000-4000-8000-000000000001"⟩] := by
  decide +kernel

end Disk

end ImageRegistry
