import Mathlib.Data.List.Perm.Subperm
import ImageRegistry.Proofs.Storage.Disks

/-! What is listed on disks, and what is read there under any key: the same as in the buckets that
they keep. -/

namespace ImageRegistry

open ImageRegistry.Path (IsFileName IsName IsUnslashed)

instance : Std.TransOrd Path := inferInstanceAs (Std.TransCmp (compareOn Path.components))

section

variable {α : Type} [Ord α] [Std.TransOrd α] {xs : List α}
  (distinct : xs.Pairwise fun x y => compare x y ≠ .eq)

include distinct

lemma mem_ascending_of_mem {x : α} (mem : x ∈ xs) : x ∈ ascending xs := by
  have kept : (Std.TreeSet.ofList xs).get? x = some x :=
    Std.TreeSet.get?_ofList_of_mem Std.compare_self distinct mem
  have held : x ∈ (Std.TreeSet.ofList xs).inner := Std.TreeMap.mem_of_getKey?_eq_some kept
  have entry : (x, ()) ∈ (Std.TreeSet.ofList xs).inner.toList :=
    Std.TreeMap.mem_toList_iff_getKey?_eq_some_and_getElem?_eq_some.2
      ⟨kept, Std.TreeMap.getElem?_eq_some_getElem held⟩
  have := List.mem_map_of_mem (f := Prod.fst) entry
  rwa [Std.TreeMap.map_fst_toList_eq_keys] at this

lemma perm_ascending : (ascending xs).Perm xs := by
  have nodup : xs.Nodup :=
    distinct.imp fun different same => different (by rw [same, Std.compare_self])
  have length : (ascending xs).length = xs.length := by
    rw [ascending, Std.TreeSet.length_toList, Std.TreeSet.size_ofList distinct]
  exact ((List.subperm_of_subset nodup fun x mem =>
    mem_ascending_of_mem distinct mem).perm_of_length_le (Nat.le_of_eq length)).symm

end

namespace Bucket

variable {b : Bucket} {K : Keyspace} {base : Option Path} {ns : List String}

/-- A path, or none, below which are the keys that go on along names. -/
def Selects (base : Option Path) (ns : List String) : Prop :=
  ∀ names : List String,
    (base.all fun base => base.components.isPrefixOf (names.map .name)) = ns.isPrefixOf names

lemma selects_none : Selects none [] := fun _ => rfl

lemma selects_some (isName : ∀ s ∈ ns, IsName s) (nonempty : ns ≠ []) :
    Selects (some (.along ns)) ns := by
  intro names
  rw [Option.all_some, Path.components_along isName nonempty, Bool.eq_iff_iff,
    List.isPrefixOf_iff_prefix, List.isPrefixOf_iff_prefix,
    List.prefix_map_iff_of_injective fun _ _ => Component.name.inj]

lemma IsIn.mem_keys (isIn : b.IsIn K) (selects : Selects base ns) {p : Path} :
    p ∈ b.keys base ↔
      ∃ more content, b.along? (ns ++ more) = some content ∧ p = .along (ns ++ more) := by
  simp only [keys, List.mem_map, List.mem_filter, Prod.exists,
    Std.ExtTreeMap.mem_toList_iff_getElem?_eq_some]
  constructor
  · rintro ⟨cs, stored, ⟨found, below⟩, rfl⟩
    obtain ⟨names, -, rfl, spelling⟩ := isIn cs stored found
    rw [selects, List.isPrefixOf_iff_prefix] at below
    obtain ⟨more, rfl⟩ := below
    exact ⟨more, stored.content, by rw [along?, found]; rfl, spelling⟩
  · rintro ⟨more, content, held, rfl⟩
    obtain ⟨stored, found, rfl⟩ := Option.map_eq_some_iff.1 held
    obtain ⟨names, -, same, spelling⟩ := isIn _ stored found
    refine ⟨_, stored, ⟨found, ?_⟩, Path.map_name_inj.1 same ▸ spelling⟩
    rw [selects, List.isPrefixOf_iff_prefix]
    exact List.prefix_append ns more

lemma IsIn.pairwise_keys (isIn : b.IsIn K) (base : Option Path) :
    (b.keys base).Pairwise fun p q => compare p q = .lt := by
  have ordered : b.toList.Pairwise fun x y => compare x.1 y.1 = .lt :=
    Std.ExtTreeMap.ordered_keys_toList
  refine List.pairwise_map.2 ((ordered.filter _).imp_of_mem fun {x y} memX memY less => ?_)
  have components {x : List Component × Stored} (mem : x ∈ b.toList) :
      x.2.spelling.components = x.1 := by
    obtain ⟨names, contains, same, spelling⟩ :=
      isIn x.1 x.2 (Std.ExtTreeMap.mem_toList_iff_getElem?_eq_some.1 mem)
    rw [same, spelling, Path.components_along (fun s mem => (K.isFileName contains s mem).1)
      (K.nonempty contains)]
  change compare x.2.spelling.components y.2.spelling.components = .lt
  rw [components (List.mem_of_mem_filter memX), components (List.mem_of_mem_filter memY), less]

end Bucket

namespace FileTree

variable {t : FileTree} {place : List String} {names : List String} {s : String}

lemma eq_append_of_walk {q : List String} (ran : t.walk place (names.map .down) = .ok q) :
    q = place ++ names := by
  induction names generalizing place with
  | nil => simpa [walk, eq_comm] using ran
  | cons s names ih =>
    rw [List.map_cons] at ran
    cases found : t.node? place with
    | none => simp only [walk, found] at ran; cases ran
    | some node =>
      cases node with
      | file content => simp only [walk, found] at ran; cases ran
      | directory =>
        rw [walk_down found] at ran
        split_ifs at ran
        simpa using ih ran

lemma clean_of_find {p : Path} (finds : t.find p = .ok place) : p.IsClean := by
  unfold find checkPath at finds
  split_ifs at finds with null
  · cases finds
  · simpa [Path.IsClean] using null
  · simpa [Path.IsClean] using null

lemma walk_of_find {p : Path} (finds : t.find p = .ok place) : t.walk [] (steps p) = .ok place := by
  unfold find at finds
  cases checked : t.checkPath p with
  | error e =>
    rw [checked] at finds
    cases finds
  | ok =>
    rw [checked] at finds
    exact finds

lemma Reaches.ne_nil {cs : List Component} (reaches : t.Reaches (cs ++ [.name s]) place) :
    place ≠ [] := by
  obtain ⟨ran, directory⟩ := reaches
  rw [moves_append, walk_append] at ran
  cases first : t.walk [] (moves cs) with
  | error e =>
    rw [first] at ran
    cases ran
  | ok parent =>
    rw [first] at ran
    change t.walk parent [.down s] = .ok place at ran
    rw [walk_down (directory_of_walk ran directory)] at ran
    split_ifs at ran
    cases ran
    simp

lemma eq_file_of_below {found : List String} {node : Node}
    (below : (match node, place.isPrefixOf? found with
      | .file _, some names => some names
      | _, _ => none) = some names) : ∃ content, node = .file content ∧ found = place ++ names := by
  cases node with
  | directory => cases below
  | file content =>
    cases after : place.isPrefixOf? found with
    | none => simp [after] at below
    | some more =>
      obtain rfl : more = names := by simpa [after] using below
      exact ⟨content, rfl, (List.isPrefixOf?_eq_some_iff_append_eq.1 after).symm⟩

lemma mem_filesBelow_iff :
    names ∈ t.filesBelow place ↔ ∃ content, t.nodes[place ++ names]? = some (.file content) := by
  rw [filesBelow, List.mem_filterMap]
  constructor
  · rintro ⟨⟨found, node⟩, mem, below⟩
    obtain ⟨content, rfl, rfl⟩ := eq_file_of_below below
    exact ⟨content, Std.ExtTreeMap.mem_toList_iff_getElem?_eq_some.1 mem⟩
  · rintro ⟨content, held⟩
    refine ⟨(place ++ names, .file content),
      Std.ExtTreeMap.mem_toList_iff_getElem?_eq_some.2 held, ?_⟩
    have after : place.isPrefixOf? (place ++ names) = some names :=
      List.isPrefixOf?_eq_some_iff_append_eq.2 rfl
    simp [after]

lemma mem_filesBelow (nonempty : place ≠ []) :
    names ∈ t.filesBelow place ↔ ∃ content, t.node? (place ++ names) = some (.file content) := by
  rw [mem_filesBelow_iff]
  cases place with
  | nil => exact absurd rfl nonempty
  | cons => rfl

lemma nodup_filesBelow (t : FileTree) (place : List String) : (t.filesBelow place).Nodup := by
  have ordered : t.nodes.toList.Pairwise fun x y => compare x.1 y.1 = .lt :=
    Std.ExtTreeMap.ordered_keys_toList
  refine List.Pairwise.filterMap _ (fun x y less names atX more atY same => ?_) ordered
  obtain ⟨-, -, leads⟩ := eq_file_of_below atX
  obtain ⟨-, -, leads'⟩ := eq_file_of_below atY
  rw [leads, leads', same, Std.compare_self] at less
  cases less

section

variable {root folder : Path} (started : root.components ≠ [])

include started

lemma eq_of_listed (started' : folder.components ≠ []) {more : List String}
    (isName : ∀ s ∈ names, IsName s) (isName' : ∀ s ∈ more, IsName s) {p q : Path}
    (listed : (folder.descend names).textAfter? root = some p)
    (listed' : (folder.descend more).textAfter? root = some q)
    (same : p.components = q.components) : names = more := by
  have components := Path.components_of_textAfter? started listed
  have components' := Path.components_of_textAfter? started listed'
  rw [Path.components_descend started' isName] at components
  rw [Path.components_descend started' isName', ← same, ← components] at components'
  exact (Path.map_name_inj.1 (List.append_cancel_left components')).symm

lemma mem_listed_iff (started' : folder.components ≠ [])
    (isName : ∀ names ∈ t.filesBelow place, ∀ s ∈ names, IsName s) {p : Path} :
    p ∈ ascending ((t.filesBelow place).filterMap fun names =>
        (names.foldl Path.join folder).textAfter? root) ↔
      ∃ names ∈ t.filesBelow place, (folder.descend names).textAfter? root = some p := by
  have distinct : ((t.filesBelow place).filterMap fun names =>
      (names.foldl Path.join folder).textAfter? root).Pairwise fun p q => compare p q ≠ .eq := by
    refine List.pairwise_filterMap.2 ((nodup_filesBelow t place).imp_of_mem
      fun {names more} mem mem' other p listed q listed' same => other ?_)
    change compare p.components q.components = .eq at same
    exact eq_of_listed started started' (isName names mem) (isName more mem') listed listed'
      (Std.compare_eq_iff_eq.1 same)
  rw [(perm_ascending distinct).mem_iff, List.mem_filterMap]
  rfl

lemma mem_listed {ns : List String} (unslashed : root.IsUnslashed) (nonempty : place ++ ns ≠ [])
    (named : ∀ more content, t.node? (place ++ ns ++ more) = some (.file content) →
      ns ++ more ≠ [] ∧ ∀ s ∈ ns ++ more, IsName s) {p : Path} :
    p ∈ ascending ((t.filesBelow (place ++ ns)).filterMap fun names =>
        (names.foldl Path.join (root.descend ns)).textAfter? root) ↔
      ∃ more content, t.node? (place ++ ns ++ more) = some (.file content) ∧
        p = .along (ns ++ more) := by
  have written {more : List String} {content : Octets}
      (found : t.node? (place ++ ns ++ more) = some (.file content)) :
      ((root.descend ns).descend more).textAfter? root = some (.along (ns ++ more)) := by
    obtain ⟨proper, isName⟩ := named more content found
    rw [← Path.descend_append]
    exact Path.textAfter?_descend unslashed started isName proper
  rw [mem_listed_iff started (Path.components_descend_ne_nil started ns)]
  · constructor
    · rintro ⟨more, mem, listed⟩
      obtain ⟨content, found⟩ := (mem_filesBelow nonempty).1 mem
      exact ⟨more, content, found, Option.some.inj (listed.symm.trans (written found))⟩
    · rintro ⟨more, content, found, rfl⟩
      exact ⟨more, (mem_filesBelow nonempty).2 ⟨content, found⟩, written found⟩
  · intro more mem s inMore
    obtain ⟨content, found⟩ := (mem_filesBelow nonempty).1 mem
    exact (named more content found).2 s (List.mem_append_right ns inMore)

end

lemma ascending_below {root : Path} {K : Keyspace} {b : Bucket} {base : Option Path}
    {ns : List String} (rooted : t.IsRooted root place) (holds : t.Holds K place b)
    (nonempty : place ≠ []) (selects : Bucket.Selects base ns) :
    ascending ((t.filesBelow (place ++ ns)).filterMap fun names =>
      (names.foldl Path.join (root.descend ns)).textAfter? root) = b.keys base := by
  have below : place ++ ns ≠ [] := by simp [nonempty]
  refine eq_of_ascending (pairwise_ascending _) (holds.isIn.pairwise_keys base) fun p => ?_
  rw [mem_listed rooted.unslashed.components_ne_nil rooted.unslashed below
    fun more content found => ?_, holds.isIn.mem_keys selects]
  · simp only [List.append_assoc, holds.file]
  · rw [List.append_assoc, holds.file] at found
    have contains := holds.isIn.contains found
    exact ⟨K.nonempty contains, fun s mem => (K.isFileName contains s mem).1⟩

end FileTree

namespace Disk

open FileTree

variable {d : Disk} {K : Keyspace} {bucket : String} {b : Bucket} {ns : List String}

lemma exists_components_base (d : Disk) (bucket : String) :
    ∃ cs, (d.base bucket).components = cs ++ [.name "b"] :=
  have isB : IsName "b" := by decide
  isB.exists_components_join _

section

variable {base : Option Path} {p : Path}
  (target : (base.elim (d.base bucket) fun p => (d.base bucket).join p.text) = p)

include target

lemma list_of_error {e : SystemFault} (finds : d.tree.find p = .error e) :
    d.list bucket base = [] := by
  unfold Disk.list
  simp only [target, isDirectory, look, finds, bind, Except.bind]

lemma list_of_directory {place : List String} (finds : d.tree.find p = .ok place)
    (directory : d.tree.node? place = some .directory) :
    d.list bucket base = ascending ((d.tree.filesBelow place).filterMap fun names =>
      (names.foldl Path.join p).textAfter? (d.base bucket)) := by
  unfold Disk.list
  simp only [target, isDirectory, look, finds, directory, bind, Except.bind, pure, Except.pure]

lemma exists_of_mem_list {key : Path} (mem : key ∈ d.list bucket base) :
    ∃ place, d.tree.find p = .ok place ∧ d.tree.node? place = some .directory := by
  unfold Disk.list isDirectory at mem
  simp only [target] at mem
  rw [← look_eq_ok_iff]
  split at mem
  · next isDirectory _ =>
    split at isDirectory
    · assumption
    · cases isDirectory
  · cases mem

theorem Keeps.list (keeps : d.Keeps K bucket b) (leads : (d.base bucket).descend ns = p)
    (isFileName : ∀ s ∈ ns, IsFileName s) (folder : ∀ names, names <+: ns → ¬K.Contains names)
    (selects : Bucket.Selects base ns) : d.list bucket base = b.keys base := by
  subst leads
  obtain ⟨t, place, rooted, holds, rfl | ⟨rfl, unlimited, lacks, -⟩⟩ := keeps
  · have nonempty : place ≠ [] := by
      obtain ⟨cs, ends⟩ := d.exists_components_base bucket
      have reaches := rooted.reaches
      rw [ends] at reaches
      exact reaches.ne_nil
    have noFile {names more : List String} {content : Octets} (leads : ns = names ++ more) :
        d.tree.node? (place ++ names) ≠ some (.file content) := fun found =>
      folder names ⟨more, leads.symm⟩ (holds.isIn.contains ((holds.file names content).1 found))
    have finds := rooted.find_descend isFileName fun names more content leads _ => noFile leads
    cases found : d.tree.node? (place ++ ns) with
    | none =>
      rw [found] at finds
      rw [list_of_error target finds, eq_comm, List.eq_nil_iff_forall_not_mem]
      intro q mem
      obtain ⟨more, content, held, -⟩ := (holds.isIn.mem_keys selects).1 mem
      have file := (holds.file _ content).2 held
      by_cases last : more = []
      · rw [last, List.append_nil, found] at file
        cases file
      · rw [rooted.closed.directory last (by rw [file]; rfl)] at found
        cases found
    | some node =>
      cases node with
      | file content => exact absurd found (noFile (List.append_nil ns).symm)
      | directory =>
        rw [found] at finds
        rw [list_of_directory target finds found]
        exact ascending_below rooted holds nonempty selects
  · rw [list_of_error target
      (lacks.find_descend unlimited rooted.unslashed rooted.clean isFileName)]
    rfl

end

lemma exists_file_of_download {key : Path} {content : Octets}
    (read : d.download bucket key = .ok content) :
    ∃ q, d.tree.find (d.path bucket key) = .ok q ∧ d.tree.node? q = some (.file content) := by
  rw [← look_eq_ok_iff]
  unfold Disk.download at read
  dsimp only at read
  split at read
  · next looked => exact looked.trans (by rw [Except.ok.inj read])
  · cases read
  · cases read

theorem Keeps.toOption_download (keeps : d.Keeps K bucket b) (isName : ∀ s ∈ ns, IsName s)
    (nonempty : ns ≠ []) : (d.download bucket (.along ns)).toOption = b.along? ns := by
  cases held : b.along? ns with
  | some content =>
    obtain ⟨t, place, rooted, holds, before⟩ := keeps
    rw [Keeps.download ⟨t, place, rooted, holds, before⟩ (holds.isIn.contains held), held]
    rfl
  | none =>
    cases read : d.download bucket (.along ns) with
    | error e => rfl
    | ok content =>
      exfalso
      obtain ⟨q, finds, found⟩ := exists_file_of_download read
      have ran := walk_of_find finds
      obtain ⟨t, place, rooted, holds, rfl | ⟨rfl, -, lacks, -⟩⟩ := keeps
      · rw [path_along d bucket isName nonempty, steps_descend rooted.unslashed isName, walk_append,
          (reaches_iff.1 rooted.reaches).1] at ran
        obtain rfl := eq_append_of_walk ran
        rw [(holds.file ns content).1 found] at held
        cases held
      · rw [path_along d bucket isName nonempty, steps_descend rooted.unslashed isName, walk_append,
          lacks_iff.1 lacks] at ran
        cases ran

end Disk

namespace FileTree

variable {t t' : FileTree} {place : List String} {p : Path} {s : String}

def IsBare (t : FileTree) (place : List String) : Prop :=
  ∀ names, t.node? (place ++ names) = if names = [] then some .directory else none

lemma limits_makeDirectory (made : t.makeDirectory p = .ok t') : t'.limits = t.limits := by
  unfold makeDirectory at made
  simp only [bind, Except.bind, throw, throwThe, MonadExceptOf.throw, pure, Except.pure] at made
  split at made
  · cases made
  split at made
  · split at made
    · cases made
    split at made
    · split_ifs at made
      cases made
      rfl
    · cases made
    · cases made
  · split at made <;> cases made

lemma limits_makeDirectories (t : FileTree) (p : Path) :
    (t.makeDirectories p).1.limits = t.limits := by
  unfold makeDirectories
  induction p.components.length with
  | zero => rfl
  | succ n ih =>
    rw [makeDirectories.go]
    split
    · next made => exact limits_makeDirectory made
    · split
      · next ran => rwa [ran] at ih
      · next ran =>
        rw [ran] at ih
        split
        · next made => exact (limits_makeDirectory made).trans ih
        · split_ifs <;> exact ih
    · split_ifs <;> rfl

lemma lacks_or_eq_of_makeDirectories {cs : List Component} (unlimited : t.limits = .none)
    (clean : p.IsClean) (components : p.components = cs ++ [.name s])
    (made : t.makeDirectories p = (t', .ok ())) : t.Lacks p.components ∨ t = t' := by
  have length : p.components.length = cs.length + 1 := by simp [components]
  have same : (ancestor p.components (cs.length + 1)).components = p.components := by
    rw [Path.components_ancestor, ← length, List.take_length]
  have makes := makeDirectory_eq unlimited (clean.ancestor (cs.length + 1)) (same.trans components)
  rw [makeDirectories, length, makeDirectories.go] at made
  rw [Lacks, components, moves_append, walk_append]
  have stays {e : SystemFault} (failed : t.makeDirectory (ancestor p.components (cs.length + 1)) =
      .error e) (other : e ≠ .notFound) : t = t' := by
    cases e with
    | notFound => exact absurd rfl other
    | _ =>
      simp only [failed] at made
      split_ifs at made <;> exact (Prod.mk.inj made).1
  cases ran : t.walk [] (moves cs) with
  | error e =>
    by_cases missing : e = .notFound
    · exact .inl (by rw [missing]; rfl)
    · exact .inr (stays (by rw [makes, ran]; rfl) missing)
  | ok parent =>
    change t.walk parent [.down s] = _ ∨ _
    cases found : t.node? parent with
    | none => exact .inl (by simp only [walk, found])
    | some node =>
      cases node with
      | file content =>
        exact .inr (stays (e := .other) (by simp only [makes, ran, Except.bind, found]) (by decide))
      | directory =>
        by_cases held : (t.node? (parent ++ [s])).isSome = true
        · exact .inr (stays (e := .alreadyExists)
            (by simp only [makes, ran, Except.bind, found, held, if_true]) (by decide))
        · have short : t.limits.excludesName s = false := by rw [unlimited]; rfl
          exact .inl (by rw [walk_down found, short, if_neg Bool.false_ne_true, if_neg held])

lemma go_root (unlimited : t.limits = .none) : makeDirectories.go t [.root] 1 = (t, .ok ()) := by
  have root : ancestor [.root] 1 = ⟨"/"⟩ := by decide
  have steps : steps ⟨"/"⟩ = [.stay] := by decide
  have clean : (⟨"/"⟩ : Path).IsClean := by decide
  have exist : t.makeDirectory ⟨"/"⟩ = .error .alreadyExists := by
    rw [makeDirectory, checkPath_of_clean unlimited clean, steps]
    rfl
  have there : t.isDirectory ⟨"/"⟩ = true := by
    rw [isDirectory, look, find_of_clean unlimited clean, steps]
    rfl
  rw [makeDirectories.go, root]
  simp only [exist, there, if_true]

end FileTree

namespace Disk

open FileTree

variable {d : Disk} {bucket : String}

/-- A bucket has an empty directory, or one can be made that is empty. Names and paths may be of any
length. -/
def IsReady (d : Disk) (bucket : String) : Prop :=
  d.tree.limits = .none ∧ ∃ tree place, d.tree.makeDirectories (d.base bucket) = (tree, .ok ()) ∧
    tree.find (d.base bucket) = .ok place ∧ tree.IsBare place

theorem IsReady.keeps (ready : d.IsReady bucket) (K : Keyspace) : d.Keeps K bucket ∅ := by
  obtain ⟨unlimited, t, place, made, finds, bare⟩ := ready
  have isB : IsName "b" := by decide
  have unslashed : (d.base bucket).IsUnslashed := isB.isUnslashed_join _
  have clean : (d.base bucket).IsClean := clean_of_find finds
  obtain ⟨cs, ends⟩ := d.exists_components_base bucket
  have directory : t.node? place = some .directory := by simpa using bare []
  have nothing (names : List String) (s : String) : t.node? (place ++ names ++ [s]) = none := by
    rw [List.append_assoc, bare, if_neg (by simp)]
  have limits := t.limits
  refine ⟨t, place, ⟨?_, unslashed, clean, reaches_iff.2 ⟨walk_of_find finds, directory⟩,
    fun names s held => ?_⟩, ⟨fun cs stored found => ?_, fun names content => ?_,
    fun names proper directory => ?_⟩, ?_⟩
  · have same := limits_makeDirectories d.tree (d.base bucket)
    rw [made] at same
    exact same.trans unlimited
  · rw [nothing] at held
    cases held
  · simp at found
  · rw [bare]
    split_ifs <;> simp [Bucket.along?]
  · rw [bare, if_neg proper] at directory
    cases directory
  · rcases lacks_or_eq_of_makeDirectories unlimited clean ends made with lacks | same
    · exact .inr ⟨rfl, unlimited, lacks, made⟩
    · exact .inl same

theorem isReady_of_empty {names : List String} (empty : d.tree = { nodes := ∅, limits := .none })
    (root : d.root.components = .root :: names.map .name) (clean : (d.base bucket).IsClean)
    (name : IsName bucket) : d.IsReady bucket := by
  let ns := names ++ [bucket, "b"]
  have isB : IsName "b" := by decide
  have components : (d.base bucket).components = [.root] ++ (ns ++ []).map .name := by
    have started : (d.root / bucket).components = d.root.components ++ [.name bucket] :=
      name.components_join (by simp [root])
    change (d.root / bucket / "b").components = _
    rw [isB.components_join (by simp [started]), started, root]
    simp [ns]
  have unlimited : d.tree.limits = .none := by rw [empty]
  have nothing (q : List String) : d.tree.node? q = if q = [] then some .directory else none := by
    rw [empty]
    cases q <;> simp [node?]
  have reaches : d.tree.Reaches [.root] [] := ⟨rfl, rfl⟩
  have closed : d.tree.IsClosedBelow [] := by
    intro ns s held
    simp [nothing] at held
  have started : makeDirectories.go d.tree (d.base bucket).components [Component.root].length =
      (d.tree, .ok ()) := by
    change makeDirectories.go d.tree _ 1 = _
    have first : (d.base bucket).components.take 1 = [.root].take 1 := by rw [components]; rfl
    rw [go_congr d.tree first]
    exact go_root unlimited
  obtain ⟨t, ran, grows⟩ := makeDirectories_go unlimited unlimited clean components started reaches
    closed (fun ns content _ => by rw [nothing]; split_ifs <;> simp) (.inl rfl)
  have unlimited' : t.limits = .none := grows.limits.trans unlimited
  have directory := grows.directory ns List.prefix_rfl
  refine ⟨unlimited, t, ns, ?_, ?_, fun more => ?_⟩
  · rw [makeDirectories, ← ran, components]
    simp [Nat.add_comm]
  · have there := (grows.reaches reaches).descend unlimited' (grows.isClosedBelow closed) directory
    rw [find_of_clean unlimited' clean]
    refine (reaches_iff.1 ?_).1
    rw [components, List.append_nil]
    exact there
  · split_ifs with last
    · simpa [last] using directory
    · rw [← List.nil_append ns, List.append_assoc, grows.apart ?_, nothing]
      · simp [last]
      · intro within
        refine last (List.eq_nil_of_length_eq_zero ?_)
        have shorter := within.length_le
        rw [List.length_append] at shorter
        omega

end Disk
end ImageRegistry
