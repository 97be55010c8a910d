import ImageRegistry.Proofs.Storage.Listings

/-! Trees of files that gain directories, and a file: which paths lead where they led before, and
which come upon something that was not there. -/

namespace ImageRegistry.FileTree

open ImageRegistry.Path (IsName)

variable {t t' t'' : FileTree} {place start : List String} {p : Path} {s : String}
  {file : Option (List String × Octets)}

/-- Something is at a place, and directories are on the way to it. -/
def Stands (t : FileTree) (place : List String) : Prop :=
  (t.node? place).isSome = true ∧ ∀ q, q <+: place → q ≠ place → t.node? q = some .directory

lemma stands_nil (t : FileTree) : t.Stands [] :=
  ⟨rfl, fun _ below other => absurd (List.prefix_nil.1 below) other⟩

lemma Stands.up (stands : t.Stands place) (directory : t.node? place = some .directory) :
    t.Stands place.dropLast ∧ t.node? place.dropLast = some .directory := by
  have above : t.node? place.dropLast = some .directory := by
    by_cases root : place.dropLast = place
    · rw [root]
      exact directory
    · exact stands.2 _ (List.dropLast_prefix place) root
  refine ⟨⟨by rw [above]; rfl, fun q below other => ?_⟩, above⟩
  refine stands.2 q (below.trans (List.dropLast_prefix place)) ?_
  rintro rfl
  exact other (below.eq_of_length_le (by simp))

lemma Stands.down (stands : t.Stands place) (directory : t.node? place = some .directory)
    (held : (t.node? (place ++ [s])).isSome = true) : t.Stands (place ++ [s]) := by
  refine ⟨held, fun q below other => ?_⟩
  rcases List.prefix_concat_iff.1 below with same | below
  · exact absurd same other
  · by_cases same : q = place
    · exact same ▸ directory
    · exact stands.2 q below same

lemma Stands.walk (stands : t.Stands start) {xs : List Step} (ran : t.walk start xs = .ok place) :
    t.Stands place := by
  induction xs generalizing start with
  | nil => exact Except.ok.inj ran ▸ stands
  | cons step xs ih =>
    obtain ⟨node, found⟩ := Option.isSome_iff_exists.1 stands.1
    cases node with
    | file content =>
      rw [walk_of_file found] at ran
      cases ran
    | directory =>
      cases step with
      | stay =>
        rw [walk_stay found] at ran
        exact ih stands ran
      | up =>
        rw [walk_up found] at ran
        exact ih (stands.up found).1 ran
      | down s =>
        rw [walk_down found] at ran
        split_ifs at ran with long held
        exact ih (stands.down found held) ran

lemma stands_of_find (finds : t.find p = .ok place) : t.Stands place :=
  (stands_nil t).walk (walk_of_find finds)

/-- Every place is named as directories and files are. -/
def IsNamed (t : FileTree) : Prop :=
  ∀ (place : List String) (node : Node), t.nodes[place]? = some node →
    place ≠ [] ∧ ∀ s ∈ place, IsName s

/-- A tree with more directories than another one, and with a file that was written, if one was. -/
structure Gains (t t' : FileTree) (file : Option (List String × Octets)) : Prop where
  limits : t'.limits = t.limits
  named : t.IsNamed → t'.IsNamed
  written : ∀ place content, file = some (place, content) →
    t'.node? place = some (.file content) ∧ t.node? place ≠ some .directory
  other : ∀ place, (∀ content, file ≠ some (place, content)) →
    t'.node? place = t.node? place ∨ t.node? place = none ∧ t'.node? place = some .directory

namespace Gains

lemma refl (t : FileTree) : t.Gains t none where
  limits := rfl
  named := id
  written := nofun
  other _ _ := .inl rfl

lemma directory (gains : t.Gains t' file) {q : List String} (found : t.node? q = some .directory) :
    t'.node? q = some .directory := by
  by_cases there : ∃ content, file = some (q, content)
  · obtain ⟨content, there⟩ := there
    exact absurd found (gains.written q content there).2
  · rcases gains.other q fun content same => there ⟨content, same⟩ with same | ⟨none, -⟩
    · rw [same, found]
    · rw [none] at found
      cases found

lemma exists_file (gains : t.Gains t' file) {q : List String} {content : Octets}
    (found : t.node? q = some (.file content)) :
    ∃ content', t'.node? q = some (.file content') := by
  by_cases there : ∃ content, file = some (q, content)
  · obtain ⟨content', there⟩ := there
    exact ⟨content', (gains.written q content' there).1⟩
  · rcases gains.other q fun content same => there ⟨content, same⟩ with same | ⟨none, -⟩
    · exact ⟨content, by rw [same, found]⟩
    · rw [none] at found
      cases found

lemma held (gains : t.Gains t' file) {q : List String} (here : (t.node? q).isSome = true) :
    (t'.node? q).isSome = true := by
  obtain ⟨node, found⟩ := Option.isSome_iff_exists.1 here
  cases node with
  | directory => rw [gains.directory found]; rfl
  | file content =>
    obtain ⟨content', found'⟩ := gains.exists_file found
    rw [found']
    rfl

lemma file_iff (gains : t.Gains t' file) {q : List String} {content : Octets}
    (other : ∀ content, file ≠ some (q, content)) :
    t'.node? q = some (.file content) ↔ t.node? q = some (.file content) := by
  rcases gains.other q other with same | ⟨none, made⟩
  · rw [same]
  · simp [none, made]

lemma trans (first : t.Gains t' none) (second : t'.Gains t'' file) : t.Gains t'' file where
  limits := second.limits.trans first.limits
  named named := second.named (first.named named)
  written place content same :=
    ⟨(second.written place content same).1, fun found =>
      (second.written place content same).2 (first.directory found)⟩
  other place other := by
    have before := first.other place nofun
    rcases second.other place other with same | ⟨none, made⟩
    · rwa [same]
    · rcases before with same' | ⟨-, made'⟩
      · exact .inr ⟨same' ▸ none, made⟩
      · rw [none] at made'
        cases made'

end Gains

/-- A path comes upon something in a tree where there is nothing in another one. -/
def Discovers (t t' : FileTree) (p : Path) : Prop :=
  t.checkPath p = .ok () ∧ ∃ before after place, steps p = before ++ after ∧
    t'.walk [] before = .ok place ∧ t.node? place = none

namespace Gains

variable (gains : t.Gains t' file)

include gains

lemma walk_of_new (stands : t.Stands start) {before : List Step}
    (ran : t'.walk start before = .ok place) (new : t.node? place = none) (after : List Step) :
    t.walk start (before ++ after) = .error .notFound := by
  induction before generalizing start with
  | nil =>
    obtain rfl := Except.ok.inj ran
    have here := stands.1
    rw [new] at here
    cases here
  | cons step before ih =>
    obtain ⟨node, found⟩ := Option.isSome_iff_exists.1 stands.1
    cases node with
    | file content =>
      obtain ⟨content', found'⟩ := gains.exists_file found
      rw [walk_of_file found'] at ran
      cases ran
    | directory =>
      have found' := gains.directory found
      rw [List.cons_append]
      cases step with
      | stay =>
        rw [walk_stay found'] at ran
        rw [walk_stay found]
        exact ih stands ran
      | up =>
        rw [walk_up found'] at ran
        rw [walk_up found]
        exact ih (stands.up found).1 ran
      | down s =>
        rw [walk_down found', gains.limits] at ran
        rw [walk_down found]
        split_ifs at ran with long held'
        rw [if_neg long]
        split_ifs with held
        · exact ih (stands.down found held) ran
        · rfl

lemma walk_eq (stands : t.Stands start) (xs : List Step)
    (known : ∀ before after place, xs = before ++ after → t'.walk start before = .ok place →
      t.node? place ≠ none) : t'.walk start xs = t.walk start xs := by
  induction xs generalizing start with
  | nil => rfl
  | cons step xs ih =>
    obtain ⟨node, found⟩ := Option.isSome_iff_exists.1 stands.1
    cases node with
    | file content =>
      obtain ⟨content', found'⟩ := gains.exists_file found
      rw [walk_of_file found, walk_of_file found']
    | directory =>
      have found' := gains.directory found
      cases step with
      | stay =>
        rw [walk_stay found, walk_stay found']
        refine ih stands fun before after place same ran => ?_
        exact known (.stay :: before) after place (by rw [same]; rfl) (by rwa [walk_stay found'])
      | up =>
        rw [walk_up found, walk_up found']
        refine ih (stands.up found).1 fun before after place same ran => ?_
        exact known (.up :: before) after place (by rw [same]; rfl) (by rwa [walk_up found'])
      | down s =>
        rw [walk_down found, walk_down found', gains.limits]
        split_ifs with long held' held held
        · rfl
        · refine ih (stands.down found held) fun before after place same ran => ?_
          refine known (.down s :: before) after place (by rw [same]; rfl) ?_
          rwa [walk_down found', gains.limits, if_neg long, if_pos held']
        · -- the next place is new
          refine absurd ?_ (known [.down s] xs (start ++ [s]) rfl ?_)
          · simpa using held
          · rw [walk_down found', gains.limits, if_neg long, if_pos held']
            rfl
        · exact absurd (gains.held held) held'
        · rfl

lemma find_of_discovers (discovers : t.Discovers t' p) : t.find p = .error .notFound := by
  obtain ⟨checked, before, after, place, same, ran, new⟩ := discovers
  rw [find, checked, same]
  exact gains.walk_of_new (stands_nil t) ran new after

lemma find_eq (known : ¬t.Discovers t' p) : t'.find p = t.find p := by
  have checks : t'.checkPath p = t.checkPath p := by rw [checkPath, gains.limits, checkPath]
  rw [find, find, checks]
  cases checked : t.checkPath p with
  | error e => rfl
  | ok =>
    refine gains.walk_eq (stands_nil t) (steps p) fun before after place same ran new => ?_
    exact known ⟨checked, before, after, place, same, ran, new⟩

end Gains

lemma isName_of_mem_steps (mem : .down s ∈ steps p) : IsName s := by
  have counted : ∃ piece ∈ pieces '/' p.text.toList, Step.ofPiece? piece = some (.down s) := by
    unfold steps at mem
    rcases List.mem_append.1 mem with mem | mem
    · exact List.mem_filterMap.1 mem
    · split_ifs at mem <;> simp at mem
  obtain ⟨piece, inText, counts⟩ := counted
  unfold Step.ofPiece? at counts
  split_ifs at counts with empty dot dots
  · cases counts
  · cases counts
  · cases counts
    have other {cs : List Char} (different : piece ≠ cs) : String.ofList piece ≠ String.ofList cs :=
      fun same => different (by simpa using congrArg String.toList same)
    exact ⟨by simpa using not_mem_of_mem_pieces inText, other empty, other dot, other dots⟩

namespace IsNamed

variable (named : t.IsNamed)

include named

lemma isName (held : (t.node? place).isSome = true) : ∀ s ∈ place, IsName s := by
  obtain ⟨node, found⟩ := Option.isSome_iff_exists.1 held
  cases place with
  | nil => simp
  | cons s place => exact (named _ node found).2

lemma node?_eq_file {content : Octets} :
    t.nodes[place]? = some (.file content) ↔ t.node? place = some (.file content) := by
  cases place with
  | nil => exact ⟨fun found => absurd rfl (named [] _ found).1, nofun⟩
  | cons => rfl

lemma set (proper : place ≠ []) (isName : ∀ s ∈ place, IsName s) (node : Node) :
    (t.set place node).IsNamed := by
  intro q node' found
  change (t.nodes.insert place node)[q]? = _ at found
  rw [Std.ExtTreeMap.getElem?_insert] at found
  split_ifs at found with same
  · rw [Std.compare_eq_iff_eq] at same
    exact same ▸ ⟨proper, isName⟩
  · exact named q node' found

lemma unset (place : List String) : (t.unset place).IsNamed := by
  intro q node found
  change (t.nodes.erase place)[q]? = _ at found
  rw [Std.ExtTreeMap.getElem?_erase] at found
  split_ifs at found
  exact named q node found

lemma concat (held : (t.node? place).isSome = true) (name : IsName s) :
    ∀ u ∈ place ++ [s], IsName u := by
  intro u mem
  rcases List.mem_append.1 mem with mem | mem
  · exact named.isName held u mem
  · exact List.mem_singleton.1 mem ▸ name

end IsNamed

lemma exists_of_makeDirectory (made : t.makeDirectory p = .ok t') : ∃ place s,
    t.node? place = some .directory ∧ IsName s ∧ t.node? (place ++ [s]) = none ∧
      t' = t.set (place ++ [s]) .directory := by
  unfold makeDirectory at made
  simp only [bind, Except.bind, throw, throwThe, MonadExceptOf.throw, pure, Except.pure] at made
  split at made
  · cases made
  split at made
  · next s before wanted =>
    have name : IsName s := by
      refine isName_of_mem_steps (p := p) (List.mem_reverse.1 ?_)
      exact (List.dropWhile_suffix _).subset (wanted ▸ List.mem_cons_self)
    split at made
    · cases made
    split at made
    · next place _ _ directory =>
      split_ifs at made with long held
      exact ⟨place, s, directory, name, by simpa using held, (Except.ok.inj made).symm⟩
    · cases made
    · cases made
  · split at made <;> cases made

lemma gains_of_makeDirectory (made : t.makeDirectory p = .ok t') : t.Gains t' none := by
  obtain ⟨place, s, directory, name, free, rfl⟩ := exists_of_makeDirectory made
  have nonempty : place ++ [s] ≠ [] := by simp
  refine ⟨rfl, fun named => named.set nonempty (named.concat (by rw [directory]; rfl) name) _,
    nofun, fun q _ => ?_⟩
  rw [node?_set nonempty]
  split_ifs with same
  · exact .inr ⟨same ▸ free, rfl⟩
  · exact .inl rfl

lemma gains_go (t : FileTree) (cs : List Component) (n : ℕ) :
    t.Gains (makeDirectories.go t cs n).1 none := by
  induction n with
  | zero => exact .refl t
  | succ n ih =>
    rw [makeDirectories.go]
    split
    · next made => exact gains_of_makeDirectory made
    · split
      · next ran => rwa [ran] at ih
      · next ran =>
        rw [ran] at ih
        split
        · next made => exact ih.trans (gains_of_makeDirectory made)
        · split_ifs <;> exact ih
    · split_ifs <;> exact .refl t

lemma gains_makeDirectories (t : FileTree) (p : Path) : t.Gains (t.makeDirectories p).1 none :=
  gains_go t _ _

lemma exists_of_findEntry (finds : t.findEntry p = .ok place) : ∃ parent front s,
    place = parent ++ [s] ∧ steps p = front ++ [.down s] ∧ t.checkPath p = .ok () ∧
      t.walk [] front = .ok parent ∧ t.node? parent = some .directory ∧
      t.limits.excludesName s = false := by
  unfold findEntry at finds
  cases checked : t.checkPath p with
  | error e =>
    rw [checked] at finds
    cases finds
  | ok =>
    rw [checked] at finds
    simp only [bind, Except.bind, pure, Except.pure] at finds
    split at finds
    · next s last =>
      split at finds
      · cases finds
      · next parent ran =>
        split at finds
        · next directory =>
          split_ifs at finds with long
          refine ⟨parent, (steps p).dropLast, s, (Except.ok.inj finds).symm, ?_, rfl, ran,
            directory, by simpa using long⟩
          exact (List.dropLast_append_getLast? _ last).symm
        · cases finds
        · cases finds
    · cases finds

lemma find_of_findEntry (finds : t.findEntry p = .ok place) (limits : t'.limits = t.limits)
    (stay : ∀ q, t.node? q = some .directory → t'.node? q = some .directory)
    (held : (t'.node? place).isSome = true) : t'.find p = .ok place := by
  obtain ⟨parent, front, s, rfl, split, checked, ran, directory, short⟩ := exists_of_findEntry finds
  have checked' : t'.checkPath p = .ok () := by rw [← checked, checkPath, limits, checkPath]
  rw [find, checked', split]
  change t'.walk [] (front ++ [.down s]) = _
  rw [walk_append, walk_mono ran directory limits stay, Except.bind,
    walk_down (stay parent directory), limits, short, if_neg Bool.false_ne_true, if_pos held]
  rfl

lemma IsNamed.findEntry (named : t.IsNamed) (finds : t.findEntry p = .ok place) :
    place ≠ [] ∧ ∀ s ∈ place, IsName s := by
  obtain ⟨parent, front, s, rfl, split, -, -, directory, -⟩ := exists_of_findEntry finds
  have name : IsName s := isName_of_mem_steps (p := p) (by simp [split])
  exact ⟨by simp, named.concat (by rw [directory]; rfl) name⟩

lemma gains_of_nodes {content : Octets} (limits : t'.limits = t.limits)
    (named : t.IsNamed → t'.IsNamed) (free : t.node? place ≠ some .directory)
    (nodes : ∀ q, t'.node? q = if q = place then some (.file content) else t.node? q) :
    t.Gains t' (some (place, content)) := by
  refine ⟨limits, named, ?_, fun q other => .inl ?_⟩
  · rintro q content' ⟨⟩
    exact ⟨by rw [nodes, if_pos rfl], free⟩
  · rw [nodes, if_neg]
    rintro rfl
    exact other content rfl

lemma exists_of_createFile (created : t.createFile p = .ok t') : ∃ place,
    t.findEntry p = .ok place ∧ t.node? place ≠ some .directory ∧ t' = t.set place (.file []) := by
  unfold createFile at created
  cases finds : t.findEntry p with
  | error e =>
    rw [finds] at created
    cases created
  | ok place =>
    rw [finds] at created
    simp only [bind, Except.bind, pure, Except.pure] at created
    split at created
    · cases created
    · next free => exact ⟨place, rfl, free, (Except.ok.inj created).symm⟩

lemma exists_write_of_createFile (created : t.createFile p = .ok t') (content : Octets) :
    ∃ place t'', t.findEntry p = .ok place ∧ t.node? place ≠ some .directory ∧
      t'.write p content = .ok t'' ∧ t''.find p = .ok place ∧ t''.limits = t.limits ∧
      (t.IsNamed → t''.IsNamed) ∧
      ∀ q, t''.node? q = if q = place then some (.file content) else t.node? q := by
  obtain ⟨place, finds, free, rfl⟩ := exists_of_createFile created
  have proper : place ≠ [] := by
    obtain ⟨parent, front, s, rfl, -⟩ := exists_of_findEntry finds
    simp
  have once := node?_set (t := t) proper (.file [])
  have twice := node?_set (t := t.set place (.file [])) proper (.file content)
  have aside {q : List String} (directory : t.node? q = some .directory) : q ≠ place := by
    rintro rfl
    exact free directory
  have found : (t.set place (.file [])).node? place = some (.file []) := by rw [once, if_pos rfl]
  have finds' : (t.set place (.file [])).find p = .ok place :=
    find_of_findEntry finds rfl
      (fun q directory => by rw [once, if_neg (aside directory), directory])
      (by rw [found]; rfl)
  refine ⟨place, (t.set place (.file [])).set place (.file content), finds, free, ?_, ?_, rfl,
    fun named => ?_, fun q => ?_⟩
  · simp only [write, finds', bind, Except.bind, found]
    rfl
  · refine find_of_findEntry finds rfl (fun q directory => ?_) (by rw [twice, if_pos rfl]; rfl)
    rw [twice, if_neg (aside directory), once, if_neg (aside directory), directory]
  · have isName := (named.findEntry finds).2
    exact (named.set proper isName _).set proper isName _
  · rw [twice, once]
    split_ifs <;> rfl

lemma exists_of_rename {content : Octets} {target : Path} (finds : t'.find p = .ok place)
    (limits : t'.limits = t.limits) (named : t.IsNamed → t'.IsNamed) (new : t.node? place = none)
    (nodes : ∀ q, t'.node? q = if q = place then some (.file content) else t.node? q)
    (renamed : t'.rename p target = .ok t'') :
    ∃ goal, t.Gains t'' (some (goal, content)) ∧ t''.find target = .ok goal := by
  have found : t'.node? place = some (.file content) := by rw [nodes, if_pos rfl]
  have looked : t'.look p = .ok (.file content) := look_eq_ok_iff.2 ⟨place, finds, found⟩
  have proper : place ≠ [] := by
    rintro rfl
    cases found
  unfold rename at renamed
  cases finds' : t'.findEntry target with
  | error e =>
    simp only [finds, looked, finds', bind, Except.bind] at renamed
    cases renamed
  | ok goal =>
    simp only [finds, looked, finds', bind, Except.bind, pure, Except.pure] at renamed
    have proper' : goal ≠ [] := by
      obtain ⟨parent, front, s, rfl, -⟩ := exists_of_findEntry finds'
      simp
    split at renamed
    · cases renamed
    · next free =>
      obtain rfl := Except.ok.inj renamed
      have nodes' (q : List String) :
          ((t'.unset place).set goal (.file content)).node? q =
            if q = goal then some (.file content) else t.node? q := by
        rw [node?_set proper', node?_unset proper, nodes]
        split_ifs with same same'
        · rfl
        · exact same' ▸ new.symm
        · rfl
      refine ⟨goal, gains_of_nodes limits (fun h => ?_) (fun directory => ?_) nodes', ?_⟩
      · exact ((named h).unset place).set proper' ((named h).findEntry finds').2 _
      · have free : t'.node? goal ≠ some .directory := free
        rw [nodes] at free
        split_ifs at free with same
        · rw [same, new] at directory
          cases directory
        · exact free directory
      · refine find_of_findEntry finds' rfl (fun q directory => ?_) ?_
        · rw [node?_set proper', node?_unset proper, if_neg, if_neg, directory]
          · rintro rfl
            rw [found] at directory
            cases directory
          · rintro rfl
            exact free directory
        · rw [nodes', if_pos rfl]
          rfl

end ImageRegistry.FileTree
