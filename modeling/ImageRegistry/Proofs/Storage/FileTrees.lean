import Mathlib.Data.List.Induction
import ImageRegistry.Proofs.Storage.Descents

/-! Trees of files without limits: how paths are walked along, and what it takes to make directories
on the way to a key. -/

namespace ImageRegistry.FileTree

open ImageRegistry.Path (IsFileName IsName IsUnslashed)

variable {t t' : FileTree} {place : List String} {p : Path} {s : String} {names : List String}

lemma node?_set (nonempty : place ≠ []) (node : Node) (other : List String) :
    (t.set place node).node? other = if other = place then some node else t.node? other := by
  cases other with
  | nil => rw [if_neg (Ne.symm nonempty)]; rfl
  | cons s rest =>
    change (t.nodes.insert place node)[s :: rest]? = _
    rw [Std.ExtTreeMap.getElem?_insert]
    by_cases same : place = s :: rest
    · simp [same]
    · rw [if_neg (by simpa using same), if_neg (Ne.symm same)]
      rfl

lemma node?_unset (nonempty : place ≠ []) (other : List String) :
    (t.unset place).node? other = if other = place then none else t.node? other := by
  cases other with
  | nil => rw [if_neg (Ne.symm nonempty)]; rfl
  | cons s rest =>
    change (t.nodes.erase place)[s :: rest]? = _
    rw [Std.ExtTreeMap.getElem?_erase]
    by_cases same : place = s :: rest
    · simp [same]
    · rw [if_neg (by simpa using same), if_neg (Ne.symm same)]
      rfl

/-- The steps that lead away from a place along components. -/
def moves (cs : List Component) : List Step :=
  cs.filterMap fun
    | .root | .current => none
    | .parent => some .up
    | .name s => some (.down s)

lemma moves_append (cs ds : List Component) : moves (cs ++ ds) = moves cs ++ moves ds :=
  List.filterMap_append

@[simp] lemma moves_names (names : List String) :
    moves (names.map .name) = names.map Step.down := by
  induction names with
  | nil => rfl
  | cons s names ih => exact congrArg (Step.down s :: ·) ih

lemma filter_steps (p : Path) : (steps p).filter (· != .stay) = moves p.components := by
  obtain ⟨first, components, begins⟩ := p.components_eq
  have counted (ps : List (List Char)) : (ps.filterMap Step.ofPiece?).filter (· != .stay) =
      moves (ps.filterMap Component.ofPiece?) := by
    induction ps with
    | nil => rfl
    | cons piece ps ih =>
      by_cases empty : piece = []
      · simp [empty, Step.ofPiece?, Component.ofPiece?, ih]
      by_cases dot : piece = ['.']
      · simp [dot, Step.ofPiece?, Component.ofPiece?, ih]
      by_cases dots : piece = ['.', '.']
      · simp [dots, Step.ofPiece?, Component.ofPiece?, ih, moves]
      · simp [empty, dot, dots, Step.ofPiece?, Component.ofPiece?, ih, moves]
  have idle : moves first = [] := by rcases begins with rfl | rfl | rfl <;> rfl
  rw [components, moves_append, idle, List.nil_append, ← counted, steps, List.filter_append]
  split_ifs <;> simp

lemma steps_step (unslashed : p.IsUnslashed) (name : IsName s) :
    steps (p / s) = steps p ++ [.down s] := by
  obtain ⟨c', last', other'⟩ := unslashed.step name
  have text : (p / s).text.toList = p.text.toList ++ '/' :: s.toList := by
    simp [unslashed.join_text name.relative]
  have down : Step.ofPiece? s.toList = some (.down s) := by
    have other {cs : List Char} (different : s ≠ String.ofList cs) : s.toList ≠ cs := by
      rintro rfl
      exact different String.ofList_toList.symm
    rw [Step.ofPiece?, if_neg (other name.2.1), if_neg (other name.2.2.1),
      if_neg (other name.2.2.2), String.ofList_toList]
  obtain ⟨c, last, other⟩ := unslashed
  unfold steps
  simp only [last, last', Option.some.injEq, other, other', if_false, List.append_nil]
  rw [text, pieces_append_separator, List.filterMap_append, pieces_of_not_mem name.1]
  simp [down]

lemma steps_descend (unslashed : p.IsUnslashed) (isName : ∀ s ∈ names, IsName s) :
    steps (p.descend names) = steps p ++ names.map Step.down := by
  induction names generalizing p with
  | nil => simp
  | cons s names ih =>
    have name := isName s List.mem_cons_self
    rw [Path.descend_cons,
      ih (unslashed.step name) fun u mem => isName u (List.mem_cons_of_mem s mem),
      steps_step unslashed name]
    simp

lemma look_eq_ok_iff {node : Node} :
    t.look p = .ok node ↔ ∃ q, t.find p = .ok q ∧ t.node? q = some node := by
  unfold look
  cases t.find p with
  | error e => simp [bind, Except.bind]
  | ok q =>
    cases found : t.node? q with
    | none => simp [bind, Except.bind, found]
    | some node' => simp [bind, Except.bind, pure, Except.pure, found]

lemma walk_of_file {content : Octets} (found : t.node? place = some (.file content)) (step : Step)
    (xs : List Step) : t.walk place (step :: xs) = .error .other := by
  simp only [walk, found]

lemma walk_stay (found : t.node? place = some .directory) (xs : List Step) :
    t.walk place (.stay :: xs) = t.walk place xs := by
  simp only [walk, found]

lemma walk_up (found : t.node? place = some .directory) (xs : List Step) :
    t.walk place (.up :: xs) = t.walk place.dropLast xs := by
  simp only [walk, found]

lemma walk_down (found : t.node? place = some .directory) (s : String) (xs : List Step) :
    t.walk place (.down s :: xs) =
      if t.limits.excludesName s then .error .other
      else if (t.node? (place ++ [s])).isSome then t.walk (place ++ [s]) xs
      else .error .notFound := by
  simp only [walk, found]

lemma walk_append (t : FileTree) (place : List String) (xs ys : List Step) :
    t.walk place (xs ++ ys) = (t.walk place xs).bind fun q => t.walk q ys := by
  induction xs generalizing place with
  | nil => rfl
  | cons step xs ih =>
    rw [List.cons_append]
    cases found : t.node? place with
    | none => simp only [walk, found, Except.bind]
    | some node =>
      cases node with
      | file content => rw [walk_of_file found, walk_of_file found, Except.bind]
      | directory =>
        cases step with
        | stay => rw [walk_stay found, walk_stay found, ih]
        | up => rw [walk_up found, walk_up found, ih]
        | down s =>
          rw [walk_down found, walk_down found]
          split_ifs
          · rfl
          · exact ih _
          · rfl

lemma walk_filter (xs : List Step)
    (directories : ∀ q, q <+: place → q ≠ place → t.node? q = some .directory)
    (here : (t.node? place).isSome = true) :
    t.walk place xs = t.walk place (xs.filter (· != .stay)) ∨
      ∃ q content, t.walk place (xs.filter (· != .stay)) = .ok q ∧
        t.node? q = some (.file content) ∧ t.walk place xs = .error .other := by
  induction xs generalizing place with
  | nil => exact .inl rfl
  | cons step xs ih =>
    obtain ⟨node, found⟩ := Option.isSome_iff_exists.1 here
    cases node with
    | file content =>
      cases rest : (step :: xs).filter (· != .stay) with
      | nil => exact .inr ⟨place, content, rfl, found, walk_of_file found step xs⟩
      | cons step' xs' =>
        exact .inl ((walk_of_file found step xs).trans (walk_of_file found step' xs').symm)
    | directory =>
      cases step with
      | stay =>
        rw [walk_stay found, List.filter_cons_of_neg (by simp)]
        exact ih directories here
      | up =>
        rw [List.filter_cons_of_pos (by rfl), walk_up found, walk_up found]
        have above : t.node? place.dropLast = some .directory := by
          by_cases root : place.dropLast = place
          · rw [root]
            exact found
          · exact directories _ (List.dropLast_prefix place) root
        refine ih (fun q below other => ?_) (by rw [above]; rfl)
        refine directories q (below.trans (List.dropLast_prefix place)) ?_
        rintro rfl
        exact other (below.eq_of_length_le (by simp))
      | down s =>
        rw [List.filter_cons_of_pos (by rfl), walk_down found, walk_down found]
        split_ifs with long held
        · exact .inl rfl
        · refine ih (fun q below other => ?_) held
          rcases List.prefix_concat_iff.1 below with same | below
          · exact absurd same other
          · by_cases same : q = place
            · exact same ▸ found
            · exact directories q below same
        · exact .inl rfl

lemma walk_steps (t : FileTree) (p : Path) :
    t.walk [] (steps p) = t.walk [] (moves p.components) ∨
      ∃ q content, t.walk [] (moves p.components) = .ok q ∧ t.node? q = some (.file content) ∧
        t.walk [] (steps p) = .error .other := by
  rw [← filter_steps]
  exact walk_filter _ (fun q below other => absurd (List.prefix_nil.1 below) other) rfl

/-- Components lead from the root to a directory. -/
def Reaches (t : FileTree) (cs : List Component) (place : List String) : Prop :=
  t.walk [] (moves cs) = .ok place ∧ t.node? place = some .directory

/-- Components lead from the root to nothing. -/
def Lacks (t : FileTree) (cs : List Component) : Prop := t.walk [] (moves cs) = .error .notFound

lemma reaches_iff : t.Reaches p.components place ↔
    t.walk [] (steps p) = .ok place ∧ t.node? place = some .directory := by
  rcases t.walk_steps p with same | ⟨q, content, ran, found, ran'⟩
  · rw [same, Reaches]
  · rw [Reaches, ran, ran']
    constructor
    · rintro ⟨same, directory⟩
      rw [← Except.ok.inj same, found] at directory
      cases directory
    · rintro ⟨same, -⟩
      cases same

lemma lacks_iff : t.Lacks p.components ↔ t.walk [] (steps p) = .error .notFound := by
  rcases t.walk_steps p with same | ⟨q, content, ran, found, ran'⟩
  · rw [same, Lacks]
  · rw [Lacks, ran, ran']
    simp

lemma directory_of_walk {start : List String} {xs : List Step} (ran : t.walk start xs = .ok place)
    (directory : t.node? place = some .directory) : t.node? start = some .directory := by
  cases xs with
  | nil => exact Except.ok.inj ran ▸ directory
  | cons step xs =>
    unfold walk at ran
    split at ran
    · cases ran
    · cases ran
    · assumption

lemma walk_mono {start : List String} {xs : List Step} (ran : t.walk start xs = .ok place)
    (directory : t.node? place = some .directory) (limits : t'.limits = t.limits)
    (stay : ∀ q, t.node? q = some .directory → t'.node? q = some .directory) :
    t'.walk start xs = .ok place := by
  induction xs generalizing start with
  | nil => exact ran
  | cons step xs ih =>
    have first := directory_of_walk ran directory
    have first' := stay start first
    cases step with
    | stay =>
      rw [walk_stay first] at ran
      rw [walk_stay first']
      exact ih ran
    | up =>
      rw [walk_up first] at ran
      rw [walk_up first']
      exact ih ran
    | down s =>
      rw [walk_down first] at ran
      split_ifs at ran with long held
      have held' := stay _ (directory_of_walk ran directory)
      rw [walk_down first', limits, if_neg long, held', Option.isSome_some, if_pos rfl]
      exact ih ran

lemma Reaches.mono {cs : List Component} (reaches : t.Reaches cs place)
    (limits : t'.limits = t.limits)
    (stay : ∀ q, t.node? q = some .directory → t'.node? q = some .directory) :
    t'.Reaches cs place :=
  ⟨walk_mono reaches.1 reaches.2 limits stay, stay place reaches.2⟩

/-- Whether what is below a place stands in directories. -/
def IsClosedBelow (t : FileTree) (place : List String) : Prop :=
  ∀ names s, (t.node? (place ++ names ++ [s])).isSome = true →
    t.node? (place ++ names) = some .directory

lemma IsClosedBelow.descend (closed : t.IsClosedBelow place) (names : List String) :
    t.IsClosedBelow (place ++ names) := by
  intro more s held
  have stands := closed (names ++ more) s
  simp only [List.append_assoc] at stands held ⊢
  exact stands held

lemma IsClosedBelow.directory (closed : t.IsClosedBelow place) {more : List String}
    (proper : more ≠ []) (held : (t.node? (place ++ (names ++ more))).isSome = true) :
    t.node? (place ++ names) = some .directory := by
  induction more using List.reverseRecOn with
  | nil => exact absurd rfl proper
  | append_singleton more s ih =>
    have above : t.node? (place ++ (names ++ more)) = some .directory :=
      closed (names ++ more) s (by simpa only [List.append_assoc] using held)
    by_cases last : more = []
    · simpa [last] using above
    · exact ih last (by rw [above]; rfl)

/-- Whether no file stands on the way along names, their end apart. -/
def IsClear (t : FileTree) (place names : List String) : Prop :=
  ∀ ns more content, names = ns ++ more → more ≠ [] → t.node? (place ++ ns) ≠ some (.file content)

lemma IsClosedBelow.isClear_of_held (closed : t.IsClosedBelow place)
    (held : (t.node? (place ++ names)).isSome = true) : t.IsClear place names := by
  rintro ns more content rfl proper found
  rw [closed.directory proper held] at found
  cases found

lemma IsClosedBelow.isClear (closed : t.IsClosedBelow place)
    (directory : t.node? (place ++ names) = some .directory) : t.IsClear place names :=
  closed.isClear_of_held (by rw [directory]; rfl)

lemma IsClosedBelow.isClear_concat (closed : t.IsClosedBelow place)
    (directory : t.node? (place ++ names) = some .directory) (s : String) :
    t.IsClear place (names ++ [s]) := by
  intro ns more content same proper found
  rcases List.eq_nil_or_concat more with rfl | ⟨more, u, rfl⟩
  · exact proper rfl
  rw [List.concat_eq_append, ← List.append_assoc] at same
  obtain ⟨rfl, -⟩ := List.append_inj' same rfl
  by_cases last : more = []
  · rw [last, List.append_nil, found] at directory
    cases directory
  · exact closed.isClear directory ns more content rfl last found

lemma walk_names (unlimited : t.limits = .none) (directory : t.node? place = some .directory)
    (closed : t.IsClosedBelow place) (clear : t.IsClear place names) :
    t.walk place (names.map .down) =
      if (t.node? (place ++ names)).isSome then .ok (place ++ names) else .error .notFound := by
  induction names generalizing place with
  | nil => simp [walk, directory]
  | cons s names ih =>
    have short : t.limits.excludesName s = false := by rw [unlimited]; rfl
    rw [List.map_cons, walk_down directory, short, if_neg Bool.false_ne_true]
    by_cases held : (t.node? (place ++ [s])).isSome = true
    · rw [if_pos held]
      cases names with
      | nil => simp [walk, held]
      | cons u names =>
        obtain ⟨node, found⟩ := Option.isSome_iff_exists.1 held
        have directory' : t.node? (place ++ [s]) = some .directory := by
          cases node with
          | directory => exact found
          | file content =>
            exact absurd found (clear [s] (u :: names) content rfl (List.cons_ne_nil u names))
        rw [ih directory' (closed.descend [s]) fun ns more content same proper => ?_]
        · simp
        · have := clear (s :: ns) more content (by simp [same]) proper
          simpa using this
    · have missing : ¬(t.node? (place ++ s :: names)).isSome = true := by
        intro below
        cases names with
        | nil => exact held below
        | cons u names =>
          have : t.node? (place ++ [s]) = some .directory :=
            closed.directory (List.cons_ne_nil u names) below
          exact held (by rw [this]; rfl)
      rw [if_neg held, if_neg missing]

lemma Reaches.descend {cs : List Component} (reaches : t.Reaches cs place)
    (unlimited : t.limits = .none) (closed : t.IsClosedBelow place)
    (directory : t.node? (place ++ names) = some .directory) :
    t.Reaches (cs ++ names.map .name) (place ++ names) := by
  have clear := closed.isClear directory
  refine ⟨?_, directory⟩
  rw [moves_append, walk_append, reaches.1, moves_names]
  change t.walk place (names.map .down) = _
  rw [walk_names unlimited reaches.2 closed clear, directory]
  rfl

lemma Reaches.lacks {cs : List Component} (reaches : t.Reaches cs place)
    (unlimited : t.limits = .none) (closed : t.IsClosedBelow place) (clear : t.IsClear place names)
    (missing : t.node? (place ++ names) = none) : t.Lacks (cs ++ names.map .name) := by
  rw [Lacks, moves_append, walk_append, reaches.1, moves_names]
  change t.walk place (names.map .down) = _
  rw [walk_names unlimited reaches.2 closed clear, missing]
  rfl

lemma Lacks.append {cs : List Component} (lacks : t.Lacks cs) (ds : List Component) :
    t.Lacks (cs ++ ds) := by
  rw [Lacks, moves_append, walk_append, lacks]
  rfl

lemma checkPath_of_clean (unlimited : t.limits = .none) (clean : p.IsClean) :
    t.checkPath p = .ok () := by
  have short : t.limits.excludesPath p = false := by rw [unlimited]; rfl
  rw [checkPath, short, if_neg (by simpa [Path.IsClean] using clean), if_neg Bool.false_ne_true]

lemma find_of_clean (unlimited : t.limits = .none) (clean : p.IsClean) :
    t.find p = t.walk [] (steps p) := by
  rw [find, checkPath_of_clean unlimited clean]
  rfl

lemma isDirectory_iff (unlimited : t.limits = .none) (clean : p.IsClean) :
    t.isDirectory p = true ↔ ∃ place, t.Reaches p.components place := by
  simp only [reaches_iff]
  rw [isDirectory, look, find_of_clean unlimited clean]
  cases ran : t.walk [] (steps p) with
  | error e => 
    simp [bind, Except.bind]
  | ok place =>
    simp only [bind, Except.bind]
    cases found : t.node? place with
    | none => simp [throw, found]
    | some node => cases node <;> simp [found, Pure.pure, Except.pure]

lemma Lacks.find_descend (lacks : t.Lacks p.components) (unlimited : t.limits = .none)
    (unslashed : p.IsUnslashed) (clean : p.IsClean) (isFileName : ∀ s ∈ names, IsFileName s) :
    t.find (p.descend names) = .error .notFound := by
  rw [find_of_clean unlimited (clean.descend unslashed isFileName),
    steps_descend unslashed fun s mem => (isFileName s mem).1, walk_append, lacks_iff.1 lacks]
  rfl

lemma exists_steps {cs : List Component} (components : p.components = cs ++ [.name s]) :
    ∃ xs stays, steps p = xs ++ .down s :: stays ∧ xs.filter (· != .stay) = moves cs ∧
      ∀ x ∈ stays, x = .stay := by
  have filtered := filter_steps p
  rw [components, moves_append] at filtered
  obtain ⟨xs, ys, split, before, after⟩ := List.filter_eq_append_iff.1 filtered
  obtain ⟨idle, stays, rfl, allIdle, -, none⟩ := List.filter_eq_cons_iff.1 after
  refine ⟨xs ++ idle, stays, by simp [split], ?_, fun x mem => ?_⟩
  · rw [List.filter_append, before, List.filter_eq_nil_iff.2 allIdle, List.append_nil]
  · simpa using List.filter_eq_nil_iff.1 none x mem

lemma makeDirectory_eq {cs : List Component} (unlimited : t.limits = .none) (clean : p.IsClean)
    (components : p.components = cs ++ [.name s]) :
    t.makeDirectory p = (t.walk [] (moves cs)).bind fun parent =>
      match t.node? parent with
      | some .directory =>
        if (t.node? (parent ++ [s])).isSome then .error .alreadyExists
        else .ok (t.set (parent ++ [s]) .directory)
      | some (.file _) => .error .other
      | none => .error .notFound := by
  obtain ⟨xs, stays, split, before, allStay⟩ := exists_steps components
  have wanted : (steps p).reverse.dropWhile (· == .stay) = .down s :: xs.reverse := by
    have dropped : ∀ x ∈ stays.reverse, (x == Step.stay) = true := fun x mem => by
      simp [allStay x (List.mem_reverse.1 mem)]
    rw [split, List.reverse_append, List.reverse_cons, List.append_assoc,
      List.dropWhile_append_of_pos dropped]
    rfl
  have short : t.limits.excludesName s = false := by rw [unlimited]; rfl
  have made : t.makeDirectory p = (t.walk [] xs).bind fun parent =>
      match t.node? parent with
      | some .directory =>
        if (t.node? (parent ++ [s])).isSome then .error .alreadyExists
        else .ok (t.set (parent ++ [s]) .directory)
      | some (.file _) => .error .other
      | none => .error .notFound := by
    unfold makeDirectory
    simp only [checkPath_of_clean unlimited clean, wanted, short, List.reverse_reverse]
    rfl
  rw [made, ← before]
  rcases walk_filter (t := t) xs (fun q below other => absurd (List.prefix_nil.1 below) other) rfl
    with same | ⟨q, content, ran, found, stuck⟩
  · rw [same]
  · rw [ran, stuck]
    simp [Except.bind, found]

lemma makeDirectory_of_reaches {cs : List Component} (unlimited : t.limits = .none)
    (clean : p.IsClean) (components : p.components = cs ++ [.name s])
    (reaches : t.Reaches cs place) :
    t.makeDirectory p = if (t.node? (place ++ [s])).isSome then .error .alreadyExists
      else .ok (t.set (place ++ [s]) .directory) := by
  rw [makeDirectory_eq unlimited clean components, reaches.1]
  simp only [Except.bind, reaches.2]

lemma makeDirectory_of_lacks {cs : List Component} (unlimited : t.limits = .none)
    (clean : p.IsClean) (components : p.components = cs ++ [.name s]) (lacks : t.Lacks cs) :
    t.makeDirectory p = .error .notFound := by
  rw [makeDirectory_eq unlimited clean components, lacks]
  rfl

/-- The second tree has directories on the way along names, and apart from them what the first one
has. -/
structure Grows (t t' : FileTree) (place names : List String) : Prop where
  limits : t'.limits = t.limits
  directory : ∀ ns, ns <+: names → t'.node? (place ++ ns) = some .directory
  other : ∀ q, (∀ ns, ns <+: names → q ≠ place ++ ns) → t'.node? q = t.node? q

namespace Grows

lemma refl (directory : ∀ ns, ns <+: names → t.node? (place ++ ns) = some .directory) :
    t.Grows t place names := ⟨rfl, directory, fun _ _ => rfl⟩

lemma stays (grows : t.Grows t' place names) {q : List String}
    (directory : t.node? q = some .directory) : t'.node? q = some .directory := by
  by_cases within : ∃ ns, ns <+: names ∧ q = place ++ ns
  · obtain ⟨ns, below, rfl⟩ := within
    exact grows.directory ns below
  · rw [grows.other q fun ns below same => within ⟨ns, below, same⟩, directory]

lemma apart (grows : t.Grows t' place names) {ns : List String} (beside : ¬ns <+: names) :
    t'.node? (place ++ ns) = t.node? (place ++ ns) :=
  grows.other _ fun ns' below same => beside (by rwa [List.append_cancel_left same])

lemma beyond (grows : t.Grows t' place names) (s : String) :
    t'.node? (place ++ (names ++ [s])) = t.node? (place ++ (names ++ [s])) := by
  refine grows.apart fun below => ?_
  have longer := below.length_le
  rw [List.length_append, List.length_singleton] at longer
  omega

lemma isClosedBelow (grows : t.Grows t' place names) (closed : t.IsClosedBelow place) :
    t'.IsClosedBelow place := by
  intro ns s held
  by_cases within : ∃ ns', ns' <+: names ∧ place ++ ns ++ [s] = place ++ ns'
  · obtain ⟨ns', below, same⟩ := within
    rw [List.append_assoc] at same
    rw [← List.append_cancel_left same] at below
    exact grows.directory ns ((List.prefix_append ns [s]).trans below)
  · rw [grows.other _ fun ns' below same => within ⟨ns', below, same⟩] at held
    exact grows.stays (closed ns s held)

lemma reaches (grows : t.Grows t' place names) {cs : List Component}
    (reaches : t.Reaches cs place) :
    t'.Reaches cs place := reaches.mono grows.limits fun _ => grows.stays

lemma concat (grows : t.Grows t' place names)
    (directory : t'.node? (place ++ (names ++ [s])) = some .directory) :
    t.Grows t' place (names ++ [s]) := by
  refine ⟨grows.limits, fun ns below => ?_, fun q apart => grows.other q fun ns below => ?_⟩
  · rcases List.prefix_concat_iff.1 below with rfl | below
    · exact directory
    · exact grows.directory ns below
  · exact apart ns (below.trans (List.prefix_append names [s]))

lemma set (grows : t.Grows t' place names) :
    t.Grows (t'.set (place ++ (names ++ [s])) .directory) place (names ++ [s]) := by
  have nonempty : place ++ (names ++ [s]) ≠ [] := by simp
  refine ⟨grows.limits, fun ns below => ?_, fun q apart => ?_⟩
  · rw [node?_set nonempty]
    split_ifs with last
    · rfl
    · rcases List.prefix_concat_iff.1 below with rfl | below
      · exact absurd rfl last
      · exact grows.directory ns below
  · rw [node?_set nonempty, if_neg (apart _ List.prefix_rfl)]
    exact grows.other q fun ns below => apart ns (below.trans (List.prefix_append names [s]))

end Grows

lemma Grows.attempt {cs : List Component} (grows : t.Grows t' place names)
    (unlimited : t.limits = .none) (clean : p.IsClean)
    (components : p.components = cs ++ (names ++ [s]).map .name) (reaches : t.Reaches cs place)
    (closed : t.IsClosedBelow place)
    (clear : ∀ content, t.node? (place ++ (names ++ [s])) ≠ some (.file content)) :
    (∃ t'', t'.makeDirectory p = .ok t'' ∧ t.Grows t'' place (names ++ [s])) ∨
      t'.makeDirectory p = .error .alreadyExists ∧ t'.isDirectory p = true ∧
        t.Grows t' place (names ++ [s]) := by
  have unlimited' : t'.limits = .none := grows.limits.trans unlimited
  have closed' := grows.isClosedBelow closed
  have reaches' : t'.Reaches (cs ++ names.map .name) (place ++ names) :=
    (grows.reaches reaches).descend unlimited' closed' (grows.directory names List.prefix_rfl)
  have made := makeDirectory_of_reaches (p := p) (s := s) unlimited' clean
    (by rw [components]; simp) reaches'
  rw [List.append_assoc] at made
  by_cases held : (t'.node? (place ++ (names ++ [s]))).isSome = true
  · have directory : t'.node? (place ++ (names ++ [s])) = some .directory := by
      obtain ⟨node, found⟩ := Option.isSome_iff_exists.1 held
      cases node with
      | directory => exact found
      | file content => exact absurd (grows.beyond s ▸ found) (clear content)
    refine .inr ⟨by rw [made, if_pos held], ?_, grows.concat directory⟩
    rw [isDirectory_iff unlimited' clean, components]
    exact ⟨_, (grows.reaches reaches).descend unlimited' closed' directory⟩
  · exact .inl ⟨_, by rw [made, if_neg held], grows.set⟩

lemma lacks_or_grows {cs : List Component} (unlimited : t.limits = .none)
    (reaches : t.Reaches cs place) (closed : t.IsClosedBelow place)
    (clear : ∀ ns content, ns <+: names → t.node? (place ++ ns) ≠ some (.file content)) :
    t.Lacks (cs ++ names.map .name) ∨ t.Grows t place names := by
  cases found : t.node? (place ++ names) with
  | none =>
    refine .inl (reaches.lacks unlimited closed ?_ found)
    rintro ns more content rfl -
    exact clear ns content (List.prefix_append ns more)
  | some node =>
    refine .inr (.refl fun ns below => ?_)
    obtain ⟨more, rfl⟩ := below
    by_cases last : more = []
    · cases node with
      | directory => simpa [last] using found
      | file content => exact absurd found (clear _ content List.prefix_rfl)
    · exact closed.directory last (by rw [found]; rfl)

theorem makeDirectories_go {t₀ : FileTree} {cs : List Component} {names rest : List String}
    (unlimited : t.limits = .none) (unlimited₀ : t₀.limits = .none) (clean : p.IsClean)
    (components : p.components = cs ++ (names ++ rest).map .name)
    (made : makeDirectories.go t p.components cs.length = (t₀, .ok ()))
    (reaches : t₀.Reaches cs place) (closed : t₀.IsClosedBelow place)
    (clear : ∀ ns content, ns <+: names → t₀.node? (place ++ ns) ≠ some (.file content))
    (before : t = t₀ ∨ t.Lacks cs) :
    ∃ t', makeDirectories.go t p.components (cs.length + names.length) = (t', .ok ()) ∧
      t₀.Grows t' place names := by
  induction names using List.reverseRecOn generalizing rest with
  | nil =>
    refine ⟨t₀, made, .refl fun ns below => ?_⟩
    rw [List.prefix_nil.1 below, List.append_nil]
    exact reaches.2
  | append_singleton names s ih =>
    have clear' : ∀ ns content, ns <+: names → t₀.node? (place ++ ns) ≠ some (.file content) :=
      fun ns content below => clear ns content (below.trans (List.prefix_append names [s]))
    have fresh (content : Octets) : t₀.node? (place ++ (names ++ [s])) ≠ some (.file content) :=
      clear _ content List.prefix_rfl
    have components' : p.components = cs ++ (names ++ s :: rest).map .name := by
      simpa using components
    obtain ⟨t', ran, grows⟩ := ih components' clear'
    rw [List.length_append, List.length_singleton, ← Nat.add_assoc, makeDirectories.go]
    have taken : (ancestor p.components (cs.length + names.length + 1)).components =
        cs ++ (names ++ [s]).map .name := by
      rw [Path.components_ancestor, components, List.map_append, ← List.append_assoc]
      exact List.take_left' (by simp [Nat.add_assoc])
    have clean' := clean.ancestor (cs.length + names.length + 1)
    generalize ancestor p.components (cs.length + names.length + 1) = q at taken clean' ⊢
    have missing (lacks : t.Lacks (cs ++ names.map .name)) : t.makeDirectory q = .error .notFound :=
      makeDirectory_of_lacks (s := s) unlimited clean' (by rw [taken]; simp) lacks
    have step : t.makeDirectory q = .error .notFound ∨ t = t₀ ∧ t₀.Grows t₀ place names := by
      rcases before with rfl | lacks
      · exact (lacks_or_grows unlimited reaches closed clear').imp missing fun grows => ⟨rfl, grows⟩
      · exact .inl (missing (lacks.append _))
    rcases step with missing | ⟨rfl, stands⟩
    · simp only [missing, ran]
      rcases grows.attempt unlimited₀ clean' taken reaches closed fresh with
        ⟨t'', attempt, grows'⟩ | ⟨attempt, there, grows'⟩
      · exact ⟨t'', by simp only [attempt], grows'⟩
      · exact ⟨t', by simp only [attempt, there, if_true], grows'⟩
    · rcases stands.attempt unlimited₀ clean' taken reaches closed fresh with
        ⟨t'', attempt, grows'⟩ | ⟨attempt, there, grows'⟩
      · exact ⟨t'', by simp only [attempt], grows'⟩
      · exact ⟨t, by simp only [attempt, there, if_true], grows'⟩

lemma makeDirectories_of_reaches {cs : List Component} (unlimited : t.limits = .none)
    (clean : p.IsClean) (components : p.components = cs ++ [.name s])
    (reaches : t.Reaches p.components place) : t.makeDirectories p = (t, .ok ()) := by
  have length : p.components.length = cs.length + 1 := by simp [components]
  have same : (ancestor p.components (cs.length + 1)).components = p.components := by
    rw [Path.components_ancestor, ← length, List.take_length]
  have there : t.isDirectory (ancestor p.components (cs.length + 1)) = true := by
    rw [isDirectory_iff unlimited (clean.ancestor _), same]
    exact ⟨place, reaches⟩
  have exist : t.makeDirectory (ancestor p.components (cs.length + 1)) = .error .alreadyExists := by
    obtain ⟨ran, directory⟩ := reaches
    rw [components, moves_append, walk_append] at ran
    cases first : t.walk [] (moves cs) with
    | error e =>
      rw [first] at ran
      cases ran
    | ok parent =>
      rw [first] at ran
      change t.walk parent [.down s] = .ok place at ran
      have stands : t.node? parent = some .directory := directory_of_walk ran directory
      rw [walk_down stands] at ran
      split_ifs at ran with long held
      rw [makeDirectory_of_reaches unlimited (clean.ancestor _) (same.trans components)
        ⟨first, stands⟩, if_pos held]
  rw [makeDirectories, length, makeDirectories.go]
  simp only [exist, there, if_true]

lemma go_congr (t : FileTree) {cs ds : List Component} {n : ℕ} (same : cs.take n = ds.take n) :
    makeDirectories.go t cs n = makeDirectories.go t ds n := by
  induction n with
  | zero => rfl
  | succ n ih =>
    have ancestors : ancestor cs (n + 1) = ancestor ds (n + 1) := by rw [ancestor, same]; rfl
    have before : cs.take n = ds.take n := by
      have := congrArg (List.take n) same
      simpa [List.take_take] using this
    rw [makeDirectories.go, makeDirectories.go, ancestors, ih before]

/-- A path leads to a place, below which keys can be kept. -/
structure IsRooted (t : FileTree) (root : Path) (place : List String) : Prop where
  unlimited : t.limits = .none
  unslashed : root.IsUnslashed
  clean : root.IsClean
  reaches : t.Reaches root.components place
  closed : t.IsClosedBelow place

namespace IsRooted

variable {root : Path} {file : String} {content : Octets}

lemma walk_descend (rooted : t.IsRooted root place) (isFileName : ∀ s ∈ names, IsFileName s) :
    t.walk [] (steps (root.descend names)) = t.walk place (names.map .down) := by
  rw [steps_descend rooted.unslashed fun s mem => (isFileName s mem).1, walk_append,
    (reaches_iff.1 rooted.reaches).1]
  rfl

lemma find_descend (rooted : t.IsRooted root place) (isFileName : ∀ s ∈ names, IsFileName s)
    (clear : t.IsClear place names) :
    t.find (root.descend names) =
      if (t.node? (place ++ names)).isSome then .ok (place ++ names) else .error .notFound := by
  rw [find_of_clean rooted.unlimited (rooted.clean.descend rooted.unslashed isFileName),
    rooted.walk_descend isFileName,
    walk_names rooted.unlimited rooted.reaches.2 rooted.closed clear]

lemma look_descend (rooted : t.IsRooted root place) (isFileName : ∀ s ∈ names, IsFileName s)
    (clear : t.IsClear place names) :
    t.look (root.descend names) =
      match t.node? (place ++ names) with
      | some node => .ok node
      | none => .error .notFound := by
  rw [look, rooted.find_descend isFileName clear]
  cases found : t.node? (place ++ names) with
  | none => rfl
  | some node => 
    simp only [Option.isSome_some, if_true, bind, Except.bind, found]
    rfl

lemma findEntry_descend (rooted : t.IsRooted root place)
    (isFileName : ∀ s ∈ names ++ [file], IsFileName s)
    (directory : t.node? (place ++ names) = some .directory) :
    t.findEntry (root.descend (names ++ [file])) = .ok (place ++ (names ++ [file])) := by
  have isFileName' : ∀ s ∈ names, IsFileName s := fun s mem =>
    isFileName s (List.mem_append_left [file] mem)
  have split : steps (root.descend (names ++ [file])) =
      steps (root.descend names) ++ [.down file] := by
    rw [Path.descend_concat, steps_step
      (rooted.unslashed.descend fun s mem => (isFileName' s mem).1) (isFileName file (by simp)).1]
  have clear := rooted.closed.isClear directory
  have parent : t.walk [] (steps (root.descend names)) = .ok (place ++ names) := by
    rw [rooted.walk_descend isFileName',
      walk_names rooted.unlimited rooted.reaches.2 rooted.closed clear, directory]
    rfl
  have short : t.limits.excludesName file = false := by rw [rooted.unlimited]; rfl
  unfold findEntry
  rw [checkPath_of_clean rooted.unlimited (rooted.clean.descend rooted.unslashed isFileName), split,
    List.dropLast_concat, parent, List.getLast?_concat]
  simp only [bind, Except.bind, directory, short, List.append_assoc]
  rfl

lemma grows (rooted : t.IsRooted root place) (grows : t.Grows t' place names) :
    t'.IsRooted root place :=
  ⟨grows.limits.trans rooted.unlimited, rooted.unslashed, rooted.clean,
    grows.reaches rooted.reaches, grows.isClosedBelow rooted.closed⟩

section

variable (rooted : t.IsRooted root place) (directory : t.node? (place ++ names) = some .directory)

include rooted directory

lemma setFile (content : Octets)
    (other : t.node? (place ++ (names ++ [file])) ≠ some .directory) :
    (t.set (place ++ (names ++ [file])) (.file content)).IsRooted root place := by
  have nonempty : place ++ (names ++ [file]) ≠ [] := by simp
  have stays {q : List String} (found : t.node? q = some .directory) :
      (t.set (place ++ (names ++ [file])) (.file content)).node? q = some .directory := by
    rw [node?_set nonempty, if_neg ?_, found]
    rintro rfl
    exact other found
  refine ⟨rooted.unlimited, rooted.unslashed, rooted.clean, rooted.reaches.mono rfl fun _ => stays,
    fun ns s held => stays ?_⟩
  rw [node?_set nonempty] at held
  split_ifs at held with same
  · rw [List.append_assoc, List.append_cancel_left_eq] at same
    obtain ⟨rfl, -⟩ := List.append_inj' same rfl
    exact directory
  · exact rooted.closed ns s held

variable (isFileName : ∀ s ∈ names ++ [file], IsFileName s)

include isFileName

lemma find_concat : t.find (root.descend (names ++ [file])) =
    if (t.node? (place ++ (names ++ [file]))).isSome then .ok (place ++ (names ++ [file]))
    else .error .notFound :=
  rooted.find_descend isFileName (rooted.closed.isClear_concat directory file)

lemma createFile_concat (other : t.node? (place ++ (names ++ [file])) ≠ some .directory) :
    t.createFile (root.descend (names ++ [file])) =
      .ok (t.set (place ++ (names ++ [file])) (.file [])) := by
  rw [createFile, rooted.findEntry_descend isFileName directory]
  simp only [bind, Except.bind]
  rfl

lemma write_concat (content : Octets) {old : Octets}
    (found : t.node? (place ++ (names ++ [file])) = some (.file old)) :
    t.write (root.descend (names ++ [file])) content =
      .ok (t.set (place ++ (names ++ [file])) (.file content)) := by
  rw [write, rooted.find_concat directory isFileName, found, Option.isSome_some, if_pos rfl]
  simp only [bind, Except.bind, found]
  rfl

lemma rename_concat {goal : String} (isFileName' : ∀ s ∈ names ++ [goal], IsFileName s)
    (found : t.node? (place ++ (names ++ [file])) = some (.file content))
    (other : t.node? (place ++ (names ++ [goal])) ≠ some .directory) :
    t.rename (root.descend (names ++ [file])) (root.descend (names ++ [goal])) =
      .ok ((t.unset (place ++ (names ++ [file]))).set (place ++ (names ++ [goal]))
        (.file content)) := by
  have finds := rooted.find_concat directory isFileName
  rw [found, Option.isSome_some, if_pos rfl] at finds
  rw [rename, look, finds, rooted.findEntry_descend isFileName' directory]
  simp only [bind, Except.bind, pure, Except.pure, found]

lemma stage {goal : String} (isFileName' : ∀ s ∈ names ++ [goal], IsFileName s)
    (free : t.node? (place ++ (names ++ [file])) ≠ some .directory)
    (other : t.node? (place ++ (names ++ [goal])) ≠ some .directory) (distinct : goal ≠ file)
    (content : Octets) :
    ∃ t₁ t₂ t₃, t.createFile (root.descend (names ++ [file])) = .ok t₁ ∧
      t₁.write (root.descend (names ++ [file])) content = .ok t₂ ∧
      t₂.rename (root.descend (names ++ [file])) (root.descend (names ++ [goal])) = .ok t₃ ∧
      t₃.limits = t.limits ∧
      ∀ q, t₃.node? q = if q = place ++ (names ++ [goal]) then some (.file content)
        else if q = place ++ (names ++ [file]) then none else t.node? q := by
  have nonempty : place ++ (names ++ [file]) ≠ [] := by simp
  have apart : place ++ names ≠ place ++ (names ++ [file]) := fun same => by
    simpa using List.append_cancel_left same
  have distinct : place ++ (names ++ [goal]) ≠ place ++ (names ++ [file]) := by simpa using distinct
  have nodes₁ := node?_set (t := t) nonempty (.file [])
  have rooted₁ := rooted.setFile directory [] free
  have created := rooted.createFile_concat directory isFileName free
  generalize t.set (place ++ (names ++ [file])) (.file []) = t₁ at nodes₁ rooted₁ created
  have directory₁ : t₁.node? (place ++ names) = some .directory := by
    rw [nodes₁, if_neg apart, directory]
  have found₁ : t₁.node? (place ++ (names ++ [file])) = some (.file []) := by
    rw [nodes₁, if_pos rfl]
  have nodes₂ := node?_set (t := t₁) nonempty (.file content)
  have rooted₂ := rooted₁.setFile directory₁ content (by rw [found₁]; nofun)
  have written := rooted₁.write_concat directory₁ isFileName content found₁
  generalize t₁.set (place ++ (names ++ [file])) (.file content) = t₂ at nodes₂ rooted₂ written
  have directory₂ : t₂.node? (place ++ names) = some .directory := by
    rw [nodes₂, if_neg apart, directory₁]
  have found₂ : t₂.node? (place ++ (names ++ [file])) = some (.file content) := by
    rw [nodes₂, if_pos rfl]
  have other₂ : t₂.node? (place ++ (names ++ [goal])) ≠ some .directory := by
    rw [nodes₂, if_neg distinct, nodes₁, if_neg distinct]
    exact other
  refine ⟨t₁, t₂, _, created, written,
    rooted₂.rename_concat directory₂ isFileName isFileName' found₂ other₂,
    rooted₂.unlimited.trans rooted.unlimited.symm, fun q => ?_⟩
  rw [node?_set (by simp), node?_unset nonempty]
  split_ifs with key staging
  · rfl
  · rfl
  · rw [nodes₂, if_neg staging, nodes₁, if_neg staging]

end

end IsRooted

end ImageRegistry.FileTree
