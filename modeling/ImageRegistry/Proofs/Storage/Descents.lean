import Mathlib.Data.List.Basic
import ImageRegistry.Proofs.Storage.PlainPaths
import ImageRegistry.Storage.FileTree

/-! Paths that are led on along names: their texts and components, what is written after where they
start, and how their last name is given an extension. -/

namespace ImageRegistry.Path

/-- Whether something ends so that a slash has to be written before what follows. -/
def IsUnslashed (p : Path) : Prop := ∃ c, p.text.toList.getLast? = some c ∧ c ≠ '/'

instance (p : Path) : Decidable p.IsUnslashed :=
  decidable_of_iff (p.text.toList.getLast?.any (· ≠ '/') = true) <| by
    rw [IsUnslashed]
    cases p.text.toList.getLast? <;> simp

def along (names : List String) : Path := ⟨String.intercalate "/" names⟩

def descend (p : Path) (names : List String) : Path := names.foldl join p

variable {p : Path} {s : String} {names : List String}

lemma eq_of_text {q : Path} (same : p.text = q.text) : p = q := by
  cases p
  cases q
  exact congrArg mk same

lemma IsUnslashed.join_text (unslashed : p.IsUnslashed) {q : String}
    (relative : q.toList.head? ≠ some '/') : (p / q).text = p.text ++ "/" ++ q := by
  obtain ⟨c, last, other⟩ := unslashed
  have nonempty : p.text.isEmpty = false := by
    rw [Bool.eq_false_iff, Ne, String.isEmpty_iff]
    rintro empty
    simp [empty] at last
  change (p.join q).text = _
  unfold join
  rw [if_neg relative, if_neg (by simp [nonempty, last, other])]

lemma IsName.toList_ne_nil (name : IsName s) : s.toList ≠ [] := fun empty =>
  name.2.1 (String.toList_inj.1 (by simpa using empty))

lemma IsName.exists_getLast? (name : IsName s) : ∃ c, s.toList.getLast? = some c ∧ c ≠ '/' :=
  ⟨_, List.getLast?_eq_some_getLast name.toList_ne_nil, fun slash =>
    name.1 (slash ▸ List.getLast_mem name.toList_ne_nil)⟩

lemma IsUnslashed.step (unslashed : p.IsUnslashed) (name : IsName s) : (p / s).IsUnslashed := by
  obtain ⟨c, last, other⟩ := name.exists_getLast?
  refine ⟨c, ?_, other⟩
  rw [unslashed.join_text name.relative, String.toList_append, List.getLast?_append, last]
  rfl

lemma IsUnslashed.descend (unslashed : p.IsUnslashed) (isName : ∀ s ∈ names, IsName s) :
    (p.descend names).IsUnslashed := by
  induction names generalizing p with
  | nil => exact unslashed
  | cons s names ih =>
    exact ih (unslashed.step (isName s List.mem_cons_self)) fun t mem =>
      isName t (List.mem_cons_of_mem s mem)

@[simp] lemma descend_nil (p : Path) : p.descend [] = p := rfl

@[simp] lemma descend_cons (p : Path) (s : String) (names : List String) :
    p.descend (s :: names) = (p / s).descend names := rfl

lemma descend_append (p : Path) (names more : List String) :
    p.descend (names ++ more) = (p.descend names).descend more := List.foldl_append

lemma descend_concat (p : Path) (names : List String) (s : String) :
    p.descend (names ++ [s]) = p.descend names / s := descend_append p names [s]

lemma IsName.exists_join_text (name : IsName s) (p : Path) :
    ∃ before, (p / s).text = before ++ s := by
  change ∃ before, (p.join s).text = before ++ s
  unfold join
  rw [if_neg name.relative]
  split_ifs
  · exact ⟨_, rfl⟩
  · exact ⟨_, rfl⟩

lemma IsName.isUnslashed_join (name : IsName s) (p : Path) : (p / s).IsUnslashed := by
  obtain ⟨c, last, other⟩ := name.exists_getLast?
  obtain ⟨before, text⟩ := name.exists_join_text p
  exact ⟨c, by rw [text, String.toList_append, List.getLast?_append, last]; rfl, other⟩

lemma IsName.relative_append (name : IsName s) (q : String) :
    (s ++ q).toList.head? ≠ some '/' := by
  have relative := name.relative
  cases cs : s.toList with
  | nil => exact absurd cs name.toList_ne_nil
  | cons c cs' => simpa [cs] using relative

lemma text_along_cons (s t : String) (names : List String) :
    (along (s :: t :: names)).text = s ++ ("/" ++ (along (t :: names)).text) := by
  rw [along, String.intercalate_cons_cons, String.append_assoc]
  rfl

lemma relative_along (isName : ∀ s ∈ names, IsName s) :
    (along names).text.toList.head? ≠ some '/' := by
  cases names with
  | nil => simp [along]
  | cons s names =>
    have name := isName s List.mem_cons_self
    cases names with
    | nil => simpa [along] using name.relative
    | cons t names =>
      rw [text_along_cons]
      exact name.relative_append _

lemma IsUnslashed.join_along (unslashed : p.IsUnslashed) (isName : ∀ s ∈ names, IsName s)
    (nonempty : names ≠ []) : p / (along names).text = p.descend names := by
  induction names generalizing p with
  | nil => exact absurd rfl nonempty
  | cons s names ih =>
    have name := isName s List.mem_cons_self
    cases names with
    | nil => simp [along]
    | cons t names =>
      have later : ∀ u ∈ t :: names, IsName u := fun u mem => isName u (List.mem_cons_of_mem s mem)
      rw [descend_cons, ← ih (unslashed.step name) later (List.cons_ne_nil t names)]
      refine eq_of_text ?_
      rw [unslashed.join_text (relative_along isName),
        (unslashed.step name).join_text (relative_along later), unslashed.join_text name.relative,
        text_along_cons]
      simp only [String.append_assoc]

lemma pieces_along (slashless : ∀ s ∈ names, '/' ∉ s.toList) (nonempty : names ≠ []) :
    pieces '/' (along names).text.toList = names.map String.toList := by
  induction names with
  | nil => exact absurd rfl nonempty
  | cons s names ih =>
    have first : pieces '/' s.toList = [s.toList] :=
      pieces_of_not_mem (slashless s List.mem_cons_self)
    cases names with
    | nil => simpa [along] using first
    | cons t names =>
      have rest := ih (fun u mem => slashless u (List.mem_cons_of_mem s mem))
        (List.cons_ne_nil t names)
      rw [text_along_cons, String.toList_append, String.toList_append]
      change pieces '/' (s.toList ++ '/' :: (along (t :: names)).text.toList) = _
      rw [pieces_append_separator, first, rest]
      rfl

lemma splitText_along (isName : ∀ s ∈ names, IsName s) (nonempty : names ≠ []) :
    splitText '/' (along names).text = names := by
  rw [splitText, pieces_along (fun s mem => (isName s mem).1) nonempty, List.map_map]
  simp [Function.comp_def]

lemma isPlain_along (isName : ∀ s ∈ names, IsName s) (nonempty : names ≠ []) :
    (along names).IsPlain := by
  rw [IsPlain, splitText_along isName nonempty]
  exact isName

lemma components_along (isName : ∀ s ∈ names, IsName s) (nonempty : names ≠ []) :
    (along names).components = names.map .name := by
  rw [(isPlain_along isName nonempty).components, splitText_along isName nonempty]

lemma map_name_inj {more : List String} :
    names.map Component.name = more.map .name ↔ names = more :=
  (List.map_injective_iff.2 fun _ _ => Component.name.inj).eq_iff

lemma IsPlain.eq_along (plain : p.IsPlain) (components : p.components = names.map .name) :
    p = along names := by
  have same : splitText '/' p.text = names :=
    map_name_inj.1 (plain.components.symm.trans components)
  rw [along, ← same, intercalate_splitText]

lemma components_descend (nonempty : p.components ≠ []) (isName : ∀ s ∈ names, IsName s) :
    (p.descend names).components = p.components ++ names.map .name := by
  induction names generalizing p with
  | nil => simp
  | cons s names ih =>
    have step := (isName s List.mem_cons_self).components_join nonempty
    rw [descend_cons, ih (by simp [step]) fun t mem => isName t (List.mem_cons_of_mem s mem), step]
    simp

lemma components_join_ne_nil (nonempty : p.components ≠ []) (q : String) :
    (p / q).components ≠ [] := by
  by_cases absolute : q.toList.head? = some '/'
  · change (p.join q).components ≠ []
    rw [join, if_pos absolute]
    exact List.ne_nil_of_mem (root_mem_components absolute)
  · rw [components_join nonempty absolute]
    exact List.append_ne_nil_of_left_ne_nil nonempty _

lemma components_descend_ne_nil (nonempty : p.components ≠ []) (names : List String) :
    (p.descend names).components ≠ [] := by
  induction names generalizing p with
  | nil => exact nonempty
  | cons s names ih => exact ih (components_join_ne_nil nonempty s)

/-- Whether a component counts between slashes as what it is. -/
def Counts (c : Component) : Prop :=
  '/' ∉ c.text.toList ∧ Component.ofPiece? c.text.toList = some c

lemma text_of_ofPiece? {piece : List Char} {c : Component}
    (counts : Component.ofPiece? piece = some c) : c.text.toList = piece := by
  unfold Component.ofPiece? at counts
  split_ifs at counts with idle dots
  · obtain rfl := Option.some.inj counts
    exact dots.symm
  · obtain rfl := Option.some.inj counts
    exact String.toList_ofList

lemma counts_of_ofPiece? {piece : List Char} {c : Component} (slashless : '/' ∉ piece)
    (counts : Component.ofPiece? piece = some c) : Counts c :=
  have text := text_of_ofPiece? counts
  ⟨text ▸ slashless, text ▸ counts⟩

lemma counts_pieces (p : Path) :
    ∀ c ∈ (pieces '/' p.text.toList).filterMap Component.ofPiece?, Counts c := by
  intro c mem
  obtain ⟨piece, mem, counts⟩ := List.mem_filterMap.1 mem
  exact counts_of_ofPiece? (not_mem_of_mem_pieces mem) counts

lemma components_eq (p : Path) : ∃ first, p.components =
    first ++ (pieces '/' p.text.toList).filterMap Component.ofPiece? ∧
      (first = [] ∨ first = [.root] ∨ first = [.current]) := by
  unfold components componentsOf
  obtain ⟨piece, rest, split⟩ := List.exists_cons_of_ne_nil (pieces_ne_nil '/' p.text.toList)
  rw [split]
  rcases piece with - | ⟨c, cs⟩
  · by_cases empty : p.text.toList = []
    · rw [empty, pieces_nil, List.cons.injEq] at split
      obtain ⟨-, rfl⟩ := split
      exact ⟨[], by simp [empty, Component.ofPiece?], .inl rfl⟩
    · exact ⟨[.root], by simp [empty, Component.ofPiece?], .inr (.inl rfl)⟩
  · by_cases dot : c :: cs = ['.']
    · exact ⟨[.current], by simp [dot, Component.ofPiece?], .inr (.inr rfl)⟩
    · refine ⟨[], ?_, .inl rfl⟩
      simp only [if_neg dot, ← List.filterMap_append, List.singleton_append, List.nil_append]

lemma components_ne_nil (nonempty : p.text ≠ "") : p.components ≠ [] := by
  have nonempty : p.text.toList ≠ [] := fun empty =>
    nonempty (String.toList_inj.1 (by simpa using empty))
  unfold components componentsOf
  split
  · next none => exact absurd none (pieces_ne_nil '/' _)
  · simp [nonempty]
  · next first rest notEmpty split =>
    split_ifs with dot
    · simp
    · have counts : ∃ c, Component.ofPiece? first = some c := by
        unfold Component.ofPiece?
        split_ifs with idle <;> simp_all
      obtain ⟨c, counts⟩ := counts
      simp [counts]

lemma IsUnslashed.components_ne_nil (unslashed : p.IsUnslashed) : p.components ≠ [] := by
  refine Path.components_ne_nil fun empty => ?_
  obtain ⟨c, last, -⟩ := unslashed
  simp [empty] at last

lemma IsName.exists_components_join (name : IsName s) (p : Path) :
    ∃ cs, (p / s).components = cs ++ [.name s] := by
  by_cases empty : p.text = ""
  · have alone : p / s = along [s] := by
      change p.join s = _
      unfold join
      rw [if_neg name.relative, if_pos (.inl (by simp [empty])), empty]
      simp [along]
    exact ⟨[], by rw [alone, components_along (by simpa using name) (by simp)]; rfl⟩
  · exact ⟨_, name.components_join (components_ne_nil empty)⟩

lemma filterMap_counts {cs : List Component} (counts : ∀ c ∈ cs, Counts c) :
    (cs.map fun c => c.text.toList).filterMap Component.ofPiece? = cs := by
  induction cs with
  | nil => rfl
  | cons c cs ih =>
    rw [List.map_cons, List.filterMap_cons_some (counts c List.mem_cons_self).2,
      ih fun d mem => counts d (List.mem_cons_of_mem c mem)]

section

variable {cs : List Component} (counts : ∀ c ∈ cs, Counts c)

include counts

lemma pieces_of_counts (nonempty : cs ≠ []) :
    pieces '/' (along (cs.map Component.text)).text.toList = cs.map fun c => c.text.toList := by
  have slashless : ∀ s ∈ cs.map Component.text, '/' ∉ s.toList := by
    intro s mem
    obtain ⟨c, mem', rfl⟩ := List.mem_map.1 mem
    exact (counts c mem').1
  rw [pieces_along slashless (by simpa using nonempty), List.map_map]
  rfl

lemma components_of_counts : (along (cs.map Component.text)).components = cs := by
  cases cs with
  | nil => rfl
  | cons c cs =>
    have first := (counts c List.mem_cons_self).2
    unfold components componentsOf
    rw [pieces_of_counts counts (List.cons_ne_nil c cs), List.map_cons]
    rcases text : c.text.toList with - | ⟨x, xs⟩
    · rw [text] at first
      cases first
    · have dot : x :: xs ≠ ['.'] := by
        rintro same
        rw [text, same] at first
        cases first
      simp only [if_neg dot]
      rw [← List.filterMap_append, List.singleton_append, ← text]
      exact filterMap_counts counts

lemma components_root_of_counts :
    (⟨"/" ++ (along (cs.map Component.text)).text⟩ : Path).components = .root :: cs := by
  have text : ("/" ++ (along (cs.map Component.text)).text).toList =
      '/' :: (along (cs.map Component.text)).text.toList := by
    rw [String.toList_append]
    rfl
  unfold components componentsOf
  simp only [text, pieces_cons, consPiece, if_true]
  cases cs with
  | nil => rfl
  | cons c cs =>
    simp only [pieces_of_counts counts (List.cons_ne_nil c cs), filterMap_counts counts]
    rfl

lemma components_current_of_counts :
    (along ("." :: cs.map Component.text)).components = .current :: cs := by
  have slashless : ∀ s ∈ "." :: cs.map Component.text, '/' ∉ s.toList := by
    refine List.forall_mem_cons.2 ⟨by decide, fun s mem => ?_⟩
    obtain ⟨c, mem', rfl⟩ := List.mem_map.1 mem
    exact (counts c mem').1
  unfold components componentsOf
  rw [pieces_along slashless (List.cons_ne_nil _ _), List.map_cons, List.map_map]
  exact congrArg (.current :: ·) (filterMap_counts counts)

end

lemma components_ancestor (p : Path) (n : ℕ) :
    (FileTree.ancestor p.components n).components = p.components.take n := by
  obtain ⟨first, components, begins⟩ := p.components_eq
  have counts := p.counts_pieces
  generalize (pieces '/' p.text.toList).filterMap Component.ofPiece? = rest at components counts
  rw [components]
  have some_counts (k : ℕ) : ∀ c ∈ rest.take k, Counts c := fun c mem =>
    counts c (List.mem_of_mem_take mem)
  unfold FileTree.ancestor
  rcases begins with rfl | rfl | rfl
  · rw [List.nil_append]
    split
    · next names texts =>
      obtain ⟨c, more, split, text, -⟩ := List.map_eq_cons_iff.1 texts
      exact ((some_counts n c (by simp [split])).1 (by simp [text])).elim
    · exact components_of_counts (some_counts n)
  · cases n with
    | zero => rfl
    | succ n => exact components_root_of_counts (some_counts n)
  · cases n with
    | zero => rfl
    | succ n => exact components_current_of_counts (some_counts n)

lemma flatMap_pieces (cs : List Char) : (pieces '/' cs).flatMap (· ++ ['/']) = cs ++ ['/'] := by
  induction cs with
  | nil => rfl
  | cons c cs ih =>
    obtain ⟨first, rest, split⟩ := List.exists_cons_of_ne_nil (pieces_ne_nil '/' cs)
    rw [split] at ih
    rw [pieces_cons, split]
    by_cases same : c = '/'
    · rw [consPiece, if_pos same, List.flatMap_cons, ih, same]
      rfl
    · simp only [consPiece, if_neg same]
      exact congrArg (c :: ·) ih

/-- Whether there is no null character in a path. -/
def IsClean (p : Path) : Prop := Char.ofNat 0 ∉ p.text.toList

instance (p : Path) : Decidable p.IsClean := inferInstanceAs (Decidable (¬_))

def IsFileName (s : String) : Prop := IsName s ∧ Char.ofNat 0 ∉ s.toList

instance (s : String) : Decidable (IsFileName s) := inferInstanceAs (Decidable (_ ∧ _))

lemma IsClean.descend (clean : p.IsClean) (unslashed : p.IsUnslashed)
    (isFileName : ∀ s ∈ names, IsFileName s) : (p.descend names).IsClean := by
  induction names generalizing p with
  | nil => exact clean
  | cons s names ih =>
    obtain ⟨name, nameClean⟩ := isFileName s List.mem_cons_self
    have step : (p / s).IsClean := by
      rw [IsClean, unslashed.join_text name.relative]
      simpa [IsClean, nameClean] using clean
    exact ih step (unslashed.step name) fun u mem => isFileName u (List.mem_cons_of_mem s mem)

lemma mem_text_along {x : Char} (mem : x ∈ (along names).text.toList) :
    x = '/' ∨ ∃ s ∈ names, x ∈ s.toList := by
  induction names with
  | nil => simp [along] at mem
  | cons s names ih =>
    cases names with
    | nil => exact .inr ⟨s, List.mem_cons_self, by simpa [along] using mem⟩
    | cons u names =>
      rw [text_along_cons] at mem
      simp only [String.toList_append, List.mem_append] at mem
      rcases mem with mem | mem | mem
      · exact .inr ⟨s, List.mem_cons_self, mem⟩
      · exact .inl (by simpa using mem)
      · exact (ih mem).imp_right fun ⟨v, inRest, mem⟩ => ⟨v, List.mem_cons_of_mem s inRest, mem⟩

lemma mem_text_component {c : Component} {x : Char} (mem : c ∈ p.components)
    (within : x ∈ c.text.toList) : x = '/' ∨ x = '.' ∨ x ∈ p.text.toList := by
  obtain ⟨first, components, begins⟩ := p.components_eq
  rw [components, List.mem_append, List.mem_filterMap] at mem
  rcases mem with mem | ⟨piece, mem, counts⟩
  · rcases begins with rfl | rfl | rfl
    · cases mem
    · obtain rfl := List.mem_singleton.1 mem
      exact .inl (by simpa [Component.text] using within)
    · obtain rfl := List.mem_singleton.1 mem
      exact .inr (.inl (by simpa [Component.text] using within))
  · have text : c.text.toList = piece := text_of_ofPiece? counts
    have found : x ∈ (pieces '/' p.text.toList).flatMap (· ++ ['/']) :=
      List.mem_flatMap.2 ⟨piece, mem, List.mem_append_left _ (text ▸ within)⟩
    rw [flatMap_pieces, List.mem_append, List.mem_singleton] at found
    exact found.symm.imp_right .inr

lemma IsClean.ancestor (clean : p.IsClean) (n : ℕ) :
    (FileTree.ancestor p.components n).IsClean := by
  have text {x : Char} (mem : x ∈ (FileTree.ancestor p.components n).text.toList) :
      x = '/' ∨ ∃ s ∈ (p.components.take n).map Component.text, x ∈ s.toList := by
    unfold FileTree.ancestor at mem
    split at mem
    · next names split =>
      rw [split]
      rw [String.toList_append, List.mem_append] at mem
      rcases mem with mem | mem
      · exact .inl (by simpa using mem)
      · exact (mem_text_along mem).imp_right fun ⟨s, inNames, mem⟩ =>
          ⟨s, List.mem_cons_of_mem _ inNames, mem⟩
    · exact mem_text_along mem
  intro null
  rcases text null with same | ⟨s, mem, within⟩
  · exact absurd same (by decide)
  · obtain ⟨c, taken, rfl⟩ := List.mem_map.1 mem
    rcases mem_text_component (List.mem_of_mem_take taken) within with same | same | null
    · exact absurd same (by decide)
    · exact absurd same (by decide)
    · exact clean null

lemma skipIdle_eq_self {cs : List Char} (slash : cs.head? ≠ some '/')
    (dot : ∀ rest, cs ≠ '.' :: '/' :: rest) (dots : cs ≠ ['.']) : skipIdle cs = cs := by
  unfold skipIdle
  split
  · simp at slash
  · exact absurd rfl (dot _)
  · exact absurd rfl dots
  · rfl

lemma skipIdle_skipIdle (cs : List Char) : skipIdle (skipIdle cs) = skipIdle cs := by
  induction cs using skipIdle.induct <;> simp_all [skipIdle]

lemma dropNames_skipIdle (n : ℕ) (cs : List Char) : dropNames n (skipIdle cs) = dropNames n cs := by
  cases n <;> simp [dropNames, skipIdle_skipIdle]

lemma dropNames_pieces {ps : List (List Char)} (slashless : ∀ piece ∈ ps, '/' ∉ piece)
    (q : List Char) :
    dropNames (ps.filterMap Component.ofPiece?).length (ps.flatMap (· ++ ['/']) ++ q) =
      skipIdle q := by
  induction ps with
  | nil => rfl
  | cons piece ps ih =>
    have noSlash := slashless piece List.mem_cons_self
    have rest := ih fun other mem => slashless other (List.mem_cons_of_mem piece mem)
    rw [List.flatMap_cons, List.append_assoc, List.append_assoc, List.singleton_append]
    generalize ps.flatMap (· ++ ['/']) ++ q = after at rest ⊢
    have idle (n : ℕ) : dropNames n ('/' :: after) = dropNames n after := by
      rw [← dropNames_skipIdle, skipIdle, dropNames_skipIdle]
    by_cases empty : piece = []
    · rw [empty, List.filterMap_cons_none rfl, List.nil_append, idle, rest]
    by_cases dot : piece = ['.']
    · rw [dot, List.filterMap_cons_none rfl, ← rest, ← dropNames_skipIdle,
        ← dropNames_skipIdle _ after]
      rfl
    obtain ⟨c, counts⟩ : ∃ c, Component.ofPiece? piece = some c := by
      unfold Component.ofPiece?
      split_ifs with idle <;> simp_all
    have starts : skipIdle (piece ++ '/' :: after) = piece ++ '/' :: after := by
      obtain ⟨c, cs, rfl⟩ := List.exists_cons_of_ne_nil empty
      refine skipIdle_eq_self ?_ (fun other same => ?_) ?_
      · simpa using fun same => noSlash (by simp [same])
      · cases cs with
        | nil => simp_all
        | cons c' cs => simp_all
      · simp
    have dropped : (piece ++ '/' :: after).dropWhile (· != '/') = '/' :: after := by
      rw [List.dropWhile_append_of_pos fun c mem => by
        simpa using fun same : c = '/' => noSlash (same ▸ mem)]
      simp
    rw [List.filterMap_cons_some counts, List.length_cons, dropNames, starts, dropped, idle, rest]

lemma exists_pieces (cs : List Char) : ∃ rest, pieces '/' cs = cs.takeWhile (· != '/') :: rest ∧
    (pieces '/' (cs.dropWhile (· != '/'))).filterMap Component.ofPiece? =
      rest.filterMap Component.ofPiece? := by
  induction cs with
  | nil => exact ⟨[], rfl, rfl⟩
  | cons c cs ih =>
    obtain ⟨rest, split, after⟩ := ih
    rw [pieces_cons, split]
    by_cases slash : c = '/'
    · subst slash
      refine ⟨pieces '/' cs, ?_, ?_⟩
      · simp [consPiece, split]
      · simp [consPiece, Component.ofPiece?, pieces_cons]
    · exact ⟨rest, by simp [consPiece, slash], by simp [slash, after]⟩

lemma ofPiece?_takeWhile {cs : List Char} (slash : ∀ rest, cs ≠ '/' :: rest)
    (dot : ∀ rest, cs ≠ '.' :: '/' :: rest) (dots : cs ≠ ['.']) :
    cs = [] ∨ ∃ first c, cs.takeWhile (· != '/') = first ∧ first ≠ [] ∧ first ≠ ['.'] ∧
      Component.ofPiece? first = some c := by
  rcases cs with - | ⟨c, cs⟩
  · exact .inl rfl
  have other : c ≠ '/' := fun same => slash cs (same ▸ rfl)
  have counts : c :: cs.takeWhile (· != '/') ≠ ['.'] := by
    intro same
    obtain ⟨rfl, ends⟩ := List.cons.inj same
    rcases cs with - | ⟨c, cs⟩
    · exact dots rfl
    · by_cases next : c = '/'
      · exact dot cs (next ▸ rfl)
      · simp [next] at ends
  obtain ⟨d, isPiece⟩ : ∃ d, Component.ofPiece? (c :: cs.takeWhile (· != '/')) = some d := by
    unfold Component.ofPiece?
    split_ifs with idle <;> simp_all
  exact .inr ⟨_, d, by simp [other], List.cons_ne_nil _ _, counts, isPiece⟩

lemma componentsOf_skipIdle (cs : List Char) :
    componentsOf (skipIdle cs) = (pieces '/' cs).filterMap Component.ofPiece? := by
  induction cs using skipIdle.induct with
  | case1 cs ih =>
    rw [skipIdle, ih, pieces_cons]
    rfl
  | case2 cs ih =>
    rw [skipIdle, ih, pieces_cons, pieces_cons]
    rfl
  | case3 => rfl
  | case4 cs slash dot dots =>
    have stays : skipIdle cs = cs := by cases cs <;> simp_all [skipIdle]
    rw [stays, componentsOf]
    rcases ofPiece?_takeWhile slash dot dots with rfl | ⟨first, c, begins, proper, named, counts⟩
    · rfl
    · obtain ⟨rest, split, -⟩ := exists_pieces cs
      rw [split, begins]
      simp [named, counts]

lemma filterMap_dropWhile (cs : List Char) :
    (pieces '/' ((skipIdle cs).dropWhile (· != '/'))).filterMap Component.ofPiece? =
      ((pieces '/' cs).filterMap Component.ofPiece?).tail := by
  induction cs using skipIdle.induct with
  | case1 cs ih =>
    rw [skipIdle, ih, pieces_cons]
    rfl
  | case2 cs ih =>
    rw [skipIdle, ih, pieces_cons, pieces_cons]
    rfl
  | case3 => rfl
  | case4 cs slash dot dots =>
    have stays : skipIdle cs = cs := by cases cs <;> simp_all [skipIdle]
    obtain ⟨rest, split, after⟩ := exists_pieces cs
    rw [stays, after, split]
    rcases ofPiece?_takeWhile slash dot dots with rfl | ⟨first, c, begins, -, -, counts⟩
    · obtain rfl : rest = [] := by simpa using split
      rfl
    · rw [begins, List.filterMap_cons_some counts, List.tail_cons]

lemma componentsOf_dropNames (n : ℕ) (cs : List Char) : componentsOf (dropNames n cs) =
    ((pieces '/' cs).filterMap Component.ofPiece?).drop n := by
  induction n generalizing cs with
  | zero => rw [dropNames, componentsOf_skipIdle, List.drop_zero]
  | succ n ih => rw [dropNames, ih, filterMap_dropWhile, List.drop_tail]

lemma counts_of_append {cs ds : List Component} (nonempty : cs ≠ [])
    (components : p.components = cs ++ ds) : ∀ c ∈ ds, Counts c := by
  obtain ⟨first, split, begins⟩ := p.components_eq
  have counts := p.counts_pieces
  rw [split] at components
  obtain ⟨c, cs, rfl⟩ := List.exists_cons_of_ne_nil nonempty
  have within {more : List Component} (same : more = cs ++ ds)
      (all : ∀ c ∈ more, Counts c) : ∀ c ∈ ds, Counts c :=
    fun c mem => all c (same ▸ List.mem_append_right cs mem)
  rcases begins with rfl | rfl | rfl
  · rw [List.nil_append] at components
    exact fun c mem => counts c (components ▸ List.mem_append_right _ mem)
  · exact within (List.cons.inj components).2 counts
  · exact within (List.cons.inj components).2 counts

lemma Counts.isNamed {c : Component} (counts : Counts c) :
    (c != .root && c != .current) = true := by
  have isPiece := counts.2
  cases c with
  | root => cases isPiece
  | current => cases isPiece
  | parent => rfl
  | name => rfl

lemma filter_components (p : Path) : (p.components.filter fun c => c != .root && c != .current) =
    (pieces '/' p.text.toList).filterMap Component.ofPiece? := by
  obtain ⟨first, components, begins⟩ := p.components_eq
  have skipped : first.filter (fun c => c != .root && c != .current) = [] := by
    rcases begins with rfl | rfl | rfl <;> rfl
  rw [components, List.filter_append, skipped, List.nil_append, List.filter_eq_self.2]
  exact fun c mem => (p.counts_pieces c mem).isNamed

lemma components_of_textAfter? {q x : Path} (started : p.components ≠ [])
    (written : q.textAfter? p = some x) : q.components = p.components ++ x.components := by
  obtain ⟨rest, after, rfl⟩ := Option.map_eq_some_iff.1 written
  have components := (List.isPrefixOf?_eq_some_iff_append_eq.1 after).symm
  have counts := counts_of_append started components
  rw [components, List.append_cancel_left_eq]
  rw [Path.components, String.toList_ofList, componentsOf_dropNames, ← q.filter_components,
    components, List.filter_append, List.drop_left', List.filter_eq_self.2]
  · exact fun c mem => (counts c mem).isNamed
  · rfl

lemma textAfter?_descend (unslashed : p.IsUnslashed) (started : p.components ≠ [])
    (isName : ∀ s ∈ names, IsName s) (nonempty : names ≠ []) :
    (p.descend names).textAfter? p = some (along names) := by
  have below : (p.descend names).componentsAfter? p = some (names.map .name) := by
    rw [componentsAfter?, components_descend started isName]
    exact List.isPrefixOf?_eq_some_iff_append_eq.2 rfl
  have text : (p.descend names).text.toList =
      (pieces '/' p.text.toList).flatMap (· ++ ['/']) ++ (along names).text.toList := by
    rw [flatMap_pieces, ← unslashed.join_along isName nonempty,
      unslashed.join_text (relative_along isName)]
    simp
  have starts : skipIdle (along names).text.toList = (along names).text.toList := by
    have undotted {rest : List (List Char)}
        (split : pieces '/' (along names).text.toList = ['.'] :: rest) : False := by
      have first : splitText '/' (along names).text = "." :: rest.map String.ofList := by
        rw [splitText, split]
        rfl
      rw [splitText_along isName nonempty] at first
      exact (isName "." (by simp [first])).2.2.1 rfl
    refine skipIdle_eq_self (relative_along isName) (fun rest same => ?_) fun same => ?_
    · exact undotted (by rw [same]; rfl)
    · exact undotted (by rw [same]; rfl)
  rw [textAfter?, below, Option.map_some]
  simp only [p.filter_components, text]
  rw [dropNames_pieces fun _ => not_mem_of_mem_pieces, starts, String.ofList_toList]

lemma eq_append_of_splitFirst? {separator : Char} {cs first rest : List Char}
    (split : splitFirst? separator cs = some (first, rest)) : cs = first ++ separator :: rest := by
  unfold splitFirst? at split
  split at split
  · cases split
  · next c rest' found =>
    obtain ⟨rfl, rfl⟩ := Prod.mk.inj (Option.some.inj split)
    have separates : c = separator := by
      have := List.head?_dropWhile_not (· != separator) cs
      simpa [found] using this
    calc cs = cs.takeWhile (· != separator) ++ cs.dropWhile (· != separator) :=
        List.takeWhile_append_dropWhile.symm
      _ = _ := by rw [found, separates]

lemma eq_append_of_splitLast? {separator : Char} {cs before last : List Char}
    (split : splitLast? separator cs = some (before, last)) : cs = before ++ separator :: last := by
  obtain ⟨⟨first, rest⟩, found, same⟩ := Option.map_eq_some_iff.1 split
  obtain ⟨rfl, rfl⟩ := Prod.mk.inj same
  have := congrArg List.reverse (eq_append_of_splitFirst? found)
  simpa using this

def stemOf (file : String) : List Char :=
  match splitLast? '.' file.toList with
  | some ([], _) | none => file.toList
  | some (stem, _) => stem

def extended (file extension : String) : String :=
  String.ofList (stemOf file ++ '.' :: extension.toList)

lemma stemOf_isPrefix (file : String) : stemOf file <+: file.toList := by
  unfold stemOf
  split
  · exact List.prefix_rfl
  · exact List.prefix_rfl
  · next found => exact ⟨_, (eq_append_of_splitLast? found).symm⟩

lemma IsName.stemOf_ne_nil (name : IsName s) : stemOf s ≠ [] := by
  unfold stemOf
  cases splitLast? '.' s.toList with
  | none => exact name.toList_ne_nil
  | some found =>
    obtain ⟨- | ⟨c, stem⟩, last⟩ := found
    · exact name.toList_ne_nil
    · exact List.cons_ne_nil c stem

lemma IsName.extended (name : IsName s) {extension : String} (slashless : '/' ∉ extension.toList)
    (nonempty : extension ≠ "") : IsName (extended s extension) := by
  obtain ⟨c, stem, cons⟩ := List.exists_cons_of_ne_nil name.stemOf_ne_nil
  obtain ⟨e, rest, more⟩ := List.exists_cons_of_ne_nil (l := extension.toList) fun empty =>
    nonempty (String.toList_inj.1 (by simpa using empty))
  have noSlash : '/' ∉ stemOf s := fun mem => name.1 ((stemOf_isPrefix s).subset mem)
  have text : (Path.extended s extension).toList = stemOf s ++ '.' :: extension.toList := by
    rw [Path.extended, String.toList_ofList]
  have other {t : String} (short : t.toList.length < 3) : Path.extended s extension ≠ t := by
    rintro rfl
    rw [text, cons, more] at short
    simp at short
    omega
  refine ⟨?_, other (by decide), other (by decide), other (by decide)⟩
  rw [text]
  simp [noSlash, slashless]

lemma trailingIdle_of_isName (name : IsName s) (before : List Char) :
    stem?.trailingIdle (s.toList.reverse ++ '/' :: before) = s.toList.reverse ++ '/' :: before := by
  obtain ⟨c, cs, reversed⟩ := List.exists_cons_of_ne_nil
    (mt List.reverse_eq_nil_iff.1 name.toList_ne_nil)
  have mem {d : Char} (mem : d ∈ c :: cs) : d ≠ '/' := by
    rintro rfl
    exact name.1 (by simpa [← reversed] using mem)
  rw [reversed, stem?.trailingIdle.eq_def]
  split
  · next same => exact absurd (List.cons.inj same).1 (mem List.mem_cons_self)
  · next rest same =>
    obtain ⟨rfl, rest⟩ := List.cons.inj same
    cases cs with
    | nil => exact (name.2.2.1 (String.toList_inj.1 (List.reverse_eq_iff.1 reversed))).elim
    | cons d cs => exact absurd (List.cons.inj rest).1 (mem (by simp))
  · rfl

lemma stem?_step (unslashed : p.IsUnslashed) (started : p.components ≠ []) (name : IsName s) :
    (p / s).stem? = some ((p.text ++ "/").toList, stemOf s) := by
  have last : (p / s).components.getLast? = some (.name s) := by
    rw [name.components_join started, List.getLast?_append]
    rfl
  have backwards : (p / s).text.toList.reverse =
      s.toList.reverse ++ '/' :: p.text.toList.reverse := by
    simp [unslashed.join_text name.relative]
  have before : (s.toList.reverse ++ '/' :: p.text.toList.reverse).drop s.toList.length =
      '/' :: p.text.toList.reverse := by
    rw [← List.length_reverse, List.drop_left]
  unfold stem? stemOf
  simp only [last, backwards, trailingIdle_of_isName name, before]
  cases splitLast? '.' s.toList with
  | none => simp
  | some found => obtain ⟨- | ⟨c, stem⟩, last⟩ := found <;> simp

lemma withExtension_step (unslashed : p.IsUnslashed) (started : p.components ≠ [])
    (name : IsName s) {extension : String} (slashless : '/' ∉ extension.toList)
    (nonempty : extension ≠ "") : (p / s).withExtension extension = p / extended s extension := by
  have text := unslashed.join_text (name.extended slashless nonempty).relative
  have written :
      ((p / s).withExtension extension).text = p.text ++ "/" ++ extended s extension := by
    rw [withExtension, stem?_step unslashed started name, ← String.toList_inj]
    simp [extended]
  exact eq_of_text (written.trans text.symm)

end ImageRegistry.Path
