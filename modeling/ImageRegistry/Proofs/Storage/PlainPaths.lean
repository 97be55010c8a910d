import ImageRegistry.Proofs.Storage.Paths

/-! Plain paths: those in which what stands between slashes is a name, so that there is nothing in
them to be skipped and nothing that leads back. -/

namespace ImageRegistry.Path

/-- A text that names one step down. It may begin with a dot. -/
def IsName (s : String) : Prop := '/' ∉ s.toList ∧ s ≠ "" ∧ s ≠ "." ∧ s ≠ ".."

instance (s : String) : Decidable (IsName s) := inferInstanceAs (Decidable (_ ∧ _))

lemma IsStep.isName {s : String} (h : IsStep s) : IsName s := by
  obtain ⟨noSlash, c, cs, hs, dot⟩ := h
  refine ⟨noSlash, ?_, ?_, ?_⟩ <;> rintro rfl <;> simp at hs <;> exact dot hs.1.symm

lemma IsName.ofPiece? {s : String} (h : IsName s) :
    Component.ofPiece? s.toList = some (.name s) := by
  obtain ⟨-, nonempty, dot, dots⟩ := h
  have other {t : String} (h : s ≠ t) : s.toList ≠ t.toList := mt String.toList_inj.1 h
  have nonempty : s.toList ≠ [] := other nonempty
  have dot : s.toList ≠ ['.'] := other dot
  have dots : s.toList ≠ ['.', '.'] := other dots
  simp [Component.ofPiece?, nonempty, dot, dots]

lemma IsName.splitText {s : String} (h : IsName s) : splitText '/' s = [s] := by
  simp [ImageRegistry.splitText, pieces_of_not_mem h.1]

lemma IsName.relative {s : String} (h : IsName s) : s.toList.head? ≠ some '/' := fun head =>
  h.1 (List.mem_of_mem_head? head)

lemma IsName.onward {s : String} (h : IsName s) : onward s = [.name s] := by
  simp [Path.onward, pieces_of_not_mem h.1, h.ofPiece?]

lemma IsName.components_join {s : String} (h : IsName s) {p : Path} (nonempty : p.components ≠ []) :
    (p / s).components = p.components ++ [.name s] := by
  rw [Path.components_join nonempty h.relative, h.onward]

/-- A path in which every piece between slashes is a name. -/
def IsPlain (p : Path) : Prop := ∀ piece ∈ splitText '/' p.text, IsName piece

instance (p : Path) : Decidable p.IsPlain := inferInstanceAs (Decidable (∀ _ ∈ _, _))

variable {p : Path}

lemma ofPiece?_of_isName {piece : List Char} (h : IsName (String.ofList piece)) :
    Component.ofPiece? piece = some (.name (String.ofList piece)) := by
  have := h.ofPiece?
  rwa [String.toList_ofList] at this

lemma IsPlain.components (plain : p.IsPlain) :
    p.components = (splitText '/' p.text).map Component.name := by
  unfold IsPlain splitText at plain
  unfold Path.components componentsOf splitText
  have counted {ps : List (List Char)} (names : ∀ piece ∈ ps, IsName (String.ofList piece)) :
      ps.filterMap Component.ofPiece? = (ps.map String.ofList).map Component.name := by
    induction ps with
    | nil => rfl
    | cons piece ps ih =>
      rw [List.filterMap_cons_some (ofPiece?_of_isName (names piece List.mem_cons_self)),
        ih fun other mem => names other (List.mem_cons_of_mem piece mem)]
      rfl
  simp only [List.mem_map, forall_exists_index, and_imp, forall_apply_eq_imp_iff₂] at plain
  obtain ⟨first, rest, split⟩ := List.exists_cons_of_ne_nil (pieces_ne_nil '/' p.text.toList)
  rw [split] at plain ⊢
  have name : IsName (String.ofList first) := plain first List.mem_cons_self
  cases first with
  | nil => exact absurd rfl name.2.1
  | cons c cs =>
    have dot : c :: cs ≠ ['.'] := fun same => name.2.2.1 (congrArg String.ofList same)
    simp only [if_neg dot]
    rw [← List.filterMap_append, List.singleton_append, counted plain]

lemma IsPlain.components_ne_nil (plain : p.IsPlain) : p.components ≠ [] := by
  rw [plain.components]
  simp [splitText, pieces_ne_nil]

lemma IsPlain.exists_isName (plain : p.IsPlain) {c : Component} (mem : c ∈ p.components) :
    ∃ s, c = .name s ∧ IsName s := by
  rw [plain.components, List.mem_map] at mem
  obtain ⟨s, mem, rfl⟩ := mem
  exact ⟨s, rfl, plain s mem⟩

lemma IsPlain.join (plain : p.IsPlain) {q : String} (names : ∀ s ∈ splitText '/' q, IsName s) :
    (p / q).IsPlain := by
  have ends {t : String} {cs : List Char} (ht : t.toList = cs ++ ['/']) : "" ∈ splitText '/' t := by
    rw [splitText, ht, pieces_append_separator]
    simp
  have relative : q.toList.head? ≠ some '/' := by
    intro head
    obtain ⟨cs, hq⟩ := List.head?_eq_some_iff.1 head
    refine (names "" ?_).2.1 rfl
    rw [splitText, hq, ← List.nil_append ('/' :: cs), pieces_append_separator]
    simp
  have nonempty : ¬p.text.isEmpty := fun empty => by
    rw [String.isEmpty_iff] at empty
    refine (plain "" ?_).2.1 rfl
    rw [empty]
    decide
  have unslashed : p.text.toList.getLast? ≠ some '/' := by
    intro last
    obtain ⟨cs, hp⟩ := List.getLast?_eq_some_iff.1 last
    exact (plain "" (ends hp)).2.1 rfl
  have joined : (p / q).text = p.text ++ "/" ++ q := by
    change (p.join q).text = _
    unfold Path.join
    rw [if_neg relative, if_neg (by simp [nonempty, unslashed])]
  intro piece mem
  have split : splitText '/' (p / q).text = splitText '/' p.text ++ splitText '/' q := by
    rw [joined, splitText, splitText, splitText, ← List.map_append, ← pieces_append_separator]
    simp
  rw [split, List.mem_append] at mem
  exact mem.elim (plain piece) (names piece)

lemma IsPlain.step (plain : p.IsPlain) {s : String} (name : IsName s) : (p / s).IsPlain :=
  plain.join fun t mem => by
    rw [name.splitText, List.mem_singleton] at mem
    exact mem ▸ name

lemma IsPlain.below_step (plain : p.IsPlain) {s : String} (name : IsName s) :
    p.components <+: (p / s).components :=
  ⟨_, (name.components_join plain.components_ne_nil).symm⟩

end ImageRegistry.Path
