import Mathlib.Data.List.Basic
import Mathlib.Tactic.Common
import ImageRegistry.Storage.Path

/-! The components of a path that is put together from a path and what leads on from it. -/

namespace ImageRegistry

lemma pieces_eq_splitOn (separator : Char) (cs : List Char) :
    pieces separator cs = cs.splitOn separator := by
  induction cs with
  | nil => rfl
  | cons c cs ih =>
    rw [pieces_cons, ih, List.splitOn_cons_eq_if_modifyHead]
    by_cases h : c = separator
    · simp [consPiece, h]
    · obtain ⟨piece, rest, hp⟩ := List.exists_cons_of_ne_nil (List.splitOn_ne_nil separator cs)
      simp [consPiece, h, hp]

lemma pieces_append_separator (separator : Char) (a b : List Char) :
    pieces separator (a ++ separator :: b) = pieces separator a ++ pieces separator b := by
  simp only [pieces_eq_splitOn, List.splitOn_append_cons_self]

lemma pieces_of_not_mem {separator : Char} {cs : List Char} (h : separator ∉ cs) :
    pieces separator cs = [cs] := by
  rw [pieces_eq_splitOn, List.splitOn_eq_singleton h]

lemma not_mem_of_mem_pieces {separator : Char} {cs piece : List Char}
    (h : piece ∈ pieces separator cs) : separator ∉ piece := by
  induction cs generalizing piece with
  | nil =>
    rw [pieces_nil, List.mem_singleton] at h
    simp [h]
  | cons c cs ih =>
    obtain ⟨first, rest, hp⟩ := List.exists_cons_of_ne_nil (pieces_ne_nil separator cs)
    rw [pieces_cons, hp] at h
    rw [hp] at ih
    by_cases same : c = separator
    · simp only [consPiece, same, if_true, List.mem_cons] at h
      rcases h with rfl | h
      · exact List.not_mem_nil
      · exact ih (List.mem_cons.2 h)
    · simp only [consPiece, same, if_false, List.mem_cons] at h
      rcases h with rfl | h
      · intro mem
        rcases List.mem_cons.1 mem with rfl | mem
        · exact same rfl
        · exact ih List.mem_cons_self mem
      · exact ih (List.mem_cons_of_mem _ h)

namespace Path

/-- The components along which a relative text leads on from a path. -/
def onward (q : String) : List Component :=
  (pieces '/' q.toList).filterMap Component.ofPiece?

lemma componentsOf_append_slash {a : List Char} (b : List Char) (h : a ≠ []) :
    componentsOf (a ++ '/' :: b) =
      componentsOf a ++ (pieces '/' b).filterMap Component.ofPiece? := by
  obtain ⟨first, rest, hp⟩ := List.exists_cons_of_ne_nil (pieces_ne_nil '/' a)
  unfold componentsOf
  rw [pieces_append_separator, hp]
  cases first with
  | nil => simp [h]
  | cons c first => simp

theorem components_join {p : Path} {q : String} (nonempty : p.components ≠ [])
    (relative : q.toList.head? ≠ some '/') : (p / q).components = p.components ++ onward q := by
  change (p.join q).components = _
  have ht : p.text.toList ≠ [] := by
    intro empty
    exact nonempty (by simp [components, empty, componentsOf])
  have hs : p.text ≠ "" := fun empty => ht (by simp [empty])
  unfold join
  rw [if_neg relative]
  by_cases slash : p.text.toList.getLast? = some '/'
  · obtain ⟨before, hb⟩ : ∃ before, p.text.toList = before ++ ['/'] := by
      obtain ⟨before, hb⟩ := List.getLast?_eq_some_iff.1 slash
      exact ⟨before, hb⟩
    rw [if_pos (.inr slash)]
    simp only [components, String.toList_append, hb, List.append_assoc, List.singleton_append]
    cases before with
    | nil => simp [componentsOf, consPiece, onward, Component.ofPiece?]
    | cons c before =>
      rw [componentsOf_append_slash _ (List.cons_ne_nil _ _),
        componentsOf_append_slash _ (List.cons_ne_nil _ _)]
      simp [onward, Component.ofPiece?]
  · rw [if_neg (by simp [String.isEmpty_iff, hs, slash])]
    simp only [components, String.toList_append]
    have := componentsOf_append_slash q.toList ht
    simpa [onward] using this

lemma root_mem_components {p : Path} (absolute : p.text.toList.head? = some '/') :
    Component.root ∈ p.components := by
  obtain ⟨cs, hp⟩ := List.head?_eq_some_iff.1 absolute
  simp [components, componentsOf, hp, consPiece]

/-- A text that names one step down: there is no slash in it and no dot at its start. -/
def IsStep (s : String) : Prop := '/' ∉ s.toList ∧ ∃ c cs, s.toList = c :: cs ∧ c ≠ '.'

instance (s : String) : Decidable (IsStep s) :=
  decidable_of_iff ('/' ∉ s.toList ∧ s.toList.head?.any (· ≠ '.') = true) <| by
    rw [IsStep]
    cases s.toList <;> simp

lemma IsStep.relative {s : String} (h : IsStep s) : s.toList.head? ≠ some '/' := by
  obtain ⟨noSlash, c, cs, hs, _⟩ := h
  rw [hs] at noSlash ⊢
  rintro head
  exact noSlash (by simp [Option.some.inj head])

lemma IsStep.ofPiece? {s : String} (h : IsStep s) :
    Component.ofPiece? s.toList = some (.name s) := by
  obtain ⟨_, c, cs, hs, dot⟩ := h
  have same : String.ofList (c :: cs) = s := by rw [← hs, String.ofList_toList]
  simp [Component.ofPiece?, hs, dot, same]

lemma IsStep.onward {s : String} (h : IsStep s) : onward s = [.name s] := by
  simp [Path.onward, pieces_of_not_mem h.1, h.ofPiece?]

def Leads (steps : List String) (p : Path) : Prop :=
  steps ≠ [] ∧ p.components = steps.map Component.name

lemma Leads.step {steps : List String} {p : Path} {q : String} (h : Leads steps p)
    (isStep : IsStep q) : Leads (steps ++ [q]) (p / q) := by
  have nonempty : p.components ≠ [] := by simp [h.2, h.1]
  exact ⟨by simp, by simp [components_join nonempty isStep.relative, isStep.onward, h.2]⟩

lemma onward_of_splitText {s : String} (h : ∀ step ∈ splitText '/' s, IsStep step) :
    onward s = (splitText '/' s).map Component.name := by
  unfold onward
  unfold splitText at h ⊢
  generalize pieces '/' s.toList = ps at h ⊢
  induction ps with
  | nil => rfl
  | cons piece ps ih =>
    have step := (h (String.ofList piece) (by simp)).ofPiece?
    rw [String.toList_ofList] at step
    rw [List.filterMap_cons_some step, List.map_cons, List.map_cons,
      ih fun q hq => h q (List.mem_cons_of_mem _ hq)]

lemma Leads.splitText {steps : List String} {p : Path} {q : String} (h : Leads steps p)
    (relative : q.toList.head? ≠ some '/') (isStep : ∀ step ∈ splitText '/' q, IsStep step) :
    Leads (steps ++ ImageRegistry.splitText '/' q) (p / q) := by
  have nonempty : p.components ≠ [] := by simp [h.2, h.1]
  refine ⟨by simp [h.1], ?_⟩
  rw [components_join nonempty relative, onward_of_splitText isStep, h.2, List.map_append]

lemma Leads.componentsAfter? {base steps : List String} {p q : Path} (hp : Leads base p)
    (hq : Leads steps q) :
    q.componentsAfter? p = (base.isPrefixOf? steps).map (List.map Component.name) := by
  rw [Path.componentsAfter?, hp.2, hq.2]
  generalize base = xs
  generalize steps = ys
  induction xs generalizing ys with
  | nil => cases ys <;> rfl
  | cons x xs ih =>
    cases ys with
    | nil => rfl
    | cons y ys => by_cases same : x = y <;> simp [List.isPrefixOf?, same, ih]

end Path

lemma intercalate_splitText (s : String) : String.intercalate "/" (splitText '/' s) = s := by
  rw [← String.toList_inj, String.toList_intercalate, splitText, List.map_map, pieces_eq_splitOn]
  have plain : String.toList ∘ String.ofList = id := by
    funext cs
    exact String.toList_ofList
  rw [plain, List.map_id]
  exact List.intercalate_splitOn '/'

end ImageRegistry
