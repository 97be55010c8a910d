import Mathlib.Tactic.Common
import ImageRegistry.Text.Split

/-! Texts that are put together around a separator are taken apart again, at the first separator or
at the last one. -/

namespace ImageRegistry

variable {separator : Char} {a b before last rest : List Char}

lemma splitFirst?_append_separator (absent : separator ∉ before) (rest : List Char) :
    splitFirst? separator (before ++ separator :: rest) = some (before, rest) := by
  have differs : ∀ c ∈ before, (c != separator) = true := fun c mem =>
    bne_iff_ne.2 fun same => absent (same ▸ mem)
  rw [splitFirst?, List.dropWhile_append_of_pos differs, List.takeWhile_append_of_pos differs]
  simp

lemma splitLast?_append_separator (before : List Char) (absent : separator ∉ last) :
    splitLast? separator (before ++ separator :: last) = some (before, last) := by
  have absent : separator ∉ last.reverse := fun mem => absent (List.mem_reverse.1 mem)
  rw [splitLast?, List.reverse_append, List.reverse_cons, List.append_assoc, List.singleton_append,
    splitFirst?_append_separator absent]
  simp

lemma append_separator_inj (ha : separator ∉ a) (hb : separator ∉ b) :
    before ++ separator :: a = rest ++ separator :: b ↔ before = rest ∧ a = b := by
  constructor
  · intro same
    have cut := splitLast?_append_separator before ha
    rw [same, splitLast?_append_separator rest hb] at cut
    obtain ⟨rfl, rfl⟩ := Prod.mk.inj (Option.some.inj cut)
    exact ⟨rfl, rfl⟩
  · rintro ⟨rfl, rfl⟩
    rfl

end ImageRegistry
