import ImageRegistry.Ascending
import ImageRegistry.Content.Digest
import ImageRegistry.Naming.RepositoryName

/-! Mark sets: which digests were found to be in use, in which repository. As there are only so
many digests, marking new ones comes to an end. -/

namespace ImageRegistry

/-- The digests that are in use, with the repositories that use them. -/
structure MarkSet where
  marks : List (RepositoryName × Digest) := []

namespace MarkSet

def containsIn (m : MarkSet) (name : RepositoryName) (d : Digest) : Bool :=
  m.marks.contains (name, d)

def contains (m : MarkSet) (d : Digest) : Bool := m.marks.any fun mark => mark.2 == d

def mark (m : MarkSet) (name : RepositoryName) (d : Digest) : MarkSet :=
  if m.containsIn name d then m else ⟨(name, d) :: m.marks⟩

def markAll (m : MarkSet) (name : RepositoryName) (ds : List Digest) : MarkSet :=
  ds.foldl (fun m d => m.mark name d) m

/-- The number of marked digests. A digest counts once. -/
def size (m : MarkSet) : Nat := (ascending (m.marks.map Prod.snd)).length

def isEmpty (m : MarkSet) : Bool := m.marks.isEmpty

@[simp] theorem containsIn_mark {m : MarkSet} {r s : RepositoryName} {d e : Digest} :
    (m.mark r d).containsIn s e = true ↔ (s = r ∧ e = d) ∨ m.containsIn s e = true := by
  by_cases h : m.containsIn r d = true
  · simp only [mark, h, if_true]
    constructor
    · exact Or.inr
    · rintro (⟨rfl, rfl⟩ | h')
      · exact h
      · exact h'
  · rw [mark, if_neg h]
    simp [containsIn]

/-- A digest is marked if some repository has marked it. -/
theorem contains_iff {m : MarkSet} {d : Digest} :
    m.contains d = true ↔ ∃ name, m.containsIn name d = true := by
  simp [contains, containsIn]

/-- What is not marked is marked in no repository. -/
theorem containsIn_eq_false {m : MarkSet} {d : Digest} (h : m.contains d = false)
    (name : RepositoryName) : m.containsIn name d = false := by
  refine Bool.eq_false_iff.2 fun marked => ?_
  rw [contains_iff.2 ⟨name, marked⟩] at h
  cases h

theorem containsIn_markAll {m : MarkSet} {r s : RepositoryName} {ds : List Digest} {e : Digest} :
    (m.markAll r ds).containsIn s e = true ↔ (s = r ∧ e ∈ ds) ∨ m.containsIn s e = true := by
  induction ds generalizing m with
  | nil => simp [markAll]
  | cons d ds ih =>
    have step : m.markAll r (d :: ds) = (m.mark r d).markAll r ds := rfl
    rw [step, ih, containsIn_mark, List.mem_cons]
    constructor
    · rintro (⟨h, h'⟩ | ⟨h, h'⟩ | h)
      · exact Or.inl ⟨h, Or.inr h'⟩
      · exact Or.inl ⟨h, Or.inl h'⟩
      · exact Or.inr h
    · rintro (⟨h, h' | h'⟩ | h)
      · exact Or.inr (Or.inl ⟨h, h'⟩)
      · exact Or.inl ⟨h, h'⟩
      · exact Or.inr (Or.inr h)

def hexDigits : List Char := "0123456789abcdef".toList

/-- All words of some length over the hexadecimal digits. -/
noncomputable def hexWords : Nat → List (List Char)
  | 0 => [[]]
  | n + 1 => (hexWords n).flatMap fun w => hexDigits.map fun c => c :: w

theorem mem_hexDigits {c : Char} (h : Hex.isLowerDigit c = true) : c ∈ hexDigits := by
  have bound : c.toNat < 103 := by
    simp only [Hex.isLowerDigit, Bool.or_eq_true, Bool.and_eq_true, decide_eq_true_eq] at h
    omega
  have all : ∀ n, n < 103 → Hex.isLowerDigit (Char.ofNat n) = true →
      Char.ofNat n ∈ "0123456789abcdef".toList := by decide +kernel
  have := all c.toNat bound
  rw [Char.ofNat_toNat] at this
  exact this h

theorem mem_hexWords {w : List Char} (h : w.all Hex.isLowerDigit = true) :
    w ∈ hexWords w.length := by
  induction w with
  | nil => exact List.mem_singleton.2 rfl
  | cons c w ih =>
    rw [List.all_cons, Bool.and_eq_true] at h
    exact List.mem_flatMap.2 ⟨w, ih h.2, List.mem_map.2 ⟨c, mem_hexDigits h.1, rfl⟩⟩

/-- Whether some digits are those of a digest that is not marked in a repository. -/
def isUnmarked (m : MarkSet) (name : RepositoryName) (w : List Char) : Bool :=
  (Digest.ofHex? (String.ofList w)).any fun d => !m.containsIn name d

noncomputable def unmarked (m : MarkSet) (name : RepositoryName) : Nat :=
  (hexWords 64).countP (m.isUnmarked name)

theorem countP_lt_countP {α : Type} {p q : α → Bool} {l : List α} {a : α}
    (le : ∀ x ∈ l, p x = true → q x = true) (mem : a ∈ l) (hq : q a = true) (hp : p a = false) :
    l.countP p < l.countP q := by
  induction l with
  | nil => cases mem
  | cons x l ih =>
    have rest : ∀ y ∈ l, p y = true → q y = true := fun y h => le y (List.mem_cons_of_mem x h)
    rw [List.countP_cons, List.countP_cons]
    rcases List.mem_cons.1 mem with rfl | h
    · have := List.countP_mono_left rest
      simp only [hp, hq, Bool.false_eq_true, if_false, if_true]
      omega
    · have := ih rest h
      have head := le x List.mem_cons_self
      by_cases hx : p x = true
      · simp only [hx, head hx, if_true]
        omega
      · simp only [hx, Bool.false_eq_true, if_false]
        omega

theorem isUnmarked_of_subset {m n : MarkSet} {name : RepositoryName} {w : List Char}
    (subset : ∀ d, m.containsIn name d = true → n.containsIn name d = true)
    (h : n.isUnmarked name w = true) : m.isUnmarked name w = true := by
  simp only [isUnmarked, Option.any_eq_true, Bool.not_eq_true'] at h ⊢
  obtain ⟨d, hd, unmarked⟩ := h
  refine ⟨d, hd, ?_⟩
  cases hm : m.containsIn name d with
  | false => rfl
  | true => rw [subset d hm] at unmarked; cases unmarked

/-- Where more is marked, no more is left. -/
theorem unmarked_le_of_subset {m n : MarkSet} {name : RepositoryName}
    (subset : ∀ d, m.containsIn name d = true → n.containsIn name d = true) :
    n.unmarked name ≤ m.unmarked name :=
  List.countP_mono_left fun _ _ h => isUnmarked_of_subset subset h

/-- A new mark leaves fewer digests. -/
theorem unmarked_mark_lt {m : MarkSet} {name : RepositoryName} {d : Digest}
    (h : m.containsIn name d = false) : (m.mark name d).unmarked name < m.unmarked name := by
  have isHex := d.isHex
  simp only [isDigestHex, Bool.and_eq_true, beq_iff_eq] at isHex
  have mem := mem_hexWords isHex.2
  rw [isHex.1] at mem
  apply countP_lt_countP (fun w _ => isUnmarked_of_subset fun e he => containsIn_mark.2 (.inr he))
    mem
  · simp [isUnmarked, String.ofList_toList, Digest.ofHex?_hex, h]
  · have : (m.mark name d).containsIn name d = true := containsIn_mark.2 (.inl ⟨rfl, rfl⟩)
    simp [isUnmarked, String.ofList_toList, Digest.ofHex?_hex, this]

end MarkSet
end ImageRegistry
