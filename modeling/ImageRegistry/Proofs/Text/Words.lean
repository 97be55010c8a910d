import Mathlib.Data.List.Chain
import Mathlib.Tactic.Common
import ImageRegistry.Text.Word

/-! Word characters are those of the table: bisection finds a code point in ascending ranges if it
lies in one of them. -/

namespace ImageRegistry

/-- One range of code points stands before another one, and neither is empty. -/
def Precedes (a b : Nat × Nat) : Prop := a.1 ≤ a.2 ∧ a.2 < b.1 ∧ b.1 ≤ b.2

instance : DecidableRel Precedes := fun _ _ => inferInstanceAs (Decidable (_ ∧ _))

lemma Precedes.trans {a b c : Nat × Nat} (hab : Precedes a b) (hbc : Precedes b c) :
    Precedes a c := by
  unfold Precedes at *
  omega

lemma WordTable.isChain_ranges : ranges.toList.IsChain Precedes := by decide +kernel

/-- A code point lies in a range of the table. -/
def WordTable.Has (point : Nat) : Prop :=
  ∃ range ∈ ranges, range.1 ≤ point ∧ point ≤ range.2

lemma inRanges_iff {ranges : Array (Nat × Nat)} (ascend : ranges.toList.Pairwise Precedes)
    {point low high : Nat} (bounded : high ≤ ranges.size) :
    inRanges ranges point low high = true ↔
      ∃ i range, low ≤ i ∧ i < high ∧ ranges[i]? = some range ∧
        range.1 ≤ point ∧ point ≤ range.2 := by
  have before {i j : Nat} {a b : Nat × Nat} (less : i < j) (ha : ranges[i]? = some a)
      (hb : ranges[j]? = some b) : Precedes a b := by
    rw [Array.getElem?_eq_some_iff] at ha hb
    obtain ⟨hi, rfl⟩ := ha
    obtain ⟨hj, rfl⟩ := hb
    exact List.pairwise_iff_getElem.1 ascend i j hi hj less
  fun_induction inRanges ranges point low high with
  | case1 low high nonempty middle missing =>
    rw [Array.getElem?_eq_none_iff] at missing
    omega
  | case2 low high nonempty middle first last found less ih =>
    refine (ih (by omega)).trans ?_
    constructor
    · rintro ⟨i, range, hl, hh, at_i, lower, upper⟩
      exact ⟨i, range, hl, by omega, at_i, lower, upper⟩
    · rintro ⟨i, range, hl, hh, at_i, lower, upper⟩
      refine ⟨i, range, hl, ?_, at_i, lower, upper⟩
      -- the ranges from the middle on begin behind the code point
      by_contra later
      rcases Nat.eq_or_lt_of_le (Nat.le_of_not_lt later) with rfl | later
      · rw [found] at at_i
        cases at_i
        omega
      · have := before later found at_i
        unfold Precedes at this
        omega
  | case3 low high nonempty middle first last found notLess greater ih =>
    refine (ih bounded).trans ?_
    constructor
    · rintro ⟨i, range, hl, hh, at_i, lower, upper⟩
      exact ⟨i, range, by omega, hh, at_i, lower, upper⟩
    · rintro ⟨i, range, hl, hh, at_i, lower, upper⟩
      refine ⟨i, range, ?_, hh, at_i, lower, upper⟩
      -- the ranges up to the middle end before the code point
      by_contra earlier
      rcases Nat.eq_or_lt_of_le (Nat.le_of_not_lt earlier) with same | earlier
      · obtain rfl : i = middle := by omega
        rw [found] at at_i
        cases at_i
        omega
      · have := before (show i < middle by omega) at_i found
        unfold Precedes at this
        omega
  | case4 low high nonempty middle first last found notLess notGreater =>
    refine iff_of_true rfl ⟨middle, (first, last), by omega, by omega, found, ?_, ?_⟩ <;> omega
  | case5 low high exhausted =>
    refine iff_of_false Bool.false_ne_true ?_
    rintro ⟨i, range, hl, hh, -⟩
    omega

lemma WordTable.has_of_isAlphanum {c : Char} (h : c.isAlphanum = true) : Has c.toNat := by
  have listed : (0x30, 0x39) ∈ ranges ∧ (0x41, 0x5A) ∈ ranges ∧ (0x61, 0x7A) ∈ ranges := by
    decide +kernel
  delta Char.isAlphanum Char.isAlpha Char.isUpper Char.isLower Char.isDigit at h
  simp only [Bool.or_eq_true, Bool.and_eq_true, decide_eq_true_eq, UInt32.le_iff_toNat_le] at h
  rcases h with (⟨lower, upper⟩ | ⟨lower, upper⟩) | ⟨lower, upper⟩
  · exact ⟨_, listed.2.1, lower, upper⟩
  · exact ⟨_, listed.2.2, lower, upper⟩
  · exact ⟨_, listed.1, lower, upper⟩

theorem isWordChar_iff (c : Char) : isWordChar c = true ↔ WordTable.Has c.toNat := by
  have ascend : WordTable.ranges.toList.Pairwise Precedes :=
    haveI : IsTrans (Nat × Nat) Precedes := ⟨fun _ _ _ => Precedes.trans⟩
    List.isChain_iff_pairwise.1 WordTable.isChain_ranges
  rw [isWordChar, Bool.or_eq_true, inRanges_iff ascend (Nat.le_refl _)]
  constructor
  · rintro (alphanum | ⟨i, range, -, -, found, bounds⟩)
    · exact WordTable.has_of_isAlphanum alphanum
    · exact ⟨range, Array.mem_of_getElem? found, bounds⟩
  · rintro ⟨range, mem, bounds⟩
    obtain ⟨i, found⟩ := Array.getElem?_of_mem mem
    have small : i < WordTable.ranges.size := (Array.getElem?_eq_some_iff.1 found).1
    exact .inr ⟨i, range, Nat.zero_le i, small, found, bounds⟩

end ImageRegistry
