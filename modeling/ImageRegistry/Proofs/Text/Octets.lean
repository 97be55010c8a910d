import Mathlib.Tactic.Common
import ImageRegistry.Reading
import ImageRegistry.Text.Blank
import ImageRegistry.Text.Octets

/-! Texts as octets, and back: what a text is written as is read as that text. -/

namespace ImageRegistry

namespace Octets

lemma ofText_eq (s : String) : (⟨(ofText s).toArray⟩ : ByteArray) = s.toByteArray := by
  simp [ofText]

@[simp] theorem toText?_ofText (s : String) : (ofText s).toText? = some s := by
  rw [toText?, ofText_eq, String.fromUTF8?, dif_pos s.isValidUTF8]
  rfl

theorem ofText_of_toText? {o : Octets} {s : String} (h : o.toText? = some s) : ofText s = o := by
  rw [toText?, String.fromUTF8?] at h
  split_ifs at h
  obtain rfl := Option.some.inj h
  simp [ofText, String.fromUTF8]

theorem ofText_injective {s t : String} (h : ofText s = ofText t) : s = t := by
  have := congrArg toText? h
  rw [toText?_ofText, toText?_ofText] at this
  exact Option.some.inj this

@[simp] lemma toTextLenient_ofText (s : String) : (ofText s).toTextLenient = s := by
  rw [toTextLenient, toText?_ofText]

end Octets

lemma trimBlanks_of_not_blank {s : String} (h : ∀ c ∈ s.toList, isBlank c = false) :
    trimBlanks s = s := by
  have all {cs : List Char} (hcs : ∀ c ∈ cs, isBlank c = false) : cs.dropWhile isBlank = cs := by
    cases cs with
    | nil => rfl
    | cons c cs => rw [List.dropWhile_cons_of_neg (by simp [hcs c List.mem_cons_self])]
  rw [trimBlanks, trimChars, all h, all fun c mem => h c (List.mem_reverse.1 mem),
    List.reverse_reverse, String.ofList_toList]

namespace Digest

lemma eq_of_ofText_text {d e : Digest} (h : Octets.ofText d.text = Octets.ofText e.text) :
    d = e := by
  have := congrArg parse? (Octets.ofText_injective h)
  rw [parse?_text, parse?_text] at this
  exact Option.some.inj this

lemma read_trimBlanks_text (d : Digest) : Digest.read (trimBlanks d.text) = .ok d := by
  rw [trimBlanks_of_not_blank, Digest.read, parse?_text]
  intro c mem
  rw [text, String.toList_append, List.mem_append] at mem
  rcases mem with mem | mem
  · have plain : (algorithm ++ ":").toList.all (fun c => !isBlank c) = true := by decide
    simpa using List.all_eq_true.1 plain c mem
  · have := d.isHex
    simp only [isDigestHex, Bool.and_eq_true, List.all_eq_true] at this
    have digit := this.2 c mem
    simp only [Hex.isLowerDigit, Bool.or_eq_true, Bool.and_eq_true, decide_eq_true_eq] at digit
    simp only [isBlank, Bool.or_eq_false_iff, Bool.and_eq_false_iff, decide_eq_false_iff_not,
      beq_eq_false_iff_ne]
    omega

end Digest
end ImageRegistry
