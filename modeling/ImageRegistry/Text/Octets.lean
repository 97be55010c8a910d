/-! Octet strings and the UTF-8 text they carry: strict reading refuses what is not
UTF-8, lenient reading puts a replacement character for each ill-formed piece. -/

namespace ImageRegistry

abbrev Octets := List UInt8

namespace Octets

def ofText (s : String) : Octets := s.toUTF8.data.toList

/-- The text that the octets encode, if they are UTF-8. -/
def toText? (o : Octets) : Option String := String.fromUTF8? ⟨o.toArray⟩

/-- What is put in place of octets that encode no character. -/
def replacement : Char := '\uFFFD'

/-- Reads `n` more continuation octets, the first of them between `low` and `high`. -/
def continuation : Nat → UInt8 → UInt8 → Nat → Octets → Char × Octets
  | 0, _, _, value, rest => (Char.ofNat value, rest)
  | _ + 1, _, _, _, [] => (replacement, [])
  | n + 1, low, high, value, c :: rest =>
    if low ≤ c ∧ c ≤ high then
      continuation n 0x80 0xBF (value * 64 + c.toNat % 64) rest
    else (replacement, c :: rest)

theorem length_continuation_le (n : Nat) (low high : UInt8) (value : Nat) (o : Octets) :
    (continuation n low high value o).2.length ≤ o.length := by
  induction n generalizing low high value o with
  | zero => simp [continuation]
  | succ n ih =>
    cases o with
    | nil => simp [continuation]
    | cons c rest =>
      simp only [continuation]
      split
      · exact Nat.le_succ_of_le (ih ..)
      · exact Nat.le_refl _

/-- What the first octet of a character says: how many octets follow, between which bounds the
first of them lies, and the value of the bits so far. -/
def lead? (b : UInt8) : Option (Nat × UInt8 × UInt8 × Nat) :=
  if b < 0x80 then some (0, 0x80, 0xBF, b.toNat)
  else if b < 0xC2 then none
  else if b < 0xE0 then some (1, 0x80, 0xBF, b.toNat - 0xC0)
  else if b = 0xE0 then some (2, 0xA0, 0xBF, 0)
  else if b = 0xED then some (2, 0x80, 0x9F, 0xD)
  else if b < 0xF0 then some (2, 0x80, 0xBF, b.toNat - 0xE0)
  else if b = 0xF0 then some (3, 0x90, 0xBF, 0)
  else if b < 0xF4 then some (3, 0x80, 0xBF, b.toNat - 0xF0)
  else if b = 0xF4 then some (3, 0x80, 0x8F, 4)
  else none

/-- The character that starts with the octet `b`, and what follows it. An ill-formed
piece ends before the first octet that cannot continue it. -/
def nextChar (b : UInt8) (rest : Octets) : Char × Octets :=
  match lead? b with
  | some (n, low, high, value) => continuation n low high value rest
  | none => (replacement, rest)

theorem length_nextChar_le (b : UInt8) (rest : Octets) :
    (nextChar b rest).2.length ≤ rest.length := by
  unfold nextChar
  split
  · exact length_continuation_le ..
  · exact Nat.le_refl _

/-- The characters of the octets, read leniently, before those already read. -/
def lenientChars : Octets → List Char → List Char
  | [], read => read.reverse
  | b :: rest, read =>
    have : (nextChar b rest).2.length < rest.length + 1 :=
      Nat.lt_succ_of_le (length_nextChar_le b rest)
    lenientChars (nextChar b rest).2 ((nextChar b rest).1 :: read)
termination_by o => o.length

/-- The text of the octets; what is not UTF-8 becomes replacement characters. -/
def toTextLenient (o : Octets) : String :=
  match o.toText? with
  | some s => s
  | none => String.ofList (lenientChars o [])

end Octets
end ImageRegistry
