import ImageRegistry.Text.Blank
import ImageRegistry.Text.Word

/-! Sets of characters, as patterns write them. -/

namespace ImageRegistry

/-- The zeros of the scripts whose decimal digits follow each other from zero to nine. -/
def decimalZeros : List Nat := [
  0x30, 0x660, 0x6F0, 0x7C0, 0x966, 0x9E6, 0xA66, 0xAE6, 0xB66, 0xBE6, 0xC66, 0xCE6, 0xD66,
  0xDE6, 0xE50, 0xED0, 0xF20, 0x1040, 0x1090, 0x17E0, 0x1810, 0x1946, 0x19D0, 0x1A80, 0x1A90,
  0x1B50, 0x1BB0, 0x1C40, 0x1C50, 0xA620, 0xA8D0, 0xA900, 0xA9D0, 0xA9F0, 0xAA50, 0xABF0,
  0xFF10, 0x104A0, 0x10D30, 0x10D40, 0x11066, 0x110F0, 0x11136, 0x111D0, 0x112F0, 0x11450,
  0x114D0, 0x11650, 0x116C0, 0x116D0, 0x116DA, 0x11730, 0x118E0, 0x11950, 0x11BF0, 0x11C50,
  0x11D50, 0x11DA0, 0x11F50, 0x16A60, 0x16AC0, 0x16B50, 0x1CCF0, 0x1D7CE, 0x1D7D8, 0x1D7E2,
  0x1D7EC, 0x1D7F6, 0x1E140, 0x1E2F0, 0x1E4F0, 0x1E5F1, 0x1E950, 0x1FBF0]

def isDecimalDigit (c : Char) : Bool :=
  decimalZeros.any fun first => first ≤ c.toNat && c.toNat < first + 10

theorem isDecimalDigit_of_isDigit {c : Char} (h : c.isDigit = true) : isDecimalDigit c = true := by
  simp only [Char.isDigit, Bool.and_eq_true, decide_eq_true_eq] at h
  have low : 48 ≤ c.toNat := h.1
  have high : c.toNat ≤ 57 := h.2
  simp only [isDecimalDigit, decimalZeros, List.any_cons, Bool.or_eq_true, Bool.and_eq_true,
    decide_eq_true_eq]
  left
  omega

/-- A set of characters. -/
inductive CharSet where
  | range (first last : Char)
  /-- Word characters. -/
  | word
  /-- Decimal digits. -/
  | digit
  /-- White space. -/
  | blank
  | union (s t : CharSet)
  | inter (s t : CharSet)
  | complement (s : CharSet)
  /-- The characters that agree with a member but for their case. -/
  | anyCase (s : CharSet)
  deriving Repr

namespace CharSet

def single (c : Char) : CharSet := range c c

def empty : CharSet := inter (single 'a') (single 'b')

def ascii : CharSet := range (Char.ofNat 0) (Char.ofNat 127)

def unionAll (sets : List CharSet) : CharSet :=
  match sets with
  | [] => empty
  | [s] => s
  | s :: rest => union s (unionAll rest)

def ofRanges (ranges : List (Char × Char)) : CharSet :=
  unionAll (ranges.map fun (first, last) => range first last)

def minus (s t : CharSet) : CharSet := inter s (complement t)

def symmetricDifference (s t : CharSet) : CharSet := union (minus s t) (minus t s)

/-- The code points of the characters that agree with a character but for their case. -/
def caseVariants (c : Char) : List Nat :=
  let n := c.toNat
  if 0x41 ≤ n ∧ n ≤ 0x5A then
    (n + 32) :: (if n = 0x4B then [0x212A] else if n = 0x53 then [0x17F] else [])
  else if 0x61 ≤ n ∧ n ≤ 0x7A then
    (n - 32) :: (if n = 0x6B then [0x212A] else if n = 0x73 then [0x17F] else [])
  else if n = 0x212A then [0x4B, 0x6B]
  else if n = 0x17F then [0x53, 0x73]
  else if n = 0x212B then [0xC5, 0xE5]
  else if n = 0xC5 ∨ n = 0xE5 then [0xC5, 0xE5, 0x212B]
  else if n = 0xFF ∨ n = 0x178 then [0xFF, 0x178]
  else if n = 0xB5 ∨ n = 0x39C ∨ n = 0x3BC then [0xB5, 0x39C, 0x3BC]
  else if n = 0x3A3 ∨ n = 0x3C2 ∨ n = 0x3C3 then [0x3A3, 0x3C2, 0x3C3]
  else if 0xC0 ≤ n ∧ n ≤ 0xDE ∧ n ≠ 0xD7 then [n + 32]
  else if 0xE0 ≤ n ∧ n ≤ 0xFE ∧ n ≠ 0xF7 then [n - 32]
  else if (0x100 ≤ n ∧ n ≤ 0x12F) ∨ (0x132 ≤ n ∧ n ≤ 0x137) ∨ (0x14A ≤ n ∧ n ≤ 0x177) then
    [if n % 2 = 0 then n + 1 else n - 1]
  else if (0x139 ≤ n ∧ n ≤ 0x148) ∨ (0x179 ≤ n ∧ n ≤ 0x17E) then
    [if n % 2 = 1 then n + 1 else n - 1]
  else if (0x391 ≤ n ∧ n ≤ 0x3AB) ∨ (0x410 ≤ n ∧ n ≤ 0x42F) then [n + 32]
  else if (0x3B1 ≤ n ∧ n ≤ 0x3CB) ∨ (0x430 ≤ n ∧ n ≤ 0x44F) then [n - 32]
  else if 0x400 ≤ n ∧ n ≤ 0x40F then [n + 80]
  else if 0x450 ≤ n ∧ n ≤ 0x45F then [n - 80]
  else []

def contains : CharSet → Char → Bool
  | range first last, c => first ≤ c && c ≤ last
  | word, c => isWordChar c
  | digit, c => isDecimalDigit c
  | blank, c => isBlank c
  | union s t, c => s.contains c || t.contains c
  | inter s t, c => s.contains c && t.contains c
  | complement s, c => !s.contains c
  | anyCase s, c => s.contains c || (caseVariants c).any fun n => s.contains (Char.ofNat n)

/-- How many octets have to be told apart, roughly, to recognise a member of a set. -/
def weight : CharSet → Nat
  | range first last => if first = last ∨ last.toNat < 128 then 1 else 8
  | word => 2000
  | digit => 200
  | blank => 10
  | union s t | inter s t => s.weight + t.weight
  | complement s => s.weight + 10
  | anyCase s => s.weight + 1

end CharSet
end ImageRegistry
