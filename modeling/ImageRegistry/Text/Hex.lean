import ImageRegistry.Text.Octets

/-! Hexadecimal text of octets. Writing uses lower case digits, two for each octet;
reading takes both cases and names the first offence. -/

namespace ImageRegistry.Hex

/-- The lower case hexadecimal digit of a number below sixteen. -/
def digit (n : Nat) : Char :=
  if n < 10 then Char.ofNat (48 + n) else Char.ofNat (87 + n)

def isLowerDigit (c : Char) : Bool :=
  (48 ≤ c.toNat && c.toNat ≤ 57) || (97 ≤ c.toNat && c.toNat ≤ 102)

def octetDigits (b : UInt8) : List Char := [digit (b.toNat / 16), digit (b.toNat % 16)]

def encodeChars (o : Octets) : List Char := o.flatMap octetDigits

def encode (o : Octets) : String := String.ofList (encodeChars o)

/-- Why a text is not the hexadecimal form of octets. -/
inductive Fault where
  /-- The number of digits is odd. -/
  | oddLength
  /-- An octet that is no hexadecimal digit, with its position. -/
  | invalidDigit (octet : UInt8) (position : Nat)
  deriving Repr, DecidableEq

/-- The wording of a fault. The offending octet is shown as the character of that number. -/
def Fault.message : Fault → String
  | oddLength => "Odd number of digits"
  | invalidDigit b i => s!"Invalid character '{Char.ofNat b.toNat}' at position {i}"

def digitValue? (b : UInt8) : Option Nat :=
  if 48 ≤ b ∧ b ≤ 57 then some (b.toNat - 48)
  else if 97 ≤ b ∧ b ≤ 102 then some (b.toNat - 87)
  else if 65 ≤ b ∧ b ≤ 70 then some (b.toNat - 55)
  else none

/-- Reads pairs of digits, of which the first stands at `position`. -/
def decodePairs : Nat → Octets → Octets → Except Fault Octets
  | position, high :: low :: rest, read =>
    match digitValue? high, digitValue? low with
    | some h, some l => decodePairs (position + 2) rest (UInt8.ofNat (h * 16 + l) :: read)
    | none, _ => .error (.invalidDigit high position)
    | some _, none => .error (.invalidDigit low (position + 1))
  | _, _, read => .ok read.reverse

/-- The octets that a hexadecimal text stands for. The length is checked first. -/
def decode (o : Octets) : Except Fault Octets :=
  if o.length % 2 ≠ 0 then .error .oddLength else decodePairs 0 o []

theorem isLowerDigit_digit {n : Nat} (h : n < 16) : isLowerDigit (digit n) = true := by
  have : ∀ n, n < 16 → isLowerDigit (digit n) = true := by decide
  exact this n h

theorem length_encodeChars (o : Octets) : (encodeChars o).length = 2 * o.length := by
  induction o with
  | nil => rfl
  | cons b o ih =>
    simp only [encodeChars, List.flatMap_cons, List.length_append, List.length_cons] at ih ⊢
    simp only [ih, octetDigits, List.length_cons, List.length_nil]
    omega

theorem all_isLowerDigit_encodeChars (o : Octets) :
    (encodeChars o).all isLowerDigit = true := by
  induction o with
  | nil => rfl
  | cons b o ih =>
    have high : b.toNat / 16 < 16 := by have := b.toNat_lt; omega
    have low : b.toNat % 16 < 16 := by omega
    simp only [encodeChars, List.flatMap_cons, List.all_append] at ih ⊢
    simp [ih, octetDigits, isLowerDigit_digit high, isLowerDigit_digit low]

end ImageRegistry.Hex
