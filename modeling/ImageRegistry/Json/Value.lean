import ImageRegistry.Text.Octets

/-! JSON documents as trees. A string is kept as the octets that its literal spells, so a
document may hold strings that are no text. -/

namespace ImageRegistry

/-- A number as a document writes it. -/
structure Json.Number where
  negative : Bool := false
  /-- The part before the point. -/
  whole : Nat
  /-- The digits after the point. -/
  fraction : Option (List Nat) := none
  exponent : Option Int := none
  deriving DecidableEq, Repr

/-- A JSON document. -/
inductive Json where
  | null
  | bool (value : Bool)
  | number (value : Json.Number)
  | string (octets : Octets)
  | array (items : List Json)
  /-- Members stand in the order in which they are written. -/
  | object (members : List (Octets × Json))
  deriving Repr

namespace Json

def text (s : String) : Json := .string (Octets.ofText s)

/-- The number that is written as a natural number. -/
def natural (n : Nat) : Json := .number ⟨false, n, none, none⟩

def ofMembers (members : List (String × Json)) : Json :=
  .object (members.map fun (k, v) => (Octets.ofText k, v))

namespace Number

/-- The natural number that is written without sign, point and exponent. -/
def natural? : Number → Option Nat
  | ⟨false, n, none, none⟩ => some n
  | _ => none

/-- The decimal digits of a number, the highest first. -/
def digits (n : Nat) : List Nat := (Nat.toDigits 10 n).map fun c => c.toNat - 48

/-- The greatest number of 64 bits. -/
def maxWord : Nat := UInt64.size - 1

/-- The longest leading piece of some digits that fits into 64 bits, as a number, and how many
digits it has. -/
def leading : List Nat → Nat → Nat → Nat × Nat
  | [], value, count => (value, count)
  | d :: ds, value, count =>
    if value * 10 + d ≤ maxWord then leading ds (value * 10 + d) (count + 1) else (value, count)

/-- The nearest number that has at most 53 significant bits; of two, the one with the even
significand. -/
def roundToDouble (n : Nat) : Nat :=
  let shift := n.log2 + 1 - 53
  let low := n % 1 <<< shift
  let high := n >>> shift
  let up := if 2 * low = 1 <<< shift then high % 2 = 1 else 1 <<< shift < 2 * low
  if shift = 0 then n else (if up then high + 1 else high) <<< shift

/-- Whether a double can hold the number. The digits that fit into 64 bits are scaled by a
power of ten, each factor and the product rounded to double precision. -/
def isFinite (n : Number) : Bool :=
  let whole := digits n.whole
  let (value, kept) := leading (whole ++ n.fraction.getD []) 0 0
  let scale := n.exponent.getD 0 + whole.length - kept
  value == 0 || scale < 0 ||
    (scale ≤ 308 &&
      roundToDouble value * roundToDouble (Nat.pow 10 scale.toNat) < 1 <<< 1024 - 1 <<< 970)

end Number
end Json
end ImageRegistry
