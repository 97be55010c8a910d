import ImageRegistry.Text.Hex

/-! Percent signs in locations: one before two hexadecimal digits stands with them for an
octet. Other percent signs stand for themselves. -/

namespace ImageRegistry.Percent

def sign : UInt8 := 37

/-- The octet that two digits spell. -/
def pair? (high low : UInt8) : Option UInt8 :=
  match Hex.digitValue? high, Hex.digitValue? low with
  | some h, some l => some (UInt8.ofNat (h * 16 + l))
  | _, _ => none

/-- Reads octets after those already read, which stand in reverse. -/
def decodeAfter (read : Octets) : Octets → Octets
  | [] => read.reverse
  | [a] => (a :: read).reverse
  | [a, b] => (b :: a :: read).reverse
  | a :: b :: c :: rest =>
    if a = sign then
      match pair? b c with
      | some octet => decodeAfter (octet :: read) rest
      | none => decodeAfter (a :: read) (b :: c :: rest)
    else decodeAfter (a :: read) (b :: c :: rest)
termination_by o => o.length

/-- The octets that a text with percent signs stands for. -/
def decode (o : Octets) : Octets := decodeAfter [] o

end ImageRegistry.Percent
