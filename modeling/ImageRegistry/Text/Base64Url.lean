import ImageRegistry.Text.Octets

/-! Base64 text in the alphabet for URLs, without padding. Each group of octets has one text:
a group whose unused bits are not zero is refused. -/

namespace ImageRegistry.Base64Url

/-- The character of a number below sixty-four. -/
def symbol (n : Nat) : Char :=
  if n < 26 then Char.ofNat (65 + n)
  else if n < 52 then Char.ofNat (71 + n)
  else if n < 62 then Char.ofNat (n - 4)
  else if n = 62 then '-'
  else '_'

def value? (c : Char) : Option Nat :=
  let n := c.toNat
  if 65 ≤ n ∧ n ≤ 90 then some (n - 65)
  else if 97 ≤ n ∧ n ≤ 122 then some (n - 71)
  else if 48 ≤ n ∧ n ≤ 57 then some (n + 4)
  else if c = '-' then some 62
  else if c = '_' then some 63
  else none

/-- The text of octets after the characters already written, the last one first. -/
def encodeFrom : Octets → List Char → List Char
  | a :: b :: c :: rest, written =>
    let n := (a.toNat * 256 + b.toNat) * 256 + c.toNat
    encodeFrom rest
      (symbol (n % 64) :: symbol (n / 64 % 64) :: symbol (n / 4096 % 64) ::
        symbol (n / 262144) :: written)
  | [a, b], written =>
    let n := (a.toNat * 256 + b.toNat) * 4
    (symbol (n % 64) :: symbol (n / 64 % 64) :: symbol (n / 4096) :: written).reverse
  | [a], written =>
    let n := a.toNat * 16
    (symbol (n % 64) :: symbol (n / 64) :: written).reverse
  | [], written => written.reverse

def encode (o : Octets) : String := String.ofList (encodeFrom o [])

/-- The octets of some characters after those already read, the last one first. -/
def decodeFrom? : List Char → Octets → Option Octets
  | a :: b :: c :: d :: rest, read =>
    match value? a, value? b, value? c, value? d with
    | some a, some b, some c, some d =>
      let n := ((a * 64 + b) * 64 + c) * 64 + d
      decodeFrom? rest
        (UInt8.ofNat n :: UInt8.ofNat (n / 256) :: UInt8.ofNat (n / 65536) :: read)
    | _, _, _, _ => none
  | [a, b, c], read =>
    match value? a, value? b, value? c with
    | some a, some b, some c =>
      let n := (a * 64 + b) * 64 + c
      if n % 4 = 0 then some (UInt8.ofNat (n / 4) :: UInt8.ofNat (n / 1024) :: read).reverse
      else none
    | _, _, _ => none
  | [a, b], read =>
    match value? a, value? b with
    | some a, some b =>
      let n := a * 64 + b
      if n % 16 = 0 then some (UInt8.ofNat (n / 16) :: read).reverse else none
    | _, _ => none
  | [_], _ => none
  | [], read => some read.reverse

def decode? (s : String) : Option Octets := decodeFrom? s.toList []

end ImageRegistry.Base64Url
