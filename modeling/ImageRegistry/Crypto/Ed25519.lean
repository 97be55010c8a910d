import ImageRegistry.Crypto.Sha2
import ImageRegistry.Crypto.SignatureScheme

/-! The Ed25519 signature scheme: points of a twisted Edwards curve over the integers modulo
2^255 - 19, and scalars modulo the order of the base point. -/

namespace ImageRegistry.Ed25519

def p : Nat := 1 <<< 255 - 19

def order : Nat := 1 <<< 252 + 27742317777372353535851937790883648493

def power (x : Nat) (n : Nat) : Nat := go n x 1 256
where
  /-- Multiplies `result` by `x` to the `n`, whose remaining binary digits are at most
  `digits`. -/
  go (n x result : Nat) : Nat → Nat
    | 0 => result
    | digits + 1 =>
      if n = 0 then result
      else go (n / 2) (x * x % p) (if n % 2 = 1 then result * x % p else result) digits

/-- The difference of two field elements. -/
def sub (x y : Nat) : Nat := (x + (p - y % p)) % p

def inverse (x : Nat) : Nat := power x (p - 2)

def d : Nat := sub 0 (121665 * inverse 121666 % p)

def rootOfMinusOne : Nat := power 2 ((p - 1) / 4)

/-- A point in extended coordinates: the affine point is x/z, y/z, and t is xy/z. -/
structure Point where
  x : Nat
  y : Nat
  z : Nat
  t : Nat
  deriving DecidableEq, Repr

def Point.zero : Point := ⟨0, 1, 1, 0⟩

def Point.add (u v : Point) : Point :=
  let a := sub u.y u.x * sub v.y v.x % p
  let b := (u.y + u.x) * (v.y + v.x) % p
  let c := u.t * 2 * d % p * v.t % p
  let f := u.z * 2 * v.z % p
  let e := sub b a
  let g := sub f c
  let h := f + c
  let k := b + a
  ⟨e * g % p, h * k % p, g * h % p, e * k % p⟩

def Point.neg (u : Point) : Point := ⟨sub 0 u.x, u.y, u.z, sub 0 u.t⟩

/-- A multiple of a point, by a scalar below 2^256. -/
def Point.mul (n : Nat) (u : Point) : Point := go n u .zero 256
where
  /-- Adds `n` times `u` to `sum`, where `n` has at most `digits` binary digits. -/
  go (n : Nat) (u sum : Point) : Nat → Point
    | 0 => sum
    | digits + 1 =>
      if n = 0 then sum
      else go (n / 2) (u.add u) (if n % 2 = 1 then sum.add u else sum) digits

/-- The number that octets write, the lowest first. -/
def ofOctets (o : Octets) : Nat := o.foldr (fun b n => n * 256 + b.toNat) 0

/-- A number below 2^256 as thirty-two octets, the lowest first. -/
def toOctets (n : Nat) : Octets := (List.range 32).map fun i => UInt8.ofNat (n >>> (8 * i))

/-- The octets of a point: its second coordinate and the lowest bit of the first one. -/
def Point.octets (u : Point) : Octets :=
  let i := inverse u.z
  let x := u.x * i % p
  let y := u.y * i % p
  toOctets (y + (x % 2) <<< 255)

/-- The point that thirty-two octets write. -/
def Point.ofOctets? (o : Octets) : Option Point :=
  if o.length ≠ 32 then none
  else
    let n := ofOctets o
    let y := n % 1 <<< 255 % p
    let odd := n >>> 255
    let u := sub (y * y % p) 1
    let v := (d * (y * y % p) + 1) % p
    let candidate := u * power v 3 % p * power (u * power v 7 % p) ((p - 5) / 8) % p
    let square := v * (candidate * candidate % p) % p
    let root :=
      if square = u then some candidate
      else if square = sub 0 u then some (candidate * rootOfMinusOne % p)
      else none
    root.map fun x =>
      let x := if x % 2 = odd then x else sub 0 x
      ⟨x, y, 1, x * y % p⟩

def base : Point :=
  let x := 15112221349535400772501151409588531511454012693041857206046113283949847762202
  let y := 46316835694926478169428394003475163141307993866256225615783033603165251855960
  ⟨x, y, 1, x * y % p⟩

/-- The secret scalar and the nonce key of a seed. -/
def secret (seed : Octets) : Nat × Octets :=
  let h := Sha2.sha512.hash seed
  let n := ofOctets (h.take 32)
  (n % 1 <<< 254 / 8 * 8 + 1 <<< 254, h.drop 32)

def publicKey (seed : Octets) : Octets := (base.mul (secret seed).1).octets

def sign (seed message : Octets) : Octets :=
  let (a, nonceKey) := secret seed
  let r := ofOctets (Sha2.sha512.hash (nonceKey ++ message)) % order
  let commitment := (base.mul r).octets
  let k := ofOctets (Sha2.sha512.hash (commitment ++ publicKey seed ++ message)) % order
  commitment ++ toOctets ((r + k * a) % order)

/-- Whether a signature over a message belongs to a public key. Its scalar has to be below the
order of the base point, and its commitment is compared in octets. -/
def verify (key message signature : Octets) : Bool :=
  match Point.ofOctets? key with
  | none => false
  | some a =>
    let commitment := signature.take 32
    let s := ofOctets (signature.drop 32)
    let k := ofOctets (Sha2.sha512.hash (commitment ++ key ++ message)) % order
    signature.length == 64 && s < order &&
      ((base.mul s).add (a.neg.mul k)).octets == commitment

def scheme : SignatureScheme where
  publicKey := publicKey
  sign := sign
  isPublicKey key := (Point.ofOctets? key).isSome
  verify := verify

end ImageRegistry.Ed25519
