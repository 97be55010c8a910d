import ImageRegistry.Text.Octets

/-! The hashes SHA-256 and SHA-512. They are one algorithm, but for the length of words, how far
words are rotated, and the constants. Words are numbers below a limit. -/

namespace ImageRegistry.Sha2

/-- The working words. -/
structure State where
  a : Nat
  b : Nat
  c : Nat
  d : Nat
  e : Nat
  f : Nat
  g : Nat
  h : Nat
  deriving DecidableEq

/-- Three distances by which a word is moved, before the results are combined. -/
structure Distances where
  first : Nat
  second : Nat
  third : Nat
  deriving DecidableEq

/-- What the hashes differ in. -/
structure Variant where
  /-- The number of octets in a word. -/
  width : Nat
  /-- What all words are below. -/
  limit : Nat := 1 <<< (8 * width)
  roundLow : Distances
  roundHigh : Distances
  scheduleLow : Distances
  scheduleHigh : Distances
  initial : State
  /-- One constant for each round. -/
  constants : List Nat

namespace Variant

variable (v : Variant)

/-- Rotates the bits of a word to the right. -/
def rotate (x n : Nat) : Nat := (x >>> n) ||| (x <<< (8 * v.width - n)) % v.limit

def rotations (distances : Distances) (x : Nat) : Nat :=
  v.rotate x distances.first ^^^ v.rotate x distances.second ^^^ v.rotate x distances.third

/-- Two rotations and a shift, in which bits are lost. -/
def rotationsAndShift (distances : Distances) (x : Nat) : Nat :=
  v.rotate x distances.first ^^^ v.rotate x distances.second ^^^ (x >>> distances.third)

def round (s : State) (constant word : Nat) : State :=
  let choice := (s.e &&& s.f) ^^^ ((v.limit - 1 - s.e) &&& s.g)
  let majority := (s.a &&& s.b) ^^^ (s.a &&& s.c) ^^^ (s.b &&& s.c)
  let first := s.h + v.rotations v.roundLow s.e + choice + constant + word
  let second := v.rotations v.roundHigh s.a + majority
  ⟨(first + second) % v.limit, s.a, s.b, s.c, (s.d + first) % v.limit, s.e, s.f, s.g⟩

/-- Adds `n` words to a schedule, in which the newest word comes first. -/
def extend : Nat → List Nat → List Nat
  | 0, words => words
  | n + 1, words =>
    let low := v.rotationsAndShift v.scheduleLow (words.getD 14 0)
    let high := v.rotationsAndShift v.scheduleHigh (words.getD 1 0)
    extend n ((words.getD 15 0 + low + words.getD 6 0 + high) % v.limit :: words)

/-- Adds two states word by word. -/
def add (s t : State) : State :=
  ⟨(s.a + t.a) % v.limit, (s.b + t.b) % v.limit, (s.c + t.c) % v.limit, (s.d + t.d) % v.limit,
    (s.e + t.e) % v.limit, (s.f + t.f) % v.limit, (s.g + t.g) % v.limit, (s.h + t.h) % v.limit⟩

/-- Compresses a block of sixteen words, of which the last one comes first. -/
def compress (s : State) (block : List Nat) : State :=
  let schedule := (v.extend (v.constants.length - 16) block).reverse
  v.add s ((v.constants.zip schedule).foldl (fun s kw => v.round s kw.1 kw.2) s)

/-- A message followed by a one bit, zero bits and its length in bits, which takes two words and
fills the last block of sixteen words. -/
def pad (message : Octets) : Octets :=
  let zeros := (30 * v.width - 1 - message.length % (16 * v.width)) % (16 * v.width)
  message ++ (0x80 : UInt8) :: (List.replicate zeros (0 : UInt8) ++
    (List.range (2 * v.width)).reverse.map fun i => UInt8.ofNat ((message.length * 8) >>> (8 * i)))

/-- Reads octets into words and words into blocks, and compresses each full block. -/
def absorb : Octets → (filled word : Nat) → (block : List Nat) → State → State
  | [], _, _, _, s => s
  | b :: rest, filled, word, block, s =>
    let word := word * 256 + b.toNat
    if filled + 1 < v.width then absorb rest (filled + 1) word block s
    else
      let block := word :: block
      if block.length < 16 then absorb rest 0 0 block s
      else absorb rest 0 0 [] (v.compress s block)

/-- The octets of a word, the highest first. -/
def wordOctets (w : Nat) : Octets :=
  (List.range v.width).reverse.map fun i => UInt8.ofNat (w >>> (8 * i))

def octets (s : State) : Octets :=
  [s.a, s.b, s.c, s.d, s.e, s.f, s.g, s.h].flatMap v.wordOctets

def hash (message : Octets) : Octets := v.octets (v.absorb (v.pad message) 0 0 [] v.initial)

theorem length_hash (message : Octets) : (v.hash message).length = 8 * v.width := by
  simp [hash, octets, wordOctets]
  omega

end Variant

def sha256 : Variant where
  width := 4
  roundLow := ⟨6, 11, 25⟩
  roundHigh := ⟨2, 13, 22⟩
  scheduleLow := ⟨7, 18, 3⟩
  scheduleHigh := ⟨17, 19, 10⟩
  initial := ⟨
    0x6a09e667, 0xbb67ae85, 0x3c6ef372, 0xa54ff53a,
    0x510e527f, 0x9b05688c, 0x1f83d9ab, 0x5be0cd19⟩
  constants := [
    0x428a2f98, 0x71374491, 0xb5c0fbcf, 0xe9b5dba5, 0x3956c25b, 0x59f111f1,
    0x923f82a4, 0xab1c5ed5, 0xd807aa98, 0x12835b01, 0x243185be, 0x550c7dc3,
    0x72be5d74, 0x80deb1fe, 0x9bdc06a7, 0xc19bf174, 0xe49b69c1, 0xefbe4786,
    0x0fc19dc6, 0x240ca1cc, 0x2de92c6f, 0x4a7484aa, 0x5cb0a9dc, 0x76f988da,
    0x983e5152, 0xa831c66d, 0xb00327c8, 0xbf597fc7, 0xc6e00bf3, 0xd5a79147,
    0x06ca6351, 0x14292967, 0x27b70a85, 0x2e1b2138, 0x4d2c6dfc, 0x53380d13,
    0x650a7354, 0x766a0abb, 0x81c2c92e, 0x92722c85, 0xa2bfe8a1, 0xa81a664b,
    0xc24b8b70, 0xc76c51a3, 0xd192e819, 0xd6990624, 0xf40e3585, 0x106aa070,
    0x19a4c116, 0x1e376c08, 0x2748774c, 0x34b0bcb5, 0x391c0cb3, 0x4ed8aa4a,
    0x5b9cca4f, 0x682e6ff3, 0x748f82ee, 0x78a5636f, 0x84c87814, 0x8cc70208,
    0x90befffa, 0xa4506ceb, 0xbef9a3f7, 0xc67178f2]

def sha512 : Variant where
  width := 8
  roundLow := ⟨14, 18, 41⟩
  roundHigh := ⟨28, 34, 39⟩
  scheduleLow := ⟨1, 8, 7⟩
  scheduleHigh := ⟨19, 61, 6⟩
  initial := ⟨
    0x6a09e667f3bcc908, 0xbb67ae8584caa73b, 0x3c6ef372fe94f82b, 0xa54ff53a5f1d36f1,
    0x510e527fade682d1, 0x9b05688c2b3e6c1f, 0x1f83d9abfb41bd6b, 0x5be0cd19137e2179⟩
  constants := [
    0x428a2f98d728ae22, 0x7137449123ef65cd, 0xb5c0fbcfec4d3b2f, 0xe9b5dba58189dbbc,
    0x3956c25bf348b538, 0x59f111f1b605d019, 0x923f82a4af194f9b, 0xab1c5ed5da6d8118,
    0xd807aa98a3030242, 0x12835b0145706fbe, 0x243185be4ee4b28c, 0x550c7dc3d5ffb4e2,
    0x72be5d74f27b896f, 0x80deb1fe3b1696b1, 0x9bdc06a725c71235, 0xc19bf174cf692694,
    0xe49b69c19ef14ad2, 0xefbe4786384f25e3, 0x0fc19dc68b8cd5b5, 0x240ca1cc77ac9c65,
    0x2de92c6f592b0275, 0x4a7484aa6ea6e483, 0x5cb0a9dcbd41fbd4, 0x76f988da831153b5,
    0x983e5152ee66dfab, 0xa831c66d2db43210, 0xb00327c898fb213f, 0xbf597fc7beef0ee4,
    0xc6e00bf33da88fc2, 0xd5a79147930aa725, 0x06ca6351e003826f, 0x142929670a0e6e70,
    0x27b70a8546d22ffc, 0x2e1b21385c26c926, 0x4d2c6dfc5ac42aed, 0x53380d139d95b3df,
    0x650a73548baf63de, 0x766a0abb3c77b2a8, 0x81c2c92e47edaee6, 0x92722c851482353b,
    0xa2bfe8a14cf10364, 0xa81a664bbc423001, 0xc24b8b70d0f89791, 0xc76c51a30654be30,
    0xd192e819d6ef5218, 0xd69906245565a910, 0xf40e35855771202a, 0x106aa07032bbd1b8,
    0x19a4c116b8d2d0c8, 0x1e376c085141ab53, 0x2748774cdf8eeb99, 0x34b0bcb5e19b48a8,
    0x391c0cb3c5c95a63, 0x4ed8aa4ae3418acb, 0x5b9cca4f7763e373, 0x682e6ff3d6b2b8a3,
    0x748f82ee5defb2fc, 0x78a5636f43172f60, 0x84c87814a1f0ab72, 0x8cc702081a6439ec,
    0x90befffa23631e28, 0xa4506cebde82bde9, 0xbef9a3f7b2c67915, 0xc67178f2e372532b,
    0xca273eceea26619c, 0xd186b8c721c0c207, 0xeada7dd6cde0eb1e, 0xf57d4f7fee6ed178,
    0x06f067aa72176fba, 0x0a637dc5a2c898a6, 0x113f9804bef90dae, 0x1b710b35131c471b,
    0x28db77f523047d84, 0x32caab7b40c72493, 0x3c9ebe0a15c9bebc, 0x431d67c49c100d4c,
    0x4cc5d4becb3e42b6, 0x597f299cfc657e2a, 0x5fcb6fab3ad6faec, 0x6c44198c4a475817]

end ImageRegistry.Sha2
