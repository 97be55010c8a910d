import ImageRegistry.Crypto.Sha2
import ImageRegistry.Text.Hex

/-! Content digests. A digest is written as the name of the algorithm, a colon and
sixty-four lower case hexadecimal digits; SHA-256 is the only algorithm. -/

namespace ImageRegistry

/-- Sixty-four lower case hexadecimal digits. -/
def isDigestHex (s : String) : Bool := s.toList.length == 64 && s.toList.all Hex.isLowerDigit

/-- A SHA-256 content digest. -/
structure Digest where
  hex : String
  isHex : isDigestHex hex = true
  deriving DecidableEq

namespace Digest

/-- Digests are ordered as their digits are. -/
instance : Ord Digest := ⟨compareOn Digest.hex⟩

instance : Std.TransOrd Digest :=
  inferInstanceAs (Std.TransCmp (compareOn Digest.hex))

instance : Std.LawfulEqOrd Digest where
  eq_of_compare {a b} h := by
    have h : a.hex = b.hex := Std.compare_eq_iff_eq.1 h
    cases a; cases b; cases h; rfl

def algorithm : String := "sha256"

def ofHex? (s : String) : Option Digest :=
  if h : isDigestHex s = true then some ⟨s, h⟩ else none

def text (d : Digest) : String := "sha256:" ++ d.hex

instance : ToString Digest := ⟨text⟩

/-- The digest that a text is the written form of. -/
def parse? (s : String) : Option Digest :=
  ("sha256:".toList.isPrefixOf? s.toList).bind fun digits => ofHex? (String.ofList digits)

def ofContent (content : Octets) : Digest where
  hex := Hex.encode (Sha2.sha256.hash content)
  isHex := by
    simp [isDigestHex, Hex.encode, Hex.length_encodeChars, Sha2.Variant.length_hash, Sha2.sha256,
      Hex.all_isLowerDigit_encodeChars]

theorem ofHex?_hex (d : Digest) : ofHex? d.hex = some d := by
  simp [ofHex?, d.isHex]

theorem ofHex?_eq_some_iff {s : String} {d : Digest} : ofHex? s = some d ↔ s = d.hex := by
  constructor
  · intro h
    simp only [ofHex?] at h
    split at h
    · cases h; rfl
    · cases h
  · rintro rfl
    exact ofHex?_hex d

/-- The written form is read back. -/
theorem parse?_text (d : Digest) : parse? d.text = some d := by
  have rest : "sha256:".toList.isPrefixOf? ("sha256:".toList ++ d.hex.toList) =
      some d.hex.toList := rfl
  rw [parse?, text, String.toList_append, rest, Option.bind_some, String.ofList_toList, ofHex?_hex]

end Digest
end ImageRegistry
