import ImageRegistry.Text.Octets

/-! Signature schemes: keys made from seeds, signing, and verifying. -/

namespace ImageRegistry

/-- A way to sign octets and to verify signatures. -/
structure SignatureScheme where
  /-- The public key that belongs to a seed. -/
  publicKey : Octets → Octets
  /-- Signs a message with the key of a seed. -/
  sign : (seed message : Octets) → Octets
  /-- Whether octets are a public key. -/
  isPublicKey : Octets → Bool
  /-- Whether a signature was made over a message with the secret of a public key. -/
  verify : (key message signature : Octets) → Bool

end ImageRegistry
