import ImageRegistry.Proofs.Manifest.Verifying
import ImageRegistry.Proofs.Text.Splitting
import Mathlib.Data.Set.Insert

/-! What it means that a schema 1 manifest verifies. A signature is made over one text, from which
the header and the body are told apart. So a body that verifies under a key was signed with it,
under that header, as long as signatures cannot be forged. -/

namespace ImageRegistry

namespace Base64Url

lemma dot_ne_symbol {n : Nat} (h : n < 64) : '.' ≠ symbol n := by
  revert n
  decide

lemma dot_not_mem_encodeFrom (o : Octets) : '.' ∉ encodeFrom o [] := by
  match o with
  | [] => exact List.not_mem_nil
  | [a] =>
    have ha := a.toNat_lt
    simp only [encodeFrom, List.mem_reverse, List.mem_cons, List.not_mem_nil, or_false, not_or]
    exact ⟨dot_ne_symbol (by omega), dot_ne_symbol (by omega)⟩
  | [a, b] =>
    have ha := a.toNat_lt
    have hb := b.toNat_lt
    simp only [encodeFrom, List.mem_reverse, List.mem_cons, List.not_mem_nil, or_false, not_or]
    exact ⟨dot_ne_symbol (by omega), dot_ne_symbol (by omega), dot_ne_symbol (by omega)⟩
  | a :: b :: c :: rest =>
    have ha := a.toNat_lt
    have hb := b.toNat_lt
    have hc := c.toNat_lt
    rw [encodeFrom, encodeFrom_eq, List.mem_append, not_or]
    refine ⟨?_, dot_not_mem_encodeFrom rest⟩
    simp only [List.mem_reverse, List.mem_cons, List.not_mem_nil, or_false, not_or]
    exact ⟨dot_ne_symbol (by omega), dot_ne_symbol (by omega), dot_ne_symbol (by omega),
      dot_ne_symbol (by omega)⟩

lemma dot_not_mem_encode (o : Octets) : '.' ∉ (encode o).toList := by
  rw [encode, String.toList_ofList]
  exact dot_not_mem_encodeFrom o

lemma encode_injective {o p : Octets} (h : encode o = encode p) : o = p := by
  have := congrArg decode? h
  rw [decode?_encode, decode?_encode] at this
  exact Option.some.inj this

end Base64Url

lemma LegacySignature.signingInput_inj {header header' : String} {canonical canonical' : Octets} :
    signingInput header canonical = signingInput header' canonical' ↔
      header = header' ∧ canonical = canonical' := by
  constructor
  · intro same
    have text := congrArg String.toList (Octets.ofText_injective same)
    have chars (h : String) (c : Octets) : s!"{h}.{Base64Url.encode c}".toList =
        h.toList ++ '.' :: (Base64Url.encode c).toList := by
      simp [toString, String.toList_append]
    rw [chars, chars, append_separator_inj (Base64Url.dot_not_mem_encode _)
      (Base64Url.dot_not_mem_encode _)] at text
    exact ⟨String.toList_inj.1 text.1, Base64Url.encode_injective (String.toList_inj.1 text.2)⟩
  · rintro ⟨rfl, rfl⟩
    rfl

/-- No signature can be forged: what verifies under a key was signed with it. -/
def SignatureScheme.IsUnforgeable (scheme : SignatureScheme)
    (signedWith : (key message : Octets) → Prop) : Prop :=
  ∀ key message signature, scheme.verify key message signature = true → signedWith key message

/-- A call that signs a manifest. -/
structure SigningCall where
  manifest : LegacyManifest
  time : String

namespace SigningCall

/-- What a call makes of the manifest with the key of a seed. -/
def result (call : SigningCall) (scheme : SignatureScheme) (seed : Octets) :
    Except ManifestFault LegacyManifest :=
  call.manifest.sign scheme seed call.time

/-- A message that is signed in a call: the header that was made, and the body. -/
def Signs (call : SigningCall) (scheme : SignatureScheme) (seed message : Octets) : Prop :=
  ∃ signed s, call.result scheme seed = .ok signed ∧ signed.signatures = [s] ∧
    message = LegacySignature.signingInput s.header signed.canonical

variable {call : SigningCall} {scheme scheme' : SignatureScheme} {seed : Octets}

/-- The signature that is made in a call, if the body is cut after `length` octets. -/
def signature (call : SigningCall) (scheme : SignatureScheme) (seed : Octets) (length : Nat) :
    LegacySignature :=
  LegacyManifest.signatureOver scheme seed call.manifest.canonical
    (LegacyManifest.cutHeader call.manifest.canonical length call.time)

lemma result_eq (call : SigningCall) (scheme : SignatureScheme) (seed : Octets) :
    call.result scheme seed =
      (LegacyManifest.formatLength call.manifest.canonical).map fun length =>
        { call.manifest with
          payload := LegacyManifest.splice call.manifest.canonical length
            (Json.array [(call.signature scheme seed length).toJson]).pretty
          signatures := [call.signature scheme seed length] } := by
  rw [result, LegacyManifest.sign_eq]
  rfl

lemma exists_result (call : SigningCall) (scheme : SignatureScheme) (seed : Octets) {length : Nat}
    (cut : LegacyManifest.formatLength call.manifest.canonical = .ok length) :
    ∃ signed, call.result scheme seed = .ok signed ∧
      signed.signatures = [call.signature scheme seed length] ∧
      signed.canonical = call.manifest.canonical := by
  rw [result_eq, cut]
  exact ⟨_, rfl, rfl, rfl⟩

lemma signs_of_cut {length : Nat}
    (cut : LegacyManifest.formatLength call.manifest.canonical = .ok length) :
    call.Signs scheme seed (LegacySignature.signingInput
      (call.signature scheme seed length).header call.manifest.canonical) := by
  obtain ⟨signed, result, one, same⟩ := call.exists_result scheme seed cut
  exact ⟨signed, _, result, one, same ▸ rfl⟩

lemma canonical_of_result {signed : LegacyManifest} (h : call.result scheme seed = .ok signed) :
    signed.canonical = call.manifest.canonical := by
  rw [result_eq] at h
  cases cut : LegacyManifest.formatLength call.manifest.canonical with
  | error e => rw [cut] at h; cases h
  | ok length =>
    rw [cut] at h
    obtain rfl := Except.ok.inj h
    rfl

theorem result_congr (key : scheme.publicKey seed = scheme'.publicKey seed)
    (same : ∀ message, call.Signs scheme seed message →
      scheme.sign seed message = scheme'.sign seed message) :
    call.result scheme seed = call.result scheme' seed := by
  rw [result_eq, result_eq]
  cases cut : LegacyManifest.formatLength call.manifest.canonical with
  | error e => simp only [Except.map]
  | ok length =>
    have signed := same _ (signs_of_cut cut)
    have made : call.signature scheme seed length = call.signature scheme' seed length := by
      unfold signature LegacyManifest.signatureOver at signed ⊢
      rw [signed, key]
    simp only [Except.map, made]

end SigningCall

namespace LegacyManifest

variable {scheme : SignatureScheme} {m : LegacyManifest}

/-- A body that verifies is authentic. Let no signature be forged, and let a key have signed in some
calls only. If a payload is read whose signatures verify, one of them with that key, then its body
is the one that was signed in one of these calls, octet by octet, under the header that was made
there. So a payload from which another body is restored is refused. -/
theorem verify_authentic {signedWith : (key message : Octets) → Prop}
    (ideal : scheme.IsUnforgeable signedWith) {seed : Octets} {calls : Set SigningCall}
    (only : ∀ message, signedWith (scheme.publicKey seed) message →
      ∃ call ∈ calls, call.Signs scheme seed message)
    {payload : Octets} (h : ofPayload payload = .ok m) {s : LegacySignature}
    (mem : s ∈ m.signatures) (point : Base64Url.decode? s.point = some (scheme.publicKey seed)) :
    (m.verify scheme = .ok () →
      ∃ call ∈ calls, ∃ signed t, call.result scheme seed = .ok signed ∧ signed.signatures = [t] ∧
        m.canonical = call.manifest.canonical ∧ s.header = t.header ∧
        readBody call.manifest.canonical = .ok m.body) ∧
    ((∀ call ∈ calls, m.canonical ≠ call.manifest.canonical) →
      ∃ fault, m.verify scheme = .error fault) := by
  have authentic : m.verify scheme = .ok () →
      ∃ call ∈ calls, ∃ signed t, call.result scheme seed = .ok signed ∧ signed.signatures = [t] ∧
        m.canonical = call.manifest.canonical ∧ s.header = t.header ∧
        readBody call.manifest.canonical = .ok m.body := by
    intro verifies
    obtain ⟨-, -, key, signature, point', -, -, -, accepts⟩ :=
      LegacySignature.verify_eq_ok_iff.1 (verify_eq_ok_iff.1 verifies s mem)
    obtain rfl := Option.some.inj (point'.symm.trans point)
    obtain ⟨call, known, signed, t, result, one, message⟩ := only _ (ideal _ _ _ accepts)
    obtain ⟨header, canonical⟩ := LegacySignature.signingInput_inj.1 message
    rw [SigningCall.canonical_of_result result] at canonical
    obtain ⟨-, -, -, body⟩ := ofPayload_eq_ok_iff.1 h
    exact ⟨call, known, signed, t, result, one, canonical, header, canonical ▸ body⟩
  refine ⟨authentic, fun altered => ?_⟩
  cases verifies : m.verify scheme with
  | error fault => exact ⟨fault, rfl⟩
  | ok =>
    obtain ⟨call, known, _, _, _, _, canonical, _⟩ := authentic verifies
    exact absurd canonical (altered call known)

section Example

variable {call : SigningCall} {length : Nat}

/-- Ed25519, if the seed for examples is used in a single call only. -/
def singleUse (call : SigningCall) (length : Nat) : SignatureScheme :=
  { Ed25519.scheme with
    verify := fun key message signature =>
      key == Ed25519.publicKey exampleSeed &&
        message == LegacySignature.signingInput
          (call.signature Ed25519.scheme exampleSeed length).header call.manifest.canonical &&
        signature == Ed25519.sign exampleSeed message }

lemma isUnforgeable_singleUse (cut : formatLength call.manifest.canonical = .ok length) :
    (singleUse call length).IsUnforgeable fun key message =>
      key = Ed25519.publicKey exampleSeed ∧
        call.Signs (singleUse call length) exampleSeed message := by
  intro key message signature accepts
  simp only [singleUse, Bool.and_eq_true, beq_iff_eq] at accepts
  obtain ⟨⟨known, same⟩, -⟩ := accepts
  exact ⟨known, same ▸ SigningCall.signs_of_cut cut⟩

lemma verify_singleUse :
    (call.signature (singleUse call length) exampleSeed length).verify (singleUse call length)
      call.manifest.canonical = .ok () := by
  refine verify_signatureOver_of_accepts honours_exampleScheme.length_key
    honours_exampleScheme.isPublicKey ?_
  simp only [singleUse, Ed25519.scheme, SigningCall.signature, signatureOver, beq_self_eq_true,
    Bool.and_self]

/-- What is read back from the plain body, once it was signed in a single call, is what was signed
in that call. -/
theorem plainBody_authentic :
    ∃ call length signed,
      (singleUse call length).IsUnforgeable (fun key message =>
        key = Ed25519.publicKey exampleSeed ∧
          call.Signs (singleUse call length) exampleSeed message) ∧
      call.result (singleUse call length) exampleSeed = .ok signed ∧
      ofPayload signed.payload = .ok signed ∧ signed.isSigned = true ∧
      signed.verify (singleUse call length) = .ok () ∧
      signed.canonical = call.manifest.canonical ∧ call.manifest.canonical = plainBody ∧
      readBody call.manifest.canonical = .ok signed.body := by
  have cuts : (formatLength plainBody).isOk = true := by decide +kernel
  obtain ⟨m, hm, unsigned, -⟩ := exists_ofPayload_plainBody
  obtain ⟨canonical, -⟩ := facts_of_unsigned hm unsigned
  cases cut : formatLength plainBody with
  | error e => rw [cut] at cuts; cases cuts
  | ok length =>
    rw [← canonical] at cut
    generalize hcall : (⟨m, "2016-01-01T00:00:00Z"⟩ : SigningCall) = call
    obtain rfl : m = call.manifest := by rw [← hcall]
    obtain ⟨signed, result, shape, same⟩ :=
      call.exists_result (singleUse call length) exampleSeed cut
    have again : ofPayload signed.payload = .ok signed :=
      (ofPayload_sign hm unsigned mentionsSignatures_plainBody length_plainBody_lt result).1
    have verifies : signed.verify (singleUse call length) = .ok () := by
      rw [verify_eq_ok_iff, shape, same]
      exact List.forall_mem_singleton.2 verify_singleUse
    have ideal := isUnforgeable_singleUse cut
    have mem : call.signature (singleUse call length) exampleSeed length ∈ signed.signatures := by
      rw [shape]
      exact List.mem_singleton_self _
    have point : Base64Url.decode?
        (call.signature (singleUse call length) exampleSeed length).point =
          some ((singleUse call length).publicKey exampleSeed) := Base64Url.decode?_encode _
    have only : ∀ message,
        (singleUse call length).publicKey exampleSeed = Ed25519.publicKey exampleSeed ∧
          call.Signs (singleUse call length) exampleSeed message →
        ∃ c ∈ ({call} : Set SigningCall), c.Signs (singleUse call length) exampleSeed message :=
      fun message signs => ⟨call, rfl, signs.2⟩
    obtain ⟨authentic, -⟩ := verify_authentic ideal only again mem point
    obtain ⟨_, known, _, _, _, _, _, _, body⟩ := authentic verifies
    rw [Set.mem_singleton_iff.1 known] at body
    exact ⟨call, length, signed, ideal, result, again, by rw [isSigned, shape]; rfl, verifies,
      same, canonical, body⟩

end Example

end LegacyManifest
end ImageRegistry
