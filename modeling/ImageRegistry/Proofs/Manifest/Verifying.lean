import ImageRegistry.Crypto.Ed25519
import ImageRegistry.Proofs.Manifest.Signing

/-! What a signed manifest is worth: its signature verifies, and its payload is read back as the
body that was signed, unless the body has a member for signatures already. -/

namespace ImageRegistry

open Json

/-- The key of a seed is well formed, and accepts what is signed with the seed. -/
structure SignatureScheme.Honours (scheme : SignatureScheme) (seed : Octets) : Prop where
  length_key : (scheme.publicKey seed).length = 32
  isPublicKey : scheme.isPublicKey (scheme.publicKey seed) = true
  verify_sign : ∀ message,
    scheme.verify (scheme.publicKey seed) message (scheme.sign seed message) = true

lemma LegacySignature.verify_eq_ok_iff {scheme : SignatureScheme} {canonical : Octets}
    {s : LegacySignature} : s.verify scheme canonical = .ok () ↔
      s.algorithm = supportedAlgorithm ∧ s.curve = supportedCurve ∧
        ∃ key signature, Base64Url.decode? s.point = some key ∧ key.length = 32 ∧
          scheme.isPublicKey key = true ∧ Base64Url.decode? s.signature = some signature ∧
          scheme.verify key (signingInput s.header canonical) signature = true := by
  unfold verify
  by_cases unsupported : s.algorithm ≠ supportedAlgorithm ∨ s.curve ≠ supportedCurve
  · rw [if_pos unsupported]
    refine iff_of_false (by rintro ⟨⟩) ?_
    rintro ⟨algorithm, curve, -⟩
    exact unsupported.elim (· algorithm) (· curve)
  obtain ⟨algorithm, curve⟩ := not_or.1 unsupported
  rw [if_neg unsupported, and_iff_right (not_not.1 algorithm), and_iff_right (not_not.1 curve)]
  cases hk : Base64Url.decode? s.point with
  | none => exact iff_of_false (by rintro ⟨⟩) (by simp)
  | some key =>
    simp only [Option.some.injEq, exists_and_left, exists_eq_left']
    by_cases long : key.length ≠ 32
    · rw [if_pos long]
      exact iff_of_false (by rintro ⟨⟩) fun sound => long sound.1
    rw [if_neg long, and_iff_right (not_not.1 long)]
    cases known : scheme.isPublicKey key with
    | false => exact iff_of_false (by rintro ⟨⟩) (by simp)
    | true =>
      cases hs : Base64Url.decode? s.signature with
      | none => exact iff_of_false (by rintro ⟨⟩) (by simp)
      | some signature =>
        cases accepts : scheme.verify key (signingInput s.header canonical) signature with
        | false =>
          refine iff_of_false ?_ (by simp [accepts])
          simp only [accepts]
          rintro ⟨⟩
        | true =>
          refine iff_of_true ?_ (by simp [accepts])
          simp only [accepts]
          rfl

namespace LegacyManifest

variable {scheme : SignatureScheme} {seed : Octets} {m signed : LegacyManifest} {time : String}

lemma verify_eq_ok_iff :
    m.verify scheme = .ok () ↔ ∀ s ∈ m.signatures, s.verify scheme m.canonical = .ok () := by
  unfold verify
  generalize m.signatures = signatures
  induction signatures with
  | nil => simp [List.forM_eq_forM, pure, Except.pure]
  | cons s rest ih =>
    rw [List.forM_eq_forM, List.forM_cons, List.forall_mem_cons, ← ih]
    cases s.verify scheme m.canonical with
    | error fault => simp [bind, Except.bind]
    | ok => simp [bind, Except.bind]

lemma verify_signatureOver_of_accepts {canonical : Octets} {header : ProtectedHeader}
    (length_key : (scheme.publicKey seed).length = 32)
    (isPublicKey : scheme.isPublicKey (scheme.publicKey seed) = true)
    (accepts :
      let message :=
        LegacySignature.signingInput (Base64Url.encode header.toJson.compact) canonical
      scheme.verify (scheme.publicKey seed) message (scheme.sign seed message) = true) :
    (signatureOver scheme seed canonical header).verify scheme canonical = .ok () :=
  LegacySignature.verify_eq_ok_iff.2 ⟨rfl, rfl, _, _, Base64Url.decode?_encode _, length_key,
    isPublicKey, Base64Url.decode?_encode _, accepts⟩

lemma verify_signatureOver (honours : scheme.Honours seed) (canonical : Octets)
    (header : ProtectedHeader) :
    (signatureOver scheme seed canonical header).verify scheme canonical = .ok () :=
  verify_signatureOver_of_accepts honours.length_key honours.isPublicKey (honours.verify_sign _)

theorem verify_sign (honours : scheme.Honours seed) (signs : m.sign scheme seed time = .ok signed) :
    signed.isSigned = true ∧ signed.body = m.body ∧ signed.canonical = m.canonical ∧
      signed.verify scheme = .ok () := by
  rw [sign_eq] at signs
  cases length : formatLength m.canonical with
  | error e => rw [length] at signs; cases signs
  | ok n =>
    rw [length] at signs
    obtain rfl := Except.ok.inj signs
    have verifies := verify_signatureOver honours m.canonical (cutHeader m.canonical n time)
    exact ⟨rfl, rfl, rfl, verify_eq_ok_iff.2 (List.forall_mem_singleton.2 verifies)⟩

lemma ofPayload_of_mentions {payload again : Octets} {members : List (Octets × Json)} {v : Json}
    {fields : Fields} (mentions : mentionsSignatures payload = true)
    (parsed : parse? payload = some (.object members))
    (collected : Fields.collect? ["signatures"] false members [] = some fields)
    (parsed' : parse? again = some (.object (members ++ [(Octets.ofText "signatures", v)]))) :
    ofPayload again = .error (.malformed "no signatures") := by
  have given : (fields.entries.lookup "signatures").isSome = true := by
    have named : memberNamed? "signatures" members ≠ none := fun absent => by
      simp only [mentionsSignatures, parsed, List.any_eq_true, beq_iff_eq] at mentions
      obtain ⟨m, mem, key⟩ := mentions
      exact memberNamed?_eq_none_iff.1 absent m mem (by rw [key, Octets.toText?_ofText])
    have got := Fields.get?_of_collect? (List.mem_singleton_self "signatures") collected
    rw [Fields.get?, List.lookup_nil, Option.none_or] at got
    rw [got]
    exact Option.isSome_iff_ne_none.2 named
  have refused : signatures? (.object (members ++ [(Octets.ofText "signatures", v)])) = none := by
    rw [signatures?, Fields.ofJson?, Fields.collect?_append, collected]
    simp [Fields.collect?, given]
  unfold ofPayload
  rw [parsed', Option.bind_some, refused]
  rfl

lemma version_of_readBody {payload : Octets} {members : List (Octets × Json)} {body : LegacyBody}
    (h : readBody payload = .ok body) (parsed : parse? payload = some (.object members)) :
    ∃ members', genericMembers? 126 members = some members' ∧
      (memberNamed? "schemaVersion" members').bind word32? = some 1 := by
  obtain ⟨one, members', generic, told⟩ := (readBody_iff_told parsed).1 h
  obtain ⟨v, named, version⟩ := told "schemaVersion" (by decide)
  refine ⟨members', generic?_object.1 generic, ?_⟩
  rw [named, Option.bind_some, ← one]
  exact version

lemma word32?_of_generic? {depth : Nat} {v : Json} {n : Nat}
    (h : (generic? depth v).bind word32? = some n) : word32? v = some n := by
  obtain ⟨w, hw, word⟩ := Option.bind_eq_some_iff.1 h
  cases v with
  | number x =>
    rw [generic?] at hw
    split_ifs at hw
    exact Option.some.inj hw ▸ word
  | string o =>
    obtain ⟨t, -, rfl⟩ := Option.map_eq_some_iff.1 hw
    cases word
  | array items =>
    cases depth with
    | zero => cases hw
    | succ depth =>
      obtain ⟨items', -, rfl⟩ := Option.map_eq_some_iff.1 hw
      cases word
  | object members =>
    cases depth with
    | zero => cases hw
    | succ depth =>
      obtain ⟨members', -, rfl⟩ := Option.map_eq_some_iff.1 hw
      cases word
  | null | bool b => exact Option.some.inj hw ▸ word

lemma eq_legacy_of_ofPayload {declared : Option String} {payload : Octets} {x : Manifest}
    (h : ofPayload payload = .ok m) (unsigned : m.isSigned = false)
    (read : Manifest.ofPayload declared payload = .ok x) : x = .legacy m := by
  obtain ⟨-, hb, members, -, hv, -⟩ := facts_of_unsigned h unsigned
  obtain ⟨v, o, hv', ho, version⟩ := Manifest.outline_of_ofPayload read
  obtain rfl := Option.some.inj (hv'.symm.trans hv)
  have one : o.schemaVersion = 1 := by
    obtain ⟨members', generic, last⟩ := version_of_readBody hb hv
    simp only [Manifest.Outline.ofJson?, Option.bind_eq_bind, Option.bind_eq_some_iff,
      Option.some.injEq] at ho
    obtain ⟨fields, collected, n, required, _, _, _, _, rfl⟩ := ho
    have got : fields.get? "schemaVersion" = memberNamed? "schemaVersion" members :=
      Fields.get?_of_collect? (by simp) collected
    rw [Fields.memberNamed?_genericMembers? (by simp) collected generic, ← got,
      Option.bind_assoc] at last
    obtain ⟨w, given, word⟩ := Option.bind_eq_some_iff.1 last
    obtain ⟨w', given', word'⟩ := Option.bind_eq_some_iff.1 required
    obtain rfl := Option.some.inj (given.symm.trans given')
    exact Option.some.inj (word'.symm.trans (word32?_of_generic? word))
  rw [Manifest.ofPayload_of_legacy hv ho one, h] at read
  exact (Except.ok.inj read).symm

/-- Signing a manifest that carries no signature always succeeds. The payload is read back as the
manifest that was signed, whether it is read as a schema 1 manifest or as one of any format, but
for the payloads that have a member for signatures: these get a second one, and are refused. -/
theorem sign_reread {payload : Octets} (h : ofPayload payload = .ok m)
    (unsigned : m.isSigned = false) (short : payload.length < 2 ^ 64)
    (honours : scheme.Honours seed) (time : String) :
    ∃ signed, m.sign scheme seed time = .ok signed ∧ signed.isSigned = true ∧
      signed.body = m.body ∧ signed.canonical = m.canonical ∧ signed.verify scheme = .ok () ∧
      ofPayload signed.payload =
        (if mentionsSignatures payload then .error (.malformed "no signatures")
        else .ok signed) ∧
      ∀ declared x, Manifest.ofPayload declared payload = .ok x →
        x = .legacy m ∧ Manifest.ofPayload none signed.payload =
          (if mentionsSignatures payload then .error (.malformed "no signatures")
          else .ok (.legacy signed)) := by
  obtain ⟨signed, s, members, fields, signs, -, hv, collected, parsed, -⟩ :=
    exists_sign h unsigned short scheme seed time
  obtain ⟨isSigned, body, canonical, verifies⟩ := verify_sign honours signs
  have again : ofPayload signed.payload =
      if mentionsSignatures payload then .error (.malformed "no signatures") else .ok signed := by
    split_ifs with mentions
    · exact ofPayload_of_mentions mentions hv collected parsed
    · exact (ofPayload_sign h unsigned (by simpa using mentions) short signs).1
  refine ⟨signed, signs, isSigned, body, canonical, verifies, again, fun declared x read => ?_⟩
  obtain rfl := eq_legacy_of_ofPayload h unsigned read
  obtain ⟨-, v, o, hv', ho, version⟩ := Manifest.outline_of_legacy read
  obtain rfl := Option.some.inj (hv'.symm.trans hv)
  refine ⟨rfl, ?_⟩
  rw [Manifest.ofPayload_of_legacy parsed ((Manifest.Outline.ofJson?_append members _).trans ho)
    version, again]
  split_ifs <;> rfl

def exampleSeed : Octets := List.replicate 32 3

/-- Ed25519 that takes what is signed with the seed on trust. -/
def exampleScheme : SignatureScheme :=
  { Ed25519.scheme with
    verify := fun key message signature =>
      (key == Ed25519.publicKey exampleSeed && signature == Ed25519.sign exampleSeed message) ||
        Ed25519.verify key message signature }

lemma honours_exampleScheme : exampleScheme.Honours exampleSeed where
  length_key := by
    change (Ed25519.toOctets _).length = 32
    simp [Ed25519.toOctets]
  isPublicKey := by decide +kernel
  verify_sign message := by
    simp [exampleScheme, Ed25519.scheme]

/-- A body without layers, with blanks around its closing brace. -/
def plainBody : Octets :=
  Octets.ofText ("\x7b\"schemaVersion\": 1, \"name\": \"library/app\", \"tag\": \"latest\", " ++
    "\"architecture\": \"amd64\", \"fsLayers\": [], \"history\": [] \n\x7d\n")

lemma length_plainBody_lt : plainBody.length < 2 ^ 64 := by decide +kernel

lemma mentionsSignatures_plainBody : mentionsSignatures plainBody = false := by decide +kernel

lemma exists_ofPayload_plainBody :
    ∃ m, ofPayload plainBody = .ok m ∧ m.isSigned = false ∧ m.body.layers = [] := by
  have read : (ofPayload plainBody).toOption.map (fun m => (m.isSigned, m.body.layers)) =
      some (false, []) := by decide +kernel
  cases hm : ofPayload plainBody with
  | error e => rw [hm] at read; cases read
  | ok m =>
    rw [hm] at read
    obtain ⟨unsigned, none⟩ := Prod.mk.inj (Option.some.inj read)
    exact ⟨m, rfl, unsigned, none⟩

/-- The plain body is signed and read back. -/
theorem plainBody_reread :
    ∃ m signed, ofPayload plainBody = .ok m ∧ m.isSigned = false ∧
      m.sign exampleScheme exampleSeed "2016-01-01T00:00:00Z" = .ok signed ∧
      signed.verify exampleScheme = .ok () ∧ ofPayload signed.payload = .ok signed ∧
      Manifest.ofPayload none signed.payload = .ok (.legacy signed) := by
  have unsigned : (ofPayload plainBody).toOption.map isSigned = some false := by decide +kernel
  have known : (Manifest.ofPayload none plainBody).isOk = true := by decide +kernel
  cases hm : ofPayload plainBody with
  | error e => rw [hm] at unsigned; cases unsigned
  | ok m =>
    rw [hm] at unsigned
    have unsigned := Option.some.inj unsigned
    have clear : mentionsSignatures plainBody = false := by decide +kernel
    obtain ⟨signed, signs, -, -, -, verifies, again, untyped⟩ :=
      sign_reread hm unsigned (by decide +kernel) honours_exampleScheme "2016-01-01T00:00:00Z"
    rw [clear, if_neg Bool.false_ne_true] at again
    cases hx : Manifest.ofPayload none plainBody with
    | error e => rw [hx] at known; cases known
    | ok x =>
      have last := (untyped none x hx).2
      rw [clear, if_neg Bool.false_ne_true] at last
      exact ⟨m, signed, rfl, unsigned, signs, verifies, again, last⟩

/-- A body without layers, with an empty list of signatures. -/
def emptySignatures : Octets :=
  Octets.ofText ("\x7b\"schemaVersion\": 1, \"name\": \"library/app\", \"tag\": \"latest\", " ++
    "\"architecture\": \"amd64\", \"fsLayers\": [], \"history\": [], \"signatures\": []\x7d")

/-- The body with an empty list of signatures is read and signed, but not read back. -/
theorem emptySignatures_lost :
    ∃ m signed, ofPayload emptySignatures = .ok m ∧ m.isSigned = false ∧
      m.sign Ed25519.scheme exampleSeed "2016-01-01T00:00:00Z" = .ok signed ∧
      ∀ again, ofPayload signed.payload ≠ .ok again := by
  have unsigned :
      (ofPayload emptySignatures).toOption.map isSigned = some false := by decide +kernel
  have mentions : mentionsSignatures emptySignatures = true := by decide +kernel
  cases hm : ofPayload emptySignatures with
  | error e => rw [hm] at unsigned; cases unsigned
  | ok m =>
    rw [hm] at unsigned
    obtain ⟨signed, s, members, fields, signs, -, hv, collected, parsed, -⟩ :=
      exists_sign hm (Option.some.inj unsigned) (by decide +kernel) Ed25519.scheme exampleSeed
        "2016-01-01T00:00:00Z"
    refine ⟨m, signed, rfl, Option.some.inj unsigned, signs, fun again read => ?_⟩
    rw [ofPayload_of_mentions mentions hv collected parsed] at read
    cases read

end LegacyManifest
end ImageRegistry
