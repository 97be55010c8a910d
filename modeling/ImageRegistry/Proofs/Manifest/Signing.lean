import ImageRegistry.Proofs.Json.Splicing
import ImageRegistry.Proofs.Manifest.Body
import ImageRegistry.Proofs.Manifest.Recognition
import ImageRegistry.Proofs.Text.Base64Url
import ImageRegistry.Proofs.Text.Octets
import Mathlib.Algebra.Group.Nat.Defs

/-! Signing a schema 1 manifest. The payload that is put together is read back, unless the body
has a member for signatures already, for then the payload has two of them. -/

namespace ImageRegistry

open Json

namespace LegacySignature

def keyFields (s : LegacySignature) : List (String × Option Json) := [
  ("kty", some (.text s.keyType)),
  ("crv", if s.curve.isEmpty then none else some (.text s.curve)),
  ("x", if s.point.isEmpty then none else some (.text s.point))]

lemma toJson_eq (s : LegacySignature) : s.toJson = record [
    ("header", some (record [("jwk", some (record s.keyFields)),
      ("alg", some (.text s.algorithm))])),
    ("signature", some (.text s.signature)), ("protected", some (.text s.header))] := by
  unfold toJson keyFields
  by_cases curve : s.curve.isEmpty = true <;> by_cases point : s.point.isEmpty = true <;>
    simp only [curve, point, if_true] <;> rfl

lemma isTidy_toJson (depth : Nat) (s : LegacySignature) : s.toJson.IsTidy (depth + 3) := by
  have key : (record s.keyFields).IsTidy (depth + 1) :=
    .record (by simp [keyFields]) (by simp [keyFields, IsTidy.text])
  have header : (record [("jwk", some (record s.keyFields)),
      ("alg", some (.text s.algorithm))]).IsTidy (depth + 2) :=
    .record (by simp) (by simp [key, IsTidy.text])
  rw [toJson_eq]
  exact .record (by simp) (by simp [header, IsTidy.text])

lemma isPlain_toJson (s : LegacySignature) : s.toJson.IsPlain := (s.isTidy_toJson 0).isPlain

lemma ofJson?_toJson (s : LegacySignature) : ofJson? s.toJson = some s := by
  obtain ⟨keyType, curve, point, algorithm, signature, header⟩ := s
  by_cases hc : curve.isEmpty = true <;> by_cases hp : point.isEmpty = true <;>
    simp only [toJson, hc, hp, if_true] <;>
    simp [ofJson?, ofMembers, Fields.ofJson?, Fields.collect?, Fields.required, Fields.defaulted,
      Fields.get?, List.lookup_cons, Json.text, text?] <;>
    simp_all

end LegacySignature

namespace ProtectedHeader

lemma isPlain_toJson (h : ProtectedHeader) : h.toJson.IsPlain := by
  refine isPlain_ofMembers ?_
  simp only [List.mem_cons, List.not_mem_nil, or_false, forall_eq_or_imp, forall_eq]
  exact ⟨.natural _, .string _, .string _⟩

lemma ofJson?_toJson (h : ProtectedHeader) (fits : h.formatLength < 2 ^ 64) :
    ofJson? h.toJson = some h := by
  have fits' : h.formatLength < 18446744073709551616 := fits
  simp [toJson, ofJson?, ofMembers, Fields.ofJson?, Fields.collect?, Fields.required,
    Fields.defaulted, Fields.get?, List.lookup_cons, Json.text, text?, natural, word64?, natural?,
    Number.natural?, fits']

lemma restore_encode {h : ProtectedHeader} (fits : h.formatLength < 2 ^ 64) {tail : Octets}
    (hasTail : h.formatTail = Base64Url.encode tail) {payload : Octets}
    (long : h.formatLength ≤ payload.length) :
    restore (Base64Url.encode h.toJson.compact) payload =
      .ok (payload.take h.formatLength ++ tail) := by
  unfold restore
  rw [Base64Url.decode?_encode]
  simp only [parse?_compact h.isPlain_toJson, Option.bind_some, ofJson?_toJson h fits, hasTail,
    Base64Url.decode?_encode, if_neg (Nat.not_lt.2 long)]
  rfl

end ProtectedHeader

namespace LegacyManifest

/-- Whether a payload is an object with a member for signatures, be it empty. -/
def mentionsSignatures (payload : Octets) : Bool :=
  match parse? payload with
  | some (.object members) => members.any fun m => m.1 == Octets.ofText "signatures"
  | _ => false

lemma facts_of_isSpace {b : UInt8} (h : Token.isSpace b = true) :
    (b != 125) = true ∧ isFiller b = true := by
  simp only [Token.isSpace, Bool.or_eq_true, beq_iff_eq] at h
  rcases h with ((rfl | rfl) | rfl) | rfl <;> decide

lemma isFiller_of_lt {b : UInt8} (h : 32 < b) : isFiller b = false := by
  by_contra filler
  rw [Bool.not_eq_false] at filler
  simp only [isFiller, Bool.or_eq_true, beq_iff_eq] at filler
  rcases filler with (((rfl | rfl) | rfl) | rfl) | rfl <;> revert h <;> decide

lemma formatLength_eq {p q r : Octets} (solid : Token.EndsSolid p)
    (blank : ∀ b ∈ q, Token.isSpace b = true) (blank' : ∀ b ∈ r, Token.isSpace b = true) :
    formatLength (p ++ (q ++ 125 :: r)) = .ok p.length := by
  have behind : (r.reverse ++ 125 :: (q.reverse ++ p.reverse)).dropWhile (· != 125) =
      125 :: (q.reverse ++ p.reverse) := by
    rw [List.dropWhile_append_of_pos]
    · rfl
    · exact fun b mem => (facts_of_isSpace (blank' b (List.mem_reverse.1 mem))).1
  have before : (q.reverse ++ p.reverse).dropWhile isFiller = p.reverse := by
    rw [List.dropWhile_append_of_pos]
    · cases h : p.reverse with
      | nil => rfl
      | cons b rest =>
        have last : b ∈ p.getLast? := by
          rw [← List.head?_reverse, h]
          rfl
        rw [List.dropWhile_cons, isFiller_of_lt (solid b last), if_neg Bool.false_ne_true]
    · exact fun b mem => (facts_of_isSpace (blank b (List.mem_reverse.1 mem))).2
  have reversed :
      (p ++ (q ++ 125 :: r)).reverse = r.reverse ++ 125 :: (q.reverse ++ p.reverse) := by simp
  unfold formatLength
  rw [reversed, behind]
  simp only [before, List.length_reverse]
  rfl

lemma ofPayload_eq_ok_iff {payload : Octets} {m : LegacyManifest} :
    ofPayload payload = .ok m ↔ m.payload = payload ∧
      (parse? payload).bind signatures? = some m.signatures ∧
      restoreAll payload m.signatures = .ok m.canonical ∧ readBody m.canonical = .ok m.body := by
  unfold ofPayload
  constructor
  · intro h
    cases hs : (parse? payload).bind signatures? with
    | none => rw [hs] at h; cases h
    | some signatures =>
      rw [hs] at h
      cases hr : restoreAll payload signatures with
      | error e => simp only [hr, bind, Except.bind] at h; cases h
      | ok canonical =>
        cases hb : readBody canonical with
        | error e => simp only [hr, hb, bind, Except.bind] at h; cases h
        | ok body =>
          simp only [hr, hb, bind, Except.bind] at h
          obtain rfl := Except.ok.inj h
          exact ⟨rfl, rfl, hr, hb⟩
  · rintro ⟨rfl, hs, hr, hb⟩
    simp only [hs, hr, hb, bind, Except.bind, pure, Except.pure]

lemma shape_of_signatures? {v : Json} {signatures : List LegacySignature}
    (h : signatures? v = some signatures) :
    (∃ members fields, v = .object members ∧
      Fields.collect? ["signatures"] false members [] = some fields) ∨
        ∃ items, v = .array items ∧ items.length ≤ 1 := by
  obtain ⟨fields, collected, -⟩ := Option.bind_eq_some_iff.1 h
  cases v with
  | object members => exact .inl ⟨members, fields, rfl, collected⟩
  | array items =>
    rw [Fields.ofJson?] at collected
    split_ifs at collected with short
    exact .inr ⟨items, rfl, short⟩
  | null | bool | number | string => cases collected

/-- What is read from a payload without signatures: the payload is an object, and it is the body
itself. -/
lemma facts_of_unsigned {payload : Octets} {m : LegacyManifest} (h : ofPayload payload = .ok m)
    (unsigned : m.isSigned = false) :
    m.canonical = payload ∧ readBody payload = .ok m.body ∧ ∃ members fields,
      parse? payload = some (.object members) ∧
        Fields.collect? ["signatures"] false members [] = some fields := by
  obtain ⟨-, hs, hr, hb⟩ := ofPayload_eq_ok_iff.1 h
  have none : m.signatures = [] := by simpa [isSigned] using unsigned
  rw [none] at hs hr
  have canonical : payload = m.canonical := Except.ok.inj hr
  rw [← canonical] at hb
  obtain ⟨v, hv, found⟩ := Option.bind_eq_some_iff.1 hs
  refine ⟨canonical.symm, hb, ?_⟩
  obtain ⟨members, fields, rfl, collected⟩ | ⟨items, rfl, short⟩ := shape_of_signatures? found
  · exact ⟨members, fields, hv, collected⟩
  · exact absurd hb (readBody_of_array hv short m.body)

lemma scans_signatures (s : LegacySignature) :
    Token.Breaks (Octets.ofText ",\n  \"signatures\": " ++ (Json.array [s.toJson]).pretty) ∧
      Token.Scans (Octets.ofText ",\n  \"signatures\": " ++ (Json.array [s.toJson]).pretty)
        (.comma :: .string (Octets.ofText "signatures") :: .colon ::
          tokens (.array [s.toJson])) := by
  have plain : (Json.array [s.toJson]).IsPlain := .array fun v mem => by
    rw [List.mem_singleton.1 mem]
    exact s.isPlain_toJson
  have key : Token.Scans (10 :: 32 :: 32 :: literal (Octets.ofText "signatures"))
      [.string (Octets.ofText "signatures")] :=
    .space (by decide) (.space (by decide) (.space (by decide) (scans_literal _)))
  have value : Token.Scans (32 :: (Json.array [s.toJson]).pretty) (tokens (.array [s.toJson])) :=
    .space (by decide) (scans_indented plain 0)
  have text : Octets.ofText ",\n  \"signatures\": " =
      44 :: (10 :: 32 :: 32 :: literal (Octets.ofText "signatures")) ++ [58, 32] := by decide
  rw [text]
  refine ⟨breaks_cons (by decide) _, ?_⟩
  have all := scans_mark (b := 44) rfl (by decide) (key.append
    (scans_mark (b := 58) rfl (by decide) value) (breaks_cons (by decide) _))
  simpa using all

/-- A payload with one signature, from which the body is restored, is read, whatever other members
it has. -/
lemma ofPayload_of_signature {canonical payload : Octets} {s : LegacySignature} {body : LegacyBody}
    {members more : List (Octets × Json)}
    (parsed : parse? payload =
      some (.object (members ++ (Octets.ofText "signatures", .array [s.toJson]) :: more)))
    (absent : Fields.collect? ["signatures"] false members [] = some ⟨[]⟩)
    (others : ∀ m ∈ more, ∃ text, m.1.toText? = some text ∧ text ∉ ["signatures"])
    (restores : ProtectedHeader.restore s.header payload = .ok canonical)
    (read : readBody canonical = .ok body) :
    ofPayload payload = .ok { body, canonical, payload, signatures := [s] } := by
  have found :
      signatures? (.object (members ++ (Octets.ofText "signatures", .array [s.toJson]) :: more)) =
        some [s] := by
    rw [signatures?, Fields.ofJson?, Fields.collect?_append, absent]
    simp [Fields.collect?, Fields.collect?_of_others others, Fields.defaulted, Fields.get?, list?,
      s.ofJson?_toJson]
  unfold ofPayload
  rw [parsed, Option.bind_some, found]
  simp only [restoreAll, restores, restoreAll.agree, bind, Except.bind, pure, Except.pure, read]

/-- The protected header of a body that is cut after `length` octets. -/
def cutHeader (canonical : Octets) (length : Nat) (time : String) : ProtectedHeader where
  formatLength := length
  formatTail := Base64Url.encode (canonical.drop length)
  time := time

def signatureOver (scheme : SignatureScheme) (seed canonical : Octets) (header : ProtectedHeader) :
    LegacySignature where
  keyType := "OKP"
  curve := LegacySignature.supportedCurve
  point := Base64Url.encode (scheme.publicKey seed)
  algorithm := LegacySignature.supportedAlgorithm
  signature := Base64Url.encode (scheme.sign seed
    (LegacySignature.signingInput (Base64Url.encode header.toJson.compact) canonical))
  header := Base64Url.encode header.toJson.compact

lemma sign_eq (scheme : SignatureScheme) (seed : Octets) (time : String) (m : LegacyManifest) :
    m.sign scheme seed time = (formatLength m.canonical).map fun length =>
      let s := signatureOver scheme seed m.canonical (cutHeader m.canonical length time)
      { m with
        payload := splice m.canonical length (Json.array [s.toJson]).pretty
        signatures := [s] } := by
  unfold sign
  cases formatLength m.canonical <;> rfl

/-- A signature is written behind the members of a payload, and it does not matter what other
members are written behind it: the payload can be restored. -/
lemma exists_splice {payload : Octets} {m : LegacyManifest} (h : ofPayload payload = .ok m)
    (unsigned : m.isSigned = false) (short : payload.length < 2 ^ 64) (scheme : SignatureScheme)
    (seed : Octets) (time : String) :
    ∃ length s members fields, formatLength m.canonical = .ok length ∧
      s = signatureOver scheme seed m.canonical (cutHeader m.canonical length time) ∧
      parse? payload = some (.object members) ∧
      Fields.collect? ["signatures"] false members [] = some fields ∧
      ∀ behind more, Adds behind more →
        parse? (splice m.canonical length ((Json.array [s.toJson]).pretty ++ behind)) =
          some (.object (members ++ (Octets.ofText "signatures", .array [s.toJson]) :: more)) ∧
        ProtectedHeader.restore s.header
          (splice m.canonical length ((Json.array [s.toJson]).pretty ++ behind)) =
            .ok payload := by
  obtain ⟨canonical, hb, members, fields, hv, collected⟩ := facts_of_unsigned h unsigned
  have some' : members ≠ [] := by
    rintro rfl
    unfold readBody at hb
    rw [hv] at hb
    cases hb
  obtain ⟨p, q, r, rfl, solid, blank, blank', opens⟩ := exists_opens some' hv
  have cut : formatLength m.canonical = .ok p.length := by
    rw [canonical, formatLength_eq solid blank blank']
  generalize hheader : cutHeader m.canonical p.length time = header
  generalize hs : signatureOver scheme seed m.canonical header = s
  refine ⟨p.length, s, members, fields, cut, by rw [hheader, hs], hv, collected,
    fun behind more adds => ?_⟩
  have spliced : splice m.canonical p.length ((Json.array [s.toJson]).pretty ++ behind) =
      p ++ ((Octets.ofText ",\n  \"signatures\": " ++ (Json.array [s.toJson]).pretty) ++ behind) ++
        (q ++ 125 :: r) := by
    rw [canonical, splice, List.take_left, List.drop_left]
    simp
  rw [spliced]
  constructor
  · have block : Adds (Octets.ofText ",\n  \"signatures\": " ++ (Json.array [s.toJson]).pretty)
        [(Octets.ofText "signatures", .array [s.toJson])] :=
      adds_member (.array fun v mem => by rw [List.mem_singleton.1 mem]; exact s.isPlain_toJson)
        (scans_signatures s).1 (scans_signatures s).2
    exact (block.append adds p members opens).parse?_close blank blank'
  · have length : header.formatLength = p.length := by rw [← hheader]; rfl
    have tail : header.formatTail = Base64Url.encode (q ++ 125 :: r) := by
      rw [← hheader, cutHeader, canonical, List.drop_left]
    have encoded : s.header = Base64Url.encode header.toJson.compact := by rw [← hs]; rfl
    rw [List.length_append] at short
    rw [encoded, List.append_assoc,
      ProtectedHeader.restore_encode (by omega) tail (by simp [length]), length, List.take_left]

/-- Signing a manifest without signatures puts a member for them behind the members of its
payload, and the payload can be restored from it. -/
lemma exists_sign {payload : Octets} {m : LegacyManifest} (h : ofPayload payload = .ok m)
    (unsigned : m.isSigned = false) (short : payload.length < 2 ^ 64) (scheme : SignatureScheme)
    (seed : Octets) (time : String) :
    ∃ signed s members fields, m.sign scheme seed time = .ok signed ∧
      signed = { m with payload := signed.payload, signatures := [s] } ∧
      parse? payload = some (.object members) ∧
      Fields.collect? ["signatures"] false members [] = some fields ∧
      parse? signed.payload =
        some (.object (members ++ [(Octets.ofText "signatures", .array [s.toJson])])) ∧
      ProtectedHeader.restore s.header signed.payload = .ok payload := by
  obtain ⟨length, s, members, fields, cut, made, hv, collected, spliced⟩ :=
    exists_splice h unsigned short scheme seed time
  obtain ⟨parsed, restores⟩ := spliced [] [] adds_nil
  rw [List.append_nil] at parsed restores
  have signs : m.sign scheme seed time = .ok { m with
      payload := splice m.canonical length (Json.array [s.toJson]).pretty
      signatures := [s] } := by
    rw [sign_eq, cut, made]
    rfl
  exact ⟨_, s, members, fields, signs, rfl, hv, collected, parsed, restores⟩

lemma collect?_of_clear {payload : Octets} {members : List (Octets × Json)} {fields : Fields}
    (clear : mentionsSignatures payload = false) (parsed : parse? payload = some (.object members))
    (collected : Fields.collect? ["signatures"] false members [] = some fields) :
    fields.entries = [] :=
  Fields.collect?_of_absent (fun m mem name isName text => by
    rw [List.mem_singleton.1 isName] at text
    simp only [mentionsSignatures, parsed, List.any_eq_false] at clear
    exact clear m mem (by simp [Octets.ofText_of_toText? text])) collected

theorem ofPayload_sign {payload : Octets} {m signed : LegacyManifest}
    (h : ofPayload payload = .ok m) (unsigned : m.isSigned = false)
    (clear : mentionsSignatures payload = false) (short : payload.length < 2 ^ 64)
    {scheme : SignatureScheme} {seed : Octets} {time : String}
    (signs : m.sign scheme seed time = .ok signed) :
    ofPayload signed.payload = .ok signed ∧ ∃ members v,
      parse? payload = some (.object members) ∧
        parse? signed.payload = some (.object (members ++ [(Octets.ofText "signatures", v)])) := by
  obtain ⟨signed', s, members, fields, signs', shape, hv, collected, parsed, restores⟩ :=
    exists_sign h unsigned short scheme seed time
  obtain rfl := Except.ok.inj (signs.symm.trans signs')
  refine ⟨?_, members, _, hv, parsed⟩
  obtain ⟨canonical, hb, -⟩ := facts_of_unsigned h unsigned
  have absent : Fields.collect? ["signatures"] false members [] = some ⟨[]⟩ := by
    rw [collected, ← collect?_of_clear clear hv collected]
  rw [ofPayload_of_signature parsed absent (by simp) restores hb, shape, canonical]

end LegacyManifest

namespace Manifest

lemma outline_of_legacy {declared : Option String} {payload : Octets} {m : LegacyManifest}
    (h : ofPayload declared payload = .ok (legacy m)) :
    LegacyManifest.ofPayload payload = .ok m ∧ ∃ v o, parse? payload = some v ∧
      Outline.ofJson? v = some o ∧ o.schemaVersion = 1 := by
  obtain ⟨v, o, hv, ho, version | version⟩ := outline_of_ofPayload h
  · rw [ofPayload_of_legacy hv ho version] at h
    refine ⟨?_, v, o, hv, ho, version⟩
    cases read : LegacyManifest.ofPayload payload with
    | error e => rw [read] at h; cases h
    | ok m' => rw [read] at h; cases h; rfl
  · rw [ofPayload_of_outline hv ho version] at h
    cases decided : o.decide declared with
    | error e => rw [decided] at h; cases h
    | ok t =>
      rw [decided] at h
      change ofTyped t payload v = _ at h
      unfold ofTyped at h
      split_ifs at h
      · cases read : DockerImage.ofJson payload v <;> (rw [read] at h; cases h)
      · cases read : ImageIndex.ofJson .docker payload v <;> (rw [read] at h; cases h)
      · cases read : ImageIndex.ofJson .oci payload v <;> (rw [read] at h; cases h)
      · cases read : OciImage.ofJson payload v <;> (rw [read] at h; cases h)

lemma Outline.ofJson?_append (members : List (Octets × Json)) (v : Json) :
    ofJson? (.object (members ++ [(Octets.ofText "signatures", v)])) =
      ofJson? (.object members) := by
  have same : Fields.ofJson? ["schemaVersion", "mediaType", "manifests"] false
      (.object (members ++ [(Octets.ofText "signatures", v)])) =
        Fields.ofJson? ["schemaVersion", "mediaType", "manifests"] false (.object members) := by
    rw [Fields.ofJson?, Fields.collect?_append, Fields.ofJson?]
    cases Fields.collect? ["schemaVersion", "mediaType", "manifests"] false members [] with
    | none => rfl
    | some fields => simp [Fields.collect?]
  rw [ofJson?, same]
  rfl

/-- A schema 1 manifest that does not mention signatures is read back once it was signed,
whatever it was declared to be. -/
theorem ofPayload_sign {declared : Option String} {payload : Octets} {m signed : LegacyManifest}
    (h : ofPayload declared payload = .ok (legacy m)) (unsigned : m.isSigned = false)
    (clear : LegacyManifest.mentionsSignatures payload = false) (short : payload.length < 2 ^ 64)
    {scheme : SignatureScheme} {seed : Octets} {time : String}
    (signs : m.sign scheme seed time = .ok signed) :
    ofPayload none signed.payload = .ok (legacy signed) := by
  obtain ⟨read, v, o, hv, ho, version⟩ := outline_of_legacy h
  obtain ⟨again, members, w, parsed, parsed'⟩ :=
    LegacyManifest.ofPayload_sign read unsigned clear short signs
  obtain rfl := Option.some.inj (hv.symm.trans parsed)
  rw [ofPayload_of_legacy parsed' ((Outline.ofJson?_append members w).trans ho) version, again]
  rfl

end Manifest
end ImageRegistry
