import Mathlib.Tactic.Common
import ImageRegistry.Manifest.Manifest
import ImageRegistry.Proofs.Json.Fields

/-! Which format a payload is read in. What is declared about a payload decides only where the
payload itself does not, so a payload is read again without the declaration, and as the same
manifest, unless it was declared to be an OCI image while it passes for an index. -/

namespace ImageRegistry.Manifest

/-- Whether a document names no media type but has manifests: without a declaration it is then
taken for an index. -/
def Outline.passesForIndex (o : Outline) : Bool :=
  o.schemaVersion == 2 && (nonempty o.mediaType).isNone && o.hasManifests

/-- Whether a payload is a document that passes for an index. -/
def passesForIndex (payload : Octets) : Bool :=
  ((Json.parse? payload).bind Outline.ofJson?).any Outline.passesForIndex

/-- Two manifests of one format, which have the same media type and refer to the same content in
the same order. -/
def Agrees : Manifest → Manifest → Prop
  | m@(legacy _), n@(legacy _) | m@(docker _), n@(docker _) | m@(index _), n@(index _)
  | m@(oci _), n@(oci _) => m.mediaType = n.mediaType ∧ m.references = n.references
  | _, _ => False

lemma Agrees.refl (m : Manifest) : m.Agrees m := by
  cases m <;> exact ⟨rfl, rfl⟩

lemma Outline.fields_of_ofJson? {v : Json} {o : Outline} (h : ofJson? v = some o) :
    ∃ fields, Json.Fields.ofJson? ["schemaVersion", "mediaType", "manifests"] false v =
        some fields ∧
      fields.optional "mediaType" Json.text? = some o.mediaType ∧
      (fields.optional "manifests" (Json.generic? (Json.maxDepth - 1))).map Option.isSome =
        some o.hasManifests := by
  simp only [ofJson?, Option.bind_eq_bind, Option.bind_eq_some_iff, Option.some.injEq] at h
  obtain ⟨fields, hf, _, _, t, ht, found, hm, rfl⟩ := h
  exact ⟨fields, hf, ht, by rw [hm]; rfl⟩

lemma Outline.mediaType_of_docker {payload : Octets} {v : Json} {image : DockerImage} {o : Outline}
    (ho : Outline.ofJson? v = some o) (h : DockerImage.ofJson payload v = .ok image) :
    o.mediaType = some MediaType.dockerImage := by
  obtain ⟨fields, hf, ht, _⟩ := Outline.fields_of_ofJson? ho
  unfold DockerImage.ofJson at h
  split at h
  case h_2 => cases h
  case h_1 version t found hd =>
    have isDocker : t = MediaType.dockerImage := by
      by_contra other
      by_cases hv : version ≠ 2
      · rw [if_pos hv] at h; cases h
      · rw [if_neg hv, if_pos other] at h; cases h
    simp only [DockerImage.ofJson.fields?, Option.bind_eq_bind, Option.bind_eq_some_iff,
      Option.some.injEq, Prod.mk.injEq] at hd
    obtain ⟨fields', hf', _, _, t', ht', _, _, _, _, _, rfl, _⟩ := hd
    have same : fields'.get? "mediaType" = fields.get? "mediaType" :=
      Json.Fields.get?_eq_of_ofJson? ["schemaVersion", "mediaType"] ["config", "layers"]
        ["manifests"] (by simp) hf' hf
    have := Json.Fields.optional_of_required same rfl ht'
    rw [ht, isDocker] at this
    exact Option.some.inj this

/-- What an outline says of a list: its media type is one that the format allows, and it has
manifests. -/
lemma Outline.facts_of_index {format : IndexFormat} {payload : Octets} {v : Json} {m : ImageIndex}
    {o : Outline} (ho : Outline.ofJson? v = some o)
    (h : ImageIndex.ofJson format payload v = .ok m) :
    format.allows o.mediaType = true ∧ o.hasManifests = true := by
  obtain ⟨fields, hf, ht, hm⟩ := Outline.fields_of_ofJson? ho
  unfold ImageIndex.ofJson at h
  split at h
  case h_2 => cases h
  case h_1 version t found hd =>
    have allowed : format.allows t = true := by
      by_contra other
      by_cases hv : version ≠ 2
      · rw [if_pos hv] at h; cases h
      · rw [if_neg hv, if_pos (by simpa using other)] at h; cases h
    simp only [ImageIndex.ofJson.fields?, Option.bind_eq_bind, Option.bind_eq_some_iff,
      Option.some.injEq, Prod.mk.injEq] at hd
    obtain ⟨fields', hf', _, _, t', ht', children, hc, _, _, _, rfl, _⟩ := hd
    have shared : ∀ name ∈ ["schemaVersion", "mediaType", "manifests"],
        fields'.get? name = fields.get? name := fun name mem =>
      Json.Fields.get?_eq_of_ofJson? _ ["annotations"] [] mem hf' hf
    constructor
    · have same := shared "mediaType" (by simp)
      rw [Json.Fields.optional, Json.Fields.defaulted, same] at ht'
      rw [Json.Fields.optional, Json.Fields.defaulted, ht'] at ht
      exact Option.some.inj ht ▸ allowed
    · obtain ⟨value, hv, hr⟩ := Option.bind_eq_some_iff.1 hc
      rw [shared "manifests" (by simp)] at hv
      rw [Json.Fields.optional, Json.Fields.defaulted, hv, Option.elim_some] at hm
      cases value with
      | array items =>
        rw [Json.nullable?_of_ne (by simp)] at hm
        cases hg : (Json.array items).generic? (Json.maxDepth - 1) with
        | none => rw [hg] at hm; cases hm
        | some _ => rw [hg] at hm; exact (Option.some.inj hm).symm
      | null | bool _ | number _ | string _ | object _ => cases hr

/-! A manifest keeps the octets that it was read from. -/

lemma payload_of_docker {payload : Octets} {v : Json} {image : DockerImage}
    (h : DockerImage.ofJson payload v = .ok image) : image.payload = payload := by
  unfold DockerImage.ofJson at h
  split at h
  case h_2 => cases h
  case h_1 version t found hd =>
    simp only [DockerImage.ofJson.fields?, Option.bind_eq_bind, Option.bind_eq_some_iff,
      Option.some.injEq, Prod.mk.injEq] at hd
    obtain ⟨_, _, _, _, _, _, _, _, _, _, _, _, rfl⟩ := hd
    by_cases hv : version ≠ 2
    · rw [if_pos hv] at h; cases h
    · rw [if_neg hv] at h
      by_cases ht : t ≠ MediaType.dockerImage
      · rw [if_pos ht] at h; cases h
      · rw [if_neg ht] at h
        rw [← Except.ok.inj h]

lemma payload_of_index {format : IndexFormat} {payload : Octets} {v : Json} {m : ImageIndex}
    (h : ImageIndex.ofJson format payload v = .ok m) : m.payload = payload := by
  unfold ImageIndex.ofJson at h
  split at h
  case h_2 => cases h
  case h_1 version t found hd =>
    simp only [ImageIndex.ofJson.fields?, Option.bind_eq_bind, Option.bind_eq_some_iff,
      Option.some.injEq, Prod.mk.injEq] at hd
    obtain ⟨_, _, _, _, _, _, _, _, _, _, _, _, rfl⟩ := hd
    by_cases hv : version ≠ 2
    · rw [if_pos hv] at h; cases h
    · rw [if_neg hv] at h
      by_cases ht : (!format.allows t) = true
      · rw [if_pos ht] at h; cases h
      · rw [if_neg ht] at h
        rw [← Except.ok.inj h]

lemma payload_of_oci {payload : Octets} {v : Json} {image : OciImage}
    (h : OciImage.ofJson payload v = .ok image) : image.payload = payload := by
  unfold OciImage.ofJson at h
  split at h
  case h_2 => cases h
  case h_1 version t found hd =>
    simp only [OciImage.ofJson.fields?, Option.bind_eq_bind, Option.bind_eq_some_iff,
      Option.some.injEq, Prod.mk.injEq] at hd
    obtain ⟨_, _, _, _, _, _, _, _, _, _, _, _, _, _, rfl⟩ := hd
    by_cases hv : version ≠ 2
    · rw [if_pos hv] at h; cases h
    · rw [if_neg hv] at h
      cases t with
      | none => rw [← Except.ok.inj h]
      | some t =>
        by_cases ht : t ≠ MediaType.ociImage
        · simp only [if_pos ht] at h; cases h
        · simp only [if_neg ht] at h
          rw [← Except.ok.inj h]

lemma payload_of_legacy {payload : Octets} {m : LegacyManifest}
    (h : LegacyManifest.ofPayload payload = .ok m) : m.payload = payload := by
  unfold LegacyManifest.ofPayload at h
  split at h
  case h_2 => cases h
  case h_1 signatures _ =>
    cases hr : LegacyManifest.restoreAll payload signatures with
    | error e => simp only [hr, bind, Except.bind] at h; cases h
    | ok canonical =>
      cases hb : LegacyManifest.readBody canonical with
      | error e => simp only [hr, hb, bind, Except.bind] at h; cases h
      | ok body =>
        simp only [hr, hb, bind, Except.bind] at h
        rw [← Except.ok.inj h]

lemma ofPayload_of_outline {payload : Octets} {v : Json} {o : Outline}
    (hv : Json.parse? payload = some v) (ho : Outline.ofJson? v = some o)
    (version : o.schemaVersion = 2) (declared : Option String) :
    ofPayload declared payload = (o.decide declared).bind fun t => ofTyped t payload v := by
  unfold ofPayload
  rw [hv]
  simp only [ho, version, bind]

lemma ofPayload_of_legacy {payload : Octets} {v : Json} {o : Outline}
    (hv : Json.parse? payload = some v) (ho : Outline.ofJson? v = some o)
    (version : o.schemaVersion = 1) (declared : Option String) :
    ofPayload declared payload = legacy <$> LegacyManifest.ofPayload payload := by
  unfold ofPayload
  rw [hv]
  simp only [ho, version]

lemma outline_of_ofPayload {declared : Option String} {payload : Octets} {m : Manifest}
    (h : ofPayload declared payload = .ok m) :
    ∃ v o, Json.parse? payload = some v ∧ Outline.ofJson? v = some o ∧
      (o.schemaVersion = 1 ∨ o.schemaVersion = 2) := by
  unfold ofPayload at h
  split at h
  case h_2 => cases h
  case h_1 v hv =>
    split at h
    case h_2 => cases h
    case h_1 o ho =>
      refine ⟨v, o, hv, ho, ?_⟩
      split at h
      case h_1 version => exact .inl version
      case h_2 version => exact .inr version
      case h_3 => cases h

lemma payload_of_ofTyped {t : String} {payload : Octets} {v : Json} {m : Manifest}
    (h : ofTyped t payload v = .ok m) : m.payload = payload := by
  have mapped {α : Type} {f : α → Manifest} {x : Except ManifestFault α} (h : f <$> x = .ok m)
      (kept : ∀ a, x = .ok a → (f a).payload = payload) : m.payload = payload := by
    cases x with
    | error e => cases h
    | ok a => exact Except.ok.inj h ▸ kept a rfl
  unfold ofTyped at h
  split_ifs at h
  · exact mapped h fun _ => payload_of_docker
  · exact mapped h fun _ => payload_of_index
  · exact mapped h fun _ => payload_of_index
  · exact mapped h fun _ => payload_of_oci

theorem payload_of_ofPayload {declared : Option String} {payload : Octets} {m : Manifest}
    (h : ofPayload declared payload = .ok m) : m.payload = payload := by
  obtain ⟨v, o, hv, ho, version | version⟩ := outline_of_ofPayload h
  · rw [ofPayload_of_legacy hv ho version] at h
    cases read : LegacyManifest.ofPayload payload with
    | error e => rw [read] at h; cases h
    | ok l =>
      rw [read] at h
      obtain rfl := Except.ok.inj h
      exact payload_of_legacy read
  · rw [ofPayload_of_outline hv ho version] at h
    cases decided : o.decide declared with
    | error e => rw [decided] at h; cases h
    | ok t =>
      rw [decided] at h
      exact payload_of_ofTyped h

lemma Outline.decide_none_of_mediaType {o : Outline} {declared : Option String} {e t : String}
    (he : nonempty o.mediaType = some e) (h : o.decide declared = .ok t) :
    o.decide none = .ok t := by
  unfold Outline.decide at h ⊢
  rw [he] at h ⊢
  cases hd : nonempty declared with
  | none =>
    rw [hd] at h
    exact h
  | some d =>
    rw [hd] at h
    by_cases different : d ≠ e
    · simp only [if_pos different] at h
      cases h
    · simp only [if_neg different] at h
      exact h

lemma Outline.decide_of_declared {o : Outline} {declared : Option String} {d : String}
    (he : nonempty o.mediaType = none) (hd : nonempty declared = some d) :
    o.decide declared = .ok d := by
  unfold Outline.decide
  rw [he, hd]
  rfl

lemma Outline.decide_of_undeclared {o : Outline} {declared : Option String}
    (he : nonempty o.mediaType = none) (hd : nonempty declared = none) :
    o.decide declared =
      .ok (if o.hasManifests then MediaType.ociIndex else MediaType.ociImage) := by
  unfold Outline.decide
  rw [he, hd]
  rfl

lemma eq_some_of_nonempty {s : Option String} {t : String} (h : nonempty s = some t) :
    s = some t := by
  obtain ⟨given, _⟩ := Option.filter_eq_some_iff.1 h
  exact given

/-- A document that names no media type is read without its declaration in the same way, if it
was read at all, unless it was declared to be an OCI image and has manifests. -/
lemma Outline.ofTyped_undeclared {o : Outline} {d : String} {payload : Octets} {v : Json}
    {m : Manifest} (ho : Outline.ofJson? v = some o) (he : nonempty o.mediaType = none)
    (h : ofTyped d payload v = .ok m) (clear : ¬(d = MediaType.ociImage ∧ o.hasManifests = true)) :
    d = if o.hasManifests then MediaType.ociIndex else MediaType.ociImage := by
  unfold ofTyped at h
  split_ifs at h with isDocker isList isIndex isImage
  · exfalso
    cases hm : DockerImage.ofJson payload v with
    | error e => rw [hm] at h; cases h
    | ok image =>
      rw [Outline.mediaType_of_docker ho hm] at he
      revert he
      decide
  · exfalso
    cases hm : ImageIndex.ofJson .docker payload v with
    | error e => rw [hm] at h; cases h
    | ok list =>
      have allowed := (Outline.facts_of_index ho hm).1
      cases ht : o.mediaType with
      | none => rw [ht] at allowed; cases allowed
      | some t =>
        rw [ht] at allowed he
        rw [(beq_iff_eq.1 allowed : t = _)] at he
        revert he
        decide
  · cases hm : ImageIndex.ofJson .oci payload v with
    | error e => rw [hm] at h; cases h
    | ok list => rw [isIndex, if_pos (Outline.facts_of_index ho hm).2]
  · rw [isImage, if_neg fun has => clear ⟨isImage, has⟩]

/-- What was read with a declaration is read without it, unless the payload was declared to be
an OCI image and passes for an index. -/
lemma ofPayload_none {declared : Option String} {payload : Octets} {m : Manifest}
    (h : ofPayload declared payload = .ok m)
    (clear : ¬(declared = some MediaType.ociImage ∧ passesForIndex payload = true)) :
    ofPayload none payload = .ok m := by
  obtain ⟨v, o, hv, ho, version | version⟩ := outline_of_ofPayload h
  · rw [ofPayload_of_legacy hv ho version] at h ⊢
    exact h
  · rw [ofPayload_of_outline hv ho version] at h ⊢
    cases he : nonempty o.mediaType with
    | some e =>
      cases ht : o.decide declared with
      | error fault => rw [ht] at h; cases h
      | ok t =>
        rw [ht] at h
        rw [Outline.decide_none_of_mediaType he ht]
        exact h
    | none =>
      cases hd : nonempty declared with
      | none =>
        rw [Outline.decide_of_undeclared he hd] at h
        rw [Outline.decide_of_undeclared he rfl]
        exact h
      | some d =>
        rw [Outline.decide_of_declared he hd] at h
        have decided := Outline.ofTyped_undeclared ho he h fun ⟨isImage, has⟩ =>
          clear ⟨isImage ▸ eq_some_of_nonempty hd, by
            simp [passesForIndex, hv, ho, Outline.passesForIndex, version, he, has]⟩
        rw [Outline.decide_of_undeclared he rfl, ← decided]
        exact h

lemma index_of_passesForIndex {payload : Octets} {n : Manifest}
    (passes : passesForIndex payload = true) (h : ofPayload none payload = .ok n) :
    ∃ m, n = index m := by
  obtain ⟨v, o, hv, ho, _⟩ := outline_of_ofPayload h
  simp only [passesForIndex, hv, Option.bind_some, ho, Option.any_some, Outline.passesForIndex,
    Bool.and_eq_true, beq_iff_eq, Option.isNone_iff_eq_none] at passes
  obtain ⟨⟨version, he⟩, has⟩ := passes
  rw [ofPayload_of_outline hv ho version, Outline.decide_of_undeclared he rfl, if_pos has] at h
  change index <$> ImageIndex.ofJson .oci payload v = .ok n at h
  cases hm : ImageIndex.ofJson .oci payload v with
  | error e => rw [hm] at h; cases h
  | ok m => rw [hm] at h; cases h; exact ⟨m, rfl⟩

lemma oci_of_passesForIndex {payload : Octets} {m : Manifest}
    (passes : passesForIndex payload = true)
    (h : ofPayload (some MediaType.ociImage) payload = .ok m) : ∃ image, m = oci image := by
  obtain ⟨v, o, hv, ho, _⟩ := outline_of_ofPayload h
  simp only [passesForIndex, hv, Option.bind_some, ho, Option.any_some, Outline.passesForIndex,
    Bool.and_eq_true, beq_iff_eq, Option.isNone_iff_eq_none] at passes
  obtain ⟨⟨version, he⟩, has⟩ := passes
  have named : nonempty (some MediaType.ociImage) = some MediaType.ociImage := by decide
  rw [ofPayload_of_outline hv ho version, Outline.decide_of_declared he named] at h
  change oci <$> OciImage.ofJson payload v = .ok m at h
  cases hm : OciImage.ofJson payload v with
  | error e => rw [hm] at h; cases h
  | ok image => rw [hm] at h; cases h; exact ⟨image, rfl⟩

/-- A payload that was read with a declaration is read without it as a manifest that agrees,
exactly if it was not declared to be an OCI image while it passes for an index. -/
theorem agrees_undeclared_iff {declared : Option String} {payload : Octets} {m : Manifest}
    (h : ofPayload declared payload = .ok m) :
    (∃ n, ofPayload none payload = .ok n ∧ m.Agrees n) ↔
      ¬(declared = some MediaType.ociImage ∧ passesForIndex payload = true) := by
  constructor
  · rintro ⟨n, hn, agrees⟩ ⟨rfl, passes⟩
    obtain ⟨i, rfl⟩ := index_of_passesForIndex passes hn
    obtain ⟨image, rfl⟩ := oci_of_passesForIndex passes h
    exact agrees
  · intro clear
    exact ⟨m, ofPayload_none h clear, .refl m⟩

/-- An image whose media type and list of manifests are null. -/
def bareImage : Octets :=
  Octets.ofText ("\x7b\"schemaVersion\":2,\"mediaType\":null,\"layers\":[],\"manifests\":null," ++
    "\"config\":\x7b\"digest\":" ++
    "\"sha256:0000000000000000000000000000000000000000000000000000000000000000\"\x7d\x7d")

/-- Manifests that are null do not make an image pass for an index. -/
theorem bareImage_agrees :
    ∃ m, ofPayload (some MediaType.ociImage) bareImage = .ok m ∧
      ∃ n, ofPayload none bareImage = .ok n ∧ m.Agrees n := by
  have read : (ofPayload (some MediaType.ociImage) bareImage).isOk = true := by decide +kernel
  cases hm : ofPayload (some MediaType.ociImage) bareImage with
  | error e => rw [hm] at read; cases read
  | ok m =>
    have clear : passesForIndex bareImage = false := by decide +kernel
    refine ⟨m, rfl, (agrees_undeclared_iff hm).2 fun ⟨_, passes⟩ => ?_⟩
    rw [clear] at passes
    cases passes

/-- A document with the configuration of an image and with a list of manifests. -/
def hybridImage : Octets :=
  Octets.ofText ("\x7b\"schemaVersion\":2,\"layers\":[],\"manifests\":[],\"config\":\x7b" ++
    "\"digest\":\"sha256:0000000000000000000000000000000000000000000000000000000000000000\"" ++
    "\x7d\x7d")

/-- As an image the hybrid document refers to its configuration, and as an index to nothing. -/
theorem hybridImage_disagrees :
    ∃ m n, ofPayload (some MediaType.ociImage) hybridImage = .ok m ∧
      ofPayload none hybridImage = .ok n ∧ m.references.length = 1 ∧ n.references = [] ∧
      ¬m.Agrees n := by
  have evaluated : (match ofPayload (some MediaType.ociImage) hybridImage,
      ofPayload none hybridImage with
    | .ok m, .ok n => m.references.length == 1 && n.references.isEmpty
    | _, _ => false) = true := by decide +kernel
  split at evaluated
  case h_2 => cases evaluated
  case h_1 m n hm hn =>
    simp only [Bool.and_eq_true, beq_iff_eq, List.isEmpty_iff] at evaluated
    refine ⟨m, n, hm, hn, evaluated.1, evaluated.2, fun agrees => ?_⟩
    have same : m.references = n.references := by
      unfold Agrees at agrees
      split at agrees <;> first | exact agrees.2 | exact agrees.elim
    rw [same, evaluated.2] at evaluated
    cases evaluated.1

end ImageRegistry.Manifest
