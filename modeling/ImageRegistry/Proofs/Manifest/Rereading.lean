import ImageRegistry.Manifest.Manifest
import ImageRegistry.Proofs.Json.Rereading
import ImageRegistry.Proofs.Manifest.Recognition

/-! A manifest that was built is read back from its payload, undeclared or declared to be what
it is. -/

namespace ImageRegistry

open Json

lemma Digest.ofJson?_text (d : Digest) : ofJson? (.text d.text) = some d := by
  rw [ofJson?, text?_text, Option.bind_some, parse?_text]

namespace Platform

def fields (p : Platform) : List (String × Option Json) := [
  ("architecture", some (.text p.architecture)), ("os", some (.text p.os)),
  ("os.version", p.osVersion.map .text), ("variant", p.variant.map .text)]

lemma toJson_eq (p : Platform) : p.toJson = record p.fields := by
  obtain ⟨architecture, os, version, variant⟩ := p
  cases version <;> cases variant <;> rfl

lemma isTidy_toJson (depth : Nat) (p : Platform) : p.toJson.IsTidy (depth + 1) := by
  rw [toJson_eq]
  refine .record (by simp [fields]) ?_
  simp [fields, IsTidy.text]

lemma ofJson?_toJson (p : Platform) : ofJson? p.toJson = some p := by
  obtain ⟨f, read, get⟩ := Fields.ofJson?_record
    ["architecture", "os", "os.version", "variant"] p.fields (by simp [fields])
  have architecture : f.required "architecture" text? = some p.architecture :=
    Fields.required_text (get _ (by simp))
  have os : f.required "os" text? = some p.os :=
    Fields.required_text (get _ (by simp))
  have version : f.optional "os.version" text? = some p.osVersion :=
    Fields.optional_text (get _ (by simp))
  have variant : f.optional "variant" text? = some p.variant :=
    Fields.optional_text (get _ (by simp))
  rw [toJson_eq, ofJson?, read]
  simp only [Option.bind_eq_bind, Option.bind_some, architecture, os, version, variant]

end Platform

namespace Descriptor

def fields (d : Descriptor) : List (String × Option Json) := [
  ("mediaType", if d.mediaType.isEmpty then none else some (.text d.mediaType)),
  ("size", some (.natural d.size)), ("digest", some (.text d.digest.text)),
  ("urls", if d.urls.isEmpty then none else some (.array (d.urls.map .text))),
  ("annotations", d.annotations.map ofTextMap), ("platform", d.platform.map Platform.toJson)]

lemma toJson_eq (d : Descriptor) : d.toJson = record d.fields := by
  obtain ⟨mediaType, size, digest, urls, annotations, platform⟩ := d
  unfold toJson fields
  dsimp only
  cases mediaType.isEmpty <;> cases urls.isEmpty <;> cases annotations <;> cases platform <;> rfl

lemma isTidy_toJson (depth : Nat) {d : Descriptor} (fits : d.size < 2 ^ 64) :
    d.toJson.IsTidy (depth + 2) := by
  have urls : (Json.array (d.urls.map .text)).IsTidy (depth + 1) := .array fun v mem => by
    obtain ⟨s, -, rfl⟩ := List.mem_map.1 mem
    exact .text s
  rw [toJson_eq]
  refine .record (by simp [fields]) ?_
  simp [fields, IsTidy.text, IsTidy.natural fits, isTidy_ofTextMap, Platform.isTidy_toJson, urls]

lemma ofJson?_toJson {d : Descriptor} (fits : d.size < 2 ^ 64) : ofJson? d.toJson = some d := by
  obtain ⟨f, read, get⟩ := Fields.ofJson?_record
    ["mediaType", "size", "digest", "urls", "annotations", "platform"] d.fields (by simp [fields])
  have mediaType : f.defaulted "mediaType" "" text? = some d.mediaType :=
    Fields.defaulted_of_ite (get _ (by simp)) (fun empty => by simpa using empty) (text?_text _)
  have size : f.defaulted "size" 0 word64? = some d.size :=
    Fields.defaulted_eq (get _ (by simp)) (natural?_natural fits)
  have digest : f.required "digest" Digest.ofJson? = some d.digest :=
    Fields.required_eq (get _ (by simp)) (Digest.ofJson?_text _)
  have urls : f.defaulted "urls" [] (list? text?) = some d.urls :=
    Fields.defaulted_of_ite (get _ (by simp)) (fun empty => by simpa using empty)
      (list?_map fun s _ => text?_text s)
  have annotations : f.optional "annotations" textMap? = some d.annotations :=
    Fields.optional_eq (get _ (by simp)) fun m _ => nullable?_eq (textMap?_ofTextMap m) nofun
  have platform : f.optional "platform" Platform.ofJson? = some d.platform :=
    Fields.optional_eq (get _ (by simp)) fun p _ => nullable?_eq p.ofJson?_toJson nofun
  rw [toJson_eq, ofJson?, read]
  simp only [Option.bind_eq_bind, Option.bind_some, mediaType, size, digest, urls, annotations,
    platform]

lemma list?_toJson {ds : List Descriptor} (fit : ∀ d ∈ ds, d.size < 2 ^ 64) :
    list? ofJson? (.array (ds.map toJson)) = some ds :=
  list?_map fun d mem => ofJson?_toJson (fit d mem)

lemma isTidy_array (depth : Nat) {ds : List Descriptor} (fit : ∀ d ∈ ds, d.size < 2 ^ 64) :
    (Json.array (ds.map toJson)).IsTidy (depth + 3) := .array fun v mem => by
  obtain ⟨d, isItem, rfl⟩ := List.mem_map.1 mem
  exact isTidy_toJson depth (fit d isItem)

end Descriptor

namespace LegacyBody

def fields (b : LegacyBody) : List (String × Option Json) := [
  ("schemaVersion", some (.natural b.schemaVersion)), ("name", some (.text b.name)),
  ("tag", some (.text b.tag)), ("architecture", some (.text b.architecture)),
  ("fsLayers", some (.array (b.layers.map fun d => record [("blobSum", some (.text d.text))]))),
  ("history", some (.array (b.history.map fun s => record [("v1Compatibility", some (.text s))])))]

lemma toJson_eq (b : LegacyBody) : b.toJson = record b.fields := rfl

lemma names_fields (b : LegacyBody) : (b.fields.map Prod.fst).Nodup := by simp [fields]

lemma isTidy_fields {b : LegacyBody} (fits : b.schemaVersion < 2 ^ 32) :
    ∀ field ∈ b.fields, ∀ v ∈ field.2, v.IsTidy (maxDepth - 1) := by
  have items {α : Type} (l : List α) (name : String) (write : α → String) :
      (Json.array (l.map fun a => record [(name, some (.text (write a)))])).IsTidy
        (maxDepth - 1) := .array fun v mem => by
    obtain ⟨a, -, rfl⟩ := List.mem_map.1 mem
    refine .record (by simp) ?_
    simp [IsTidy.text]
  have version : (Json.natural b.schemaVersion).IsTidy (maxDepth - 1) := .natural (by omega)
  simp [fields, IsTidy.text, version, items]

lemma ofJson?_toJson {b : LegacyBody} (fits : b.schemaVersion < 2 ^ 32) :
    ofJson? b.toJson = some b := by
  have item {α : Type} (read : Json → Option α) (name s : String) :
      ((Fields.ofJson? [name] false (record [(name, some (.text s))])).bind fun f =>
        f.required name read) = read (.text s) := by
    obtain ⟨f, hf, get⟩ := Fields.ofJson?_record [name] [(name, some (.text s))] (by simp)
    have given : f.get? name = some (.text s) := by
      rw [get name List.mem_cons_self, List.lookup_cons_self]
      rfl
    rw [hf, Option.bind_some, Fields.required, given, Option.bind_some]
  have layer (d : Digest) : layer? (record [("blobSum", some (.text d.text))]) = some d :=
    (item _ _ _).trans d.ofJson?_text
  have entry (s : String) : entry? (record [("v1Compatibility", some (.text s))]) = some s :=
    (item _ _ _).trans (text?_text s)
  obtain ⟨f, read, get⟩ := Fields.ofJson?_record
    ["schemaVersion", "name", "tag", "architecture", "fsLayers", "history"] b.fields
    b.names_fields
  have version : f.required "schemaVersion" word32? = some b.schemaVersion :=
    Fields.required_eq (get _ (by simp)) (natural?_natural fits)
  have name : f.required "name" text? = some b.name :=
    Fields.required_text (get _ (by simp))
  have tag : f.required "tag" text? = some b.tag :=
    Fields.required_text (get _ (by simp))
  have architecture : f.required "architecture" text? = some b.architecture :=
    Fields.required_text (get _ (by simp))
  have layers : f.required "fsLayers" (list? layer?) = some b.layers :=
    Fields.required_eq (get _ (by simp)) (list?_map fun d _ => layer d)
  have history : f.required "history" (list? entry?) = some b.history :=
    Fields.required_eq (get _ (by simp)) (list?_map fun s _ => entry s)
  rw [toJson_eq, ofJson?, read]
  simp only [Option.bind_eq_bind, Option.bind_some, version, name, tag, architecture, layers,
    history]

end LegacyBody

namespace LegacyManifest

theorem ofPayload_unsigned {body : LegacyBody} (version : body.schemaVersion = 1) :
    ofPayload (unsigned body).payload = .ok (unsigned body) := by
  have fits : body.schemaVersion < 2 ^ 32 := by omega
  have tidy : body.toJson.IsTidy maxDepth :=
    .record body.names_fields (LegacyBody.isTidy_fields fits)
  have noSignatures : signatures? body.toJson = some [] := by
    obtain ⟨f, read, get⟩ := Fields.ofJson?_record ["signatures"] body.fields body.names_fields
    rw [LegacyBody.toJson_eq, signatures?, read]
    exact Fields.defaulted_of_absent (get _ (by simp))
  have same : withoutSignatures body.toJson = body.toJson := rfl
  have readBack : readBody body.toJson.pretty = .ok body := by
    unfold readBody
    rw [tidy.parse?_pretty, Option.bind_some, tidy.generic?]
    simp only [same, LegacyBody.ofJson?_toJson fits, version]
    rfl
  unfold ofPayload unsigned
  simp only [tidy.parse?_pretty, Option.bind_some, noSignatures, restoreAll, readBack, bind,
    Except.bind, pure, Except.pure]

end LegacyManifest

def imageFields (t : String) (config : Descriptor) (layers : List Descriptor) :
    List (String × Option Json) := [
  ("schemaVersion", some (.natural 2)), ("mediaType", some (.text t)),
  ("config", some config.toJson), ("layers", some (.array (layers.map Descriptor.toJson)))]

/-- The fields of a list of manifests as they are written. -/
def indexFields (t : String) (children : List Descriptor) : List (String × Option Json) := [
  ("schemaVersion", some (.natural 2)), ("mediaType", some (.text t)),
  ("manifests", some (.array (children.map Descriptor.toJson)))]

section Built

variable {config : Descriptor} {layers children : List Descriptor}

lemma names_imageFields (t : String) (config : Descriptor) (layers : List Descriptor) :
    ((imageFields t config layers).map Prod.fst).Nodup := by simp [imageFields]

lemma names_indexFields (t : String) (children : List Descriptor) :
    ((indexFields t children).map Prod.fst).Nodup := by simp [indexFields]

lemma isTidy_imageFields (t : String) (fits : config.size < 2 ^ 64)
    (fit : ∀ d ∈ layers, d.size < 2 ^ 64) :
    ∀ field ∈ imageFields t config layers, ∀ v ∈ field.2, v.IsTidy (maxDepth - 1) := by
  have two : (Json.natural 2).IsTidy (maxDepth - 1) := .natural (by decide)
  have config' : config.toJson.IsTidy (maxDepth - 1) := Descriptor.isTidy_toJson _ fits
  have layers' : (Json.array (layers.map Descriptor.toJson)).IsTidy (maxDepth - 1) :=
    Descriptor.isTidy_array _ fit
  simp [imageFields, IsTidy.text, two, config', layers']

lemma isTidy_indexFields (t : String) (fit : ∀ d ∈ children, d.size < 2 ^ 64) :
    ∀ field ∈ indexFields t children, ∀ v ∈ field.2, v.IsTidy (maxDepth - 1) := by
  have two : (Json.natural 2).IsTidy (maxDepth - 1) := .natural (by decide)
  have children' : (Json.array (children.map Descriptor.toJson)).IsTidy (maxDepth - 1) :=
    Descriptor.isTidy_array _ fit
  simp [indexFields, IsTidy.text, two, children']

lemma DockerImage.ofJson_record (payload : Octets) (fits : config.size < 2 ^ 64)
    (fit : ∀ d ∈ layers, d.size < 2 ^ 64) :
    ofJson payload (record (imageFields MediaType.dockerImage config layers)) =
      .ok { config, layers, payload } := by
  obtain ⟨f, read, get⟩ := Fields.ofJson?_record
    ["schemaVersion", "mediaType", "config", "layers"] _
    (names_imageFields MediaType.dockerImage config layers)
  have version : f.required "schemaVersion" word32? = some 2 :=
    Fields.required_eq (get _ (by simp)) (natural?_natural (by decide))
  have mediaType : f.required "mediaType" text? = some MediaType.dockerImage :=
    Fields.required_text (get _ (by simp))
  have config' : f.required "config" Descriptor.ofJson? = some config :=
    Fields.required_eq (get _ (by simp)) (Descriptor.ofJson?_toJson fits)
  have layers' : f.required "layers" (list? Descriptor.ofJson?) = some layers :=
    Fields.required_eq (get _ (by simp)) (Descriptor.list?_toJson fit)
  rw [ofJson, ofJson.fields?, read]
  simp only [Option.bind_eq_bind, Option.bind_some, version, mediaType, config', layers']
  rfl

lemma OciImage.ofJson_record (payload : Octets) (fits : config.size < 2 ^ 64)
    (fit : ∀ d ∈ layers, d.size < 2 ^ 64) :
    ofJson payload (record (imageFields MediaType.ociImage config layers)) =
      .ok { config, layers, payload } := by
  obtain ⟨f, read, get⟩ := Fields.ofJson?_record
    ["schemaVersion", "mediaType", "config", "layers", "annotations"] _
    (names_imageFields MediaType.ociImage config layers)
  have version : f.required "schemaVersion" word32? = some 2 :=
    Fields.required_eq (get _ (by simp)) (natural?_natural (by decide))
  have mediaType : f.optional "mediaType" text? = some (some MediaType.ociImage) :=
    Fields.optional_text (get _ (by simp))
  have config' : f.required "config" Descriptor.ofJson? = some config :=
    Fields.required_eq (get _ (by simp)) (Descriptor.ofJson?_toJson fits)
  have layers' : f.required "layers" (list? Descriptor.ofJson?) = some layers :=
    Fields.required_eq (get _ (by simp)) (Descriptor.list?_toJson fit)
  have annotations : f.optional "annotations" textMap? = some none :=
    Fields.defaulted_of_absent (get _ (by simp))
  rw [ofJson, ofJson.fields?, read]
  simp only [Option.bind_eq_bind, Option.bind_some, version, mediaType, config', layers',
    annotations]
  rfl

lemma ImageIndex.ofJson_record (format : IndexFormat) (payload : Octets)
    (fit : ∀ d ∈ children, d.size < 2 ^ 64) :
    ofJson format payload (record (indexFields format.mediaType children)) =
      .ok { format, children, payload } := by
  obtain ⟨f, read, get⟩ := Fields.ofJson?_record
    ["schemaVersion", "mediaType", "manifests", "annotations"] _
    (names_indexFields format.mediaType children)
  have version : f.required "schemaVersion" word32? = some 2 :=
    Fields.required_eq (get _ (by simp)) (natural?_natural (by decide))
  have mediaType : f.optional "mediaType" text? = some (some format.mediaType) :=
    Fields.optional_text (get _ (by simp))
  have children' : f.required "manifests" (list? Descriptor.ofJson?) = some children :=
    Fields.required_eq (get _ (by simp)) (Descriptor.list?_toJson fit)
  have annotations : f.optional "annotations" textMap? = some none :=
    Fields.defaulted_of_absent (get _ (by simp))
  have allowed : format.allows (some format.mediaType) = true := beq_self_eq_true _
  rw [ofJson, ofJson.fields?, read]
  simp only [Option.bind_eq_bind, Option.bind_some, version, mediaType, children', annotations,
    allowed]
  rfl

namespace Manifest

lemma Outline.ofJson?_record {fields : List (String × Option Json)} {version : Nat}
    (mediaType : Option String) (distinct : (fields.map Prod.fst).Nodup)
    (tidy : ∀ field ∈ fields, ∀ v ∈ field.2, v.IsTidy (maxDepth - 1))
    (versioned : (fields.lookup "schemaVersion").join = some (.natural version))
    (small : version < 2 ^ 32) (named : (fields.lookup "mediaType").join = mediaType.map .text) :
    ∃ o, ofJson? (record fields) = some o ∧ o.schemaVersion = version ∧
      o.mediaType = mediaType := by
  obtain ⟨f, read, get⟩ :=
    Fields.ofJson?_record ["schemaVersion", "mediaType", "manifests"] fields distinct
  have version' : f.required "schemaVersion" word32? = some version :=
    Fields.required_eq ((get _ (by simp)).trans versioned) (natural?_natural small)
  have mediaType' : f.optional "mediaType" text? = some mediaType :=
    Fields.optional_text ((get _ (by simp)).trans named)
  have manifests : f.optional "manifests" (generic? (maxDepth - 1)) =
      some (fields.lookup "manifests").join :=
    Fields.optional_generic? (get _ (by simp)) fun v given => by
      obtain ⟨before, behind, all, -⟩ :=
        List.lookup_eq_some_iff.1 (Option.join_eq_some_iff.1 given)
      exact tidy ("manifests", some v) (by simp [all]) v rfl
  refine ⟨⟨version, mediaType, (fields.lookup "manifests").join.isSome⟩, ?_, rfl, rfl⟩
  rw [ofJson?, read]
  simp only [Option.bind_eq_bind, Option.bind_some, version', mediaType', manifests]

lemma Outline.decide_of_named {o : Outline} {t : String} {declared : Option String}
    (named : o.mediaType = some t) (nonblank : t.isEmpty = false)
    (own : declared ∈ [none, some t]) : o.decide declared = .ok t := by
  have embedded : nonempty (some t) = some t := by simp [nonempty, nonblank]
  unfold Outline.decide
  rw [named, embedded]
  rcases List.mem_pair.1 own with rfl | rfl
  · rfl
  · rw [embedded]
    exact if_neg (not_not_intro rfl)

/-- A manifest whose payload is read as the manifest itself, undeclared or declared to be what
the manifest is. -/
def IsReread (m : Manifest) : Prop :=
  ∀ declared ∈ [none, some m.mediaType], ofPayload declared m.payload = .ok m

lemma nonblank_mediaType (m : Manifest) : m.mediaType.isEmpty = false := by
  cases m with
  | legacy _ | docker _ | oci _ => rfl
  | index list =>
    obtain ⟨format, _, _, _⟩ := list
    cases format <;> rfl

/-- A manifest whose payload was written with its media type is read back, if it is read as what
it is. -/
lemma isReread_of_record {fields : List (String × Option Json)} {m : Manifest}
    (distinct : (fields.map Prod.fst).Nodup)
    (tidy : ∀ field ∈ fields, ∀ v ∈ field.2, v.IsTidy (maxDepth - 1))
    (version : (fields.lookup "schemaVersion").join = some (.natural 2))
    (named : (fields.lookup "mediaType").join = some (.text m.mediaType))
    (written : m.payload = (record fields).pretty)
    (typed : ofTyped m.mediaType m.payload (record fields) = .ok m) : IsReread m := by
  intro declared own
  have parsed : parse? m.payload = some (record fields) :=
    written ▸ (IsTidy.record distinct tidy).parse?_pretty
  obtain ⟨o, outline, two, type⟩ :=
    Outline.ofJson?_record (some m.mediaType) distinct tidy version (by decide) named
  rw [ofPayload_of_outline parsed outline two,
    Outline.decide_of_named type (nonblank_mediaType m) own]
  exact typed

theorem isReread_docker (fits : config.size < 2 ^ 64) (fit : ∀ d ∈ layers, d.size < 2 ^ 64) :
    IsReread (docker (.build config layers)) :=
  isReread_of_record (names_imageFields _ _ _) (isTidy_imageFields _ fits fit) rfl rfl rfl
    (congrArg (docker <$> ·) (DockerImage.ofJson_record _ fits fit))

theorem isReread_oci (fits : config.size < 2 ^ 64) (fit : ∀ d ∈ layers, d.size < 2 ^ 64) :
    IsReread (oci (.build config layers)) :=
  isReread_of_record (names_imageFields _ _ _) (isTidy_imageFields _ fits fit) rfl rfl rfl
    (congrArg (oci <$> ·) (OciImage.ofJson_record _ fits fit))

theorem isReread_index (format : IndexFormat) (fit : ∀ d ∈ children, d.size < 2 ^ 64) :
    IsReread (index (.build format children)) := by
  have typed (payload : Octets) (v : Json) :
      ofTyped format.mediaType payload v = index <$> ImageIndex.ofJson format payload v := by
    cases format <;> rfl
  refine isReread_of_record (names_indexFields _ _) (isTidy_indexFields _ fit) rfl rfl rfl ?_
  exact (typed _ _).trans (congrArg (index <$> ·) (ImageIndex.ofJson_record format _ fit))

theorem isReread_legacy {body : LegacyBody} (version : body.schemaVersion = 1) :
    IsReread (legacy (.unsigned body)) := by
  intro declared _
  have fits : body.schemaVersion < 2 ^ 32 := by omega
  have tidy := LegacyBody.isTidy_fields fits
  obtain ⟨o, outline, one, -⟩ := Outline.ofJson?_record none body.names_fields tidy rfl fits rfl
  have parsed := (IsTidy.record body.names_fields tidy).parse?_pretty
  have read := ofPayload_of_legacy parsed outline (one.trans version) declared
  exact read.trans (congrArg (legacy <$> ·) (LegacyManifest.ofPayload_unsigned version))

/-- Manifests of every format are read back once they were built, and refer to what they were
built from in its order; only a schema 1 manifest, which names its newest layer first, refers to
its layers in reverse. -/
theorem isReread_of_built {body : LegacyBody}
    (fit : ∀ d ∈ config :: layers ++ children, d.size < 2 ^ 64)
    (version : body.schemaVersion = 1) :
    (IsReread (docker (.build config layers)) ∧
      (docker (.build config layers)).references = config :: layers) ∧
    (IsReread (oci (.build config layers)) ∧
      (oci (.build config layers)).references = config :: layers) ∧
    (∀ format, IsReread (index (.build format children)) ∧
      (index (.build format children)).references = children) ∧
    (IsReread (legacy (.unsigned body)) ∧
      (legacy (.unsigned body)).references = body.layers.reverse.map fun d =>
        { mediaType := MediaType.legacyLayer, digest := d }) ∧
    (LegacyManifest.unsigned body).isSigned = false ∧
    (LegacyManifest.unsigned body).body = body := by
  have config' : config.size < 2 ^ 64 := fit config (by simp)
  have layers' : ∀ d ∈ layers, d.size < 2 ^ 64 := fun d mem => fit d (by simp [mem])
  have children' : ∀ d ∈ children, d.size < 2 ^ 64 := fun d mem => fit d (by simp [mem])
  exact ⟨⟨isReread_docker config' layers', rfl⟩, ⟨isReread_oci config' layers', rfl⟩,
    fun format => ⟨isReread_index format children', rfl⟩, ⟨isReread_legacy version, rfl⟩, rfl, rfl⟩

/-- A descriptor of the greatest size, with texts that are escaped, empty or not ASCII. -/
def ladenDescriptor : Descriptor where
  size := 2 ^ 64 - 1
  digest := .ofContent []
  urls := ["", "\"\\/", "\n\x01🐳"]
  annotations := some (.ofList [("key\t", "äöü"), ("", "")])
  platform := some { architecture := "", os := "\x00", variant := some "" }

/-- A body whose texts are escaped, empty or not ASCII. -/
def ladenBody : LegacyBody where
  schemaVersion := 1
  name := "a\"b"
  tag := ""
  architecture := "🐳"
  layers := [.ofContent [], .ofContent [0]]
  history := ["\\"]

/-- Laden manifests are read back. -/
theorem laden_isReread :
    (docker (.build ladenDescriptor [ladenDescriptor])).IsReread ∧
      (oci (.build ladenDescriptor [ladenDescriptor])).IsReread ∧
      (index (.build .docker [ladenDescriptor, ladenDescriptor])).IsReread ∧
      (index (.build .oci [ladenDescriptor, ladenDescriptor])).IsReread ∧
      (legacy (.unsigned ladenBody)).IsReread := by
  have fit : ∀ d ∈ ladenDescriptor :: [ladenDescriptor] ++ [ladenDescriptor, ladenDescriptor],
      d.size < 2 ^ 64 := by simp [ladenDescriptor]
  have version : ladenBody.schemaVersion = 1 := rfl
  obtain ⟨⟨docker, -⟩, ⟨oci, -⟩, index, ⟨legacy, -⟩, -⟩ := isReread_of_built fit version
  exact ⟨docker, oci, (index .docker).1, (index .oci).1, legacy⟩

end Manifest

end Built

end ImageRegistry
