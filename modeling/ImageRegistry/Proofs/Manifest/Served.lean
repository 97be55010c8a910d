import ImageRegistry.Proofs.Manifest.Verifying

/-! What is read from a signed payload as it is served, beside the body that its signatures restore.
Members that stand behind the place where the body was cut are not signed; what is served says what
was signed as long as none of them speaks of the body. -/

namespace ImageRegistry

open Json

namespace ProtectedHeader

lemma eq_of_ofJson?_toJson {h h' : ProtectedHeader} (read : ofJson? h.toJson = some h') :
    h' = h := by
  by_cases fits : h.formatLength < 2 ^ 64
  · rw [ofJson?_toJson h fits] at read
    exact (Option.some.inj read).symm
  · have long : ¬h.formatLength < 18446744073709551616 := fits
    simp [toJson, ofJson?, ofMembers, Fields.ofJson?, Fields.collect?, Fields.required,
      Fields.get?, List.lookup_cons, Json.text, natural, word64?, natural?, Number.natural?,
      long] at read

lemma eq_of_restore {h : ProtectedHeader} {tail canonical payload : Octets}
    (hasTail : h.formatTail = Base64Url.encode tail)
    (restores : restore (Base64Url.encode h.toJson.compact) payload = .ok canonical) :
    canonical = payload.take h.formatLength ++ tail := by
  unfold restore at restores
  rw [Base64Url.decode?_encode] at restores
  simp only [parse?_compact h.isPlain_toJson, Option.bind_some] at restores
  cases read : ofJson? h.toJson with
  | none => simp only [read] at restores; cases restores
  | some h' =>
    obtain rfl := eq_of_ofJson?_toJson read
    simp only [read, hasTail, Base64Url.decode?_encode] at restores
    by_cases short : payload.length < h'.formatLength
    · rw [if_pos short] at restores
      cases restores
    · rw [if_neg short] at restores
      exact (Except.ok.inj restores).symm

end ProtectedHeader

namespace LegacyManifest

lemma restore_of_agree {payload canonical : Octets} {signatures : List LegacySignature}
    (h : restoreAll.agree payload canonical signatures = .ok ()) {s : LegacySignature}
    (mem : s ∈ signatures) : ProtectedHeader.restore s.header payload = .ok canonical := by
  induction signatures with
  | nil => cases mem
  | cons first rest ih =>
    rw [restoreAll.agree] at h
    cases restored : ProtectedHeader.restore first.header payload with
    | error e => simp only [restored, bind, Except.bind] at h; cases h
    | ok octets =>
      simp only [restored, bind, Except.bind] at h
      by_cases same : octets = canonical
      · rw [if_neg (not_not_intro same)] at h
        rcases List.mem_cons.1 mem with rfl | mem
        · rw [restored, same]
        · exact ih h mem
      · rw [if_pos same] at h
        cases h

lemma restore_of_mem {payload canonical : Octets} {signatures : List LegacySignature}
    (h : restoreAll payload signatures = .ok canonical) {s : LegacySignature}
    (mem : s ∈ signatures) : ProtectedHeader.restore s.header payload = .ok canonical := by
  cases signatures with
  | nil => cases mem
  | cons first rest =>
    rw [restoreAll] at h
    cases restored : ProtectedHeader.restore first.header payload with
    | error e => simp only [restored, bind, Except.bind] at h; cases h
    | ok octets =>
      simp only [restored, bind, Except.bind] at h
      cases agree : restoreAll.agree payload octets rest with
      | error e => rw [agree] at h; cases h
      | ok =>
        rw [agree] at h
        obtain rfl := Except.ok.inj h
        rcases List.mem_cons.1 mem with rfl | mem
        · exact restored
        · exact restore_of_agree agree mem

/-- Members are read, and none of them says anything else of a body. -/
def IsSilent (body : LegacyBody) (more : List (Octets × Json)) : Prop :=
  ∃ more', generic? maxDepth (.object more) = some (.object more') ∧
    ∀ name v, memberNamed? name more' = some v → body.Says v name

lemma told_append_iff {body : LegacyBody} {members more members' : List (Octets × Json)}
    (h : generic? maxDepth (.object members) = some (.object members'))
    (told : body.Told members') :
    (∃ all, generic? maxDepth (.object (members ++ more)) = some (.object all) ∧ body.Told all) ↔
      IsSilent body more := by
  rw [generic?_object] at h
  simp only [IsSilent, generic?_object]
  constructor
  · rintro ⟨all, hall, told'⟩
    obtain ⟨more', h'⟩ : ∃ more', genericMembers? 126 more = some more' := by
      rw [genericMembers?_append, h, Option.bind_some] at hall
      obtain ⟨more', h', -⟩ := Option.map_eq_some_iff.1 hall
      exact ⟨more', h'⟩
    refine ⟨more', h', fun name v named => ?_⟩
    by_cases mem : name ∈ LegacyBody.names
    · obtain ⟨w, last, said⟩ := told' name mem
      rw [memberNamed?_of_append name h h' hall, named, Option.some_or] at last
      exact Option.some.inj last ▸ said
    · exact LegacyBody.said_of_not_mem mem
  · rintro ⟨more', h', silent⟩
    have hall : ∃ all, genericMembers? 126 (members ++ more) = some all :=
      ⟨_, by rw [genericMembers?_append, h, h']; rfl⟩
    obtain ⟨all, hall⟩ := hall
    refine ⟨all, hall, fun name mem => ?_⟩
    rw [memberNamed?_of_append name h h' hall]
    cases named : memberNamed? name more' with
    | none => exact told name mem
    | some v => exact ⟨v, rfl, silent name v named⟩

lemma isSilent_behind_signature (body : LegacyBody) (s : LegacySignature)
    (named : List (String × Json)) (distinct : ("signatures" :: named.map Prod.fst).Nodup)
    (tidy : ∀ m ∈ named, m.2.IsTidy 126) :
    IsSilent body ((Octets.ofText "signatures", .array [s.toJson]) ::
      named.map fun (k, v) => (Octets.ofText k, v)) ↔ ∀ m ∈ named, body.Says m.2 m.1 := by
  let all : List (String × Json) := ("signatures", .array [s.toJson]) :: named
  have distinct : (all.map Prod.fst).Nodup := distinct
  have block : (Json.array [s.toJson]).IsTidy 126 :=
    .array (List.forall_mem_singleton.2 (s.isTidy_toJson 122))
  have read := genericMembers?_of_forall distinct fun m mem =>
    ((List.forall_mem_cons.2 ⟨block, tidy⟩ : ∀ m ∈ all, m.2.IsTidy 126) m mem).generic?
  change IsSilent body (all.map fun (k, v) => (Octets.ofText k, v)) ↔ _
  simp only [IsSilent, generic?_object, read, Option.some.injEq, exists_eq_left',
    Fields.memberNamed?_eq_lookup, lookup_eq_some_iff_mem distinct]
  constructor
  · exact fun silent m mem => silent m.1 m.2 (List.mem_cons_of_mem _ mem)
  · rintro silent name v mem
    rcases List.mem_cons.1 mem with same | mem
    · cases same
      trivial
    · exact silent (name, v) mem

def memberText (key : String) (v : Json) : Octets :=
  44 :: (literal (Octets.ofText key) ++ 58 :: v.pretty)

lemma adds_memberText (key : String) {v : Json} (plain : v.IsPlain) :
    Adds (memberText key v) [(Octets.ofText key, v)] := by
  refine adds_member plain (breaks_cons (by decide) _) ?_
  have value := scans_mark (b := 58) rfl (by decide) (scans_indented plain 0)
  exact scans_mark rfl (by decide)
    ((scans_literal _).append value (breaks_cons (by decide) _))

/-- A member can be written behind the signatures of a manifest that was signed. The payload is
read as the manifest that was signed, signatures and all, and it is served as that exactly if
the member says what the body does. -/
theorem ofPayload_of_tampered {payload : Octets} {m signed : LegacyManifest}
    (h : ofPayload payload = .ok m) (unsigned : m.isSigned = false)
    (clear : mentionsSignatures payload = false) (short : payload.length < 2 ^ 64)
    {scheme : SignatureScheme} {seed : Octets} {time : String}
    (signs : m.sign scheme seed time = .ok signed) {key : String} (other : key ≠ "signatures")
    {v : Json} (tidy : v.IsTidy 126) :
    ∃ tampered, ofPayload tampered = .ok { signed with payload := tampered } ∧
      (readBody tampered = .ok signed.body ↔ signed.body.Says v key) := by
  obtain ⟨length, s, members, fields, cut, made, hv, collected, spliced⟩ :=
    exists_splice h unsigned short scheme seed time
  obtain ⟨parsed, restores⟩ := spliced _ _ (adds_memberText key tidy.isPlain)
  obtain ⟨canonical, hb, -⟩ := facts_of_unsigned h unsigned
  have absent : Fields.collect? ["signatures"] false members [] = some ⟨[]⟩ := by
    rw [collected, ← collect?_of_clear clear hv collected]
  have read := ofPayload_of_signature parsed absent
    (by simpa using other) restores hb
  subst canonical
  rw [sign_eq, cut] at signs
  simp only [Except.map, ← made] at signs
  obtain rfl := Except.ok.inj signs
  refine ⟨_, read, ?_⟩
  obtain ⟨version, members', generic, told⟩ := (readBody_iff_told hv).1 hb
  rw [readBody_iff_told parsed, and_iff_right version, told_append_iff generic told]
  have distinct : ["signatures", key].Nodup := by simpa using other.symm
  have tidy : ∀ m ∈ [(key, v)], m.2.IsTidy 126 := List.forall_mem_singleton.2 tidy
  exact (isSilent_behind_signature m.body s [(key, v)] distinct tidy).trans
    List.forall_mem_singleton

/-- Where a signature was made with the header that signing makes, the payload begins with the
members of the signed body. -/
lemma exists_more_of_restore {canonical payload : Octets} {s : LegacySignature} {length : Nat}
    {time : String} {members : List (Octets × Json)} {doc : Json}
    (restores : ProtectedHeader.restore s.header payload = .ok canonical)
    (cut : formatLength canonical = .ok length)
    (made : s.header = Base64Url.encode (cutHeader canonical length time).toJson.compact)
    (parsed : parse? canonical = some (.object members)) (some' : members ≠ [])
    (breaks : Token.Breaks (payload.drop length)) (read : parse? payload = some doc) :
    ∃ more, doc = .object (members ++ more) := by
  obtain ⟨p, q, r, whole, solid, blank, blank', opens⟩ := exists_opens some' parsed
  obtain rfl : p.length = length := by
    rw [whole, formatLength_eq solid blank blank'] at cut
    exact Except.ok.inj cut
  rw [made] at restores
  have joined : canonical = payload.take p.length ++ canonical.drop p.length :=
    ProtectedHeader.eq_of_restore rfl restores
  -- the header carries what follows the cut, so the octets before it are those of the body
  have front : payload.take p.length = p := by
    rw [whole, List.drop_left] at joined
    exact (List.append_cancel_right joined).symm
  have split : payload = p ++ payload.drop p.length := by
    conv_lhs => rw [← List.take_append_drop p.length payload, front]
  exact opens.exists_more breaks (split ▸ read)

/-- A signed payload is served with the body that was verified, exactly if the last members of the
names of the body say this body. Where a signature was made with the header that signing makes, the
payload begins with the members of the signed body. The others, which are not signed, must not say
anything else of it. -/
theorem served_iff {payload : Octets} {m : LegacyManifest} (h : ofPayload payload = .ok m) :
    (readBody payload = .ok m.body ↔
      ∃ members, (parse? payload).bind (generic? maxDepth) = some (.object members) ∧
        m.body.Told members) ∧
    ∀ s ∈ m.signatures, ∀ length time members, formatLength m.canonical = .ok length →
      s.header = Base64Url.encode (cutHeader m.canonical length time).toJson.compact →
      parse? m.canonical = some (.object members) → Token.Breaks (payload.drop length) →
      ∃ more, parse? payload = some (.object (members ++ more)) ∧
        (readBody payload = .ok m.body ↔ IsSilent m.body more) := by
  obtain ⟨-, hs, restores, hb⟩ := ofPayload_eq_ok_iff.1 h
  obtain ⟨-, -, -, version⟩ := readBody_eq_ok_iff.1 hb
  obtain ⟨doc, hv, found⟩ := Option.bind_eq_some_iff.1 hs
  constructor
  · rw [hv, Option.bind_some]
    obtain ⟨members, fields, rfl, -⟩ | ⟨items, rfl, short⟩ := shape_of_signatures? found
    · rw [readBody_iff_told hv, and_iff_right version]
    · refine iff_of_false (readBody_of_array hv short m.body) ?_
      rintro ⟨members, generic, -⟩
      rw [maxDepth, generic?] at generic
      obtain ⟨_, -, same⟩ := Option.map_eq_some_iff.1 generic
      cases same
  · intro s mem length time members cut made parsed breaks
    obtain ⟨-, members', generic, told⟩ := (readBody_iff_told parsed).1 hb
    have some' : members ≠ [] := by
      rintro rfl
      cases generic?_object.1 generic
      obtain ⟨_, named, -⟩ := told "name" (by decide)
      cases named
    obtain ⟨more, rfl⟩ :=
      exists_more_of_restore (restore_of_mem restores mem) cut made parsed some' breaks hv
    refine ⟨more, hv, ?_⟩
    rw [readBody_iff_told hv, and_iff_right version, told_append_iff generic told]

lemma formatLength_le {canonical : Octets} {length : Nat}
    (h : formatLength canonical = .ok length) : length ≤ canonical.length := by
  unfold formatLength at h
  split at h
  · cases h
  · next before found =>
    obtain rfl := Except.ok.inj h
    have shorter := (List.dropWhile_sublist (l := canonical.reverse) (· != 125)).length_le
    have shortest := (List.dropWhile_sublist (l := before) isFiller).length_le
    rw [found, List.length_cons, List.length_reverse] at shorter
    omega

lemma breaks_drop_splice {canonical : Octets} {length : Nat}
    (cut : formatLength canonical = .ok length) (block : Octets) :
    Token.Breaks ((splice canonical length block).drop length) := by
  have front := List.length_take_of_le (formatLength_le cut)
  have text : Octets.ofText ",\n  \"signatures\": " =
      44 :: (Octets.ofText "\n  \"signatures\": ") := by decide
  rw [splice, List.append_assoc, List.append_assoc, List.drop_left' front, text]
  exact breaks_cons (by decide) _

/-- The plain body is signed, and served as it was signed. -/
theorem plainBody_served :
    ∃ m signed, ofPayload plainBody = .ok m ∧
      m.sign exampleScheme exampleSeed "2016-01-01T00:00:00Z" = .ok signed ∧
      ofPayload signed.payload = .ok signed ∧ signed.isSigned = true ∧
      signed.verify exampleScheme = .ok () ∧ readBody signed.payload = .ok signed.body := by
  obtain ⟨m, hm, unsigned, -⟩ := exists_ofPayload_plainBody
  obtain ⟨canonical, -⟩ := facts_of_unsigned hm unsigned
  obtain ⟨length, s, members, fields, cut, made, hv, -, spliced⟩ :=
    exists_splice hm unsigned length_plainBody_lt exampleScheme exampleSeed "2016-01-01T00:00:00Z"
  have parsed := (spliced [] [] adds_nil).1
  rw [List.append_nil] at parsed
  have signs := sign_eq exampleScheme exampleSeed "2016-01-01T00:00:00Z" m
  rw [cut] at signs
  simp only [Except.map, ← made] at signs
  have again :=
    (ofPayload_sign hm unsigned mentionsSignatures_plainBody length_plainBody_lt signs).1
  obtain ⟨-, exactly⟩ := served_iff again
  obtain ⟨more, parsed', silent⟩ := exactly s (List.mem_singleton_self s) length
    "2016-01-01T00:00:00Z" members cut (by rw [made]; rfl) (canonical ▸ hv)
    (breaks_drop_splice cut _)
  have only : more = [(Octets.ofText "signatures", .array [s.toJson])] := by
    rw [parsed'] at parsed
    simpa using parsed
  refine ⟨m, _, hm, signs, again, rfl, (verify_sign honours_exampleScheme signs).2.2.2, ?_⟩
  rw [silent, only]
  exact (isSilent_behind_signature m.body s [] (by simp) (List.forall_mem_nil _)).2
    (List.forall_mem_nil _)

def strangeLayers : Json :=
  .array [record [("blobSum", some (.text (Digest.ofContent []).text))]]

/-- A layer is put in behind the signatures of the plain body. The manifest verifies, as one that
has no layers, and what is served has a layer. -/
theorem strangeLayers_served :
    ∃ tampered m, ofPayload tampered = .ok m ∧ m.isSigned = true ∧
      m.verify exampleScheme = .ok () ∧ m.body.layers = [] ∧ readBody tampered ≠ .ok m.body := by
  obtain ⟨m, hm, unsigned, none⟩ := exists_ofPayload_plainBody
  obtain ⟨signed, s, -, -, signs, -⟩ := exists_sign hm unsigned length_plainBody_lt exampleScheme
    exampleSeed "2016-01-01T00:00:00Z"
  have tidy : strangeLayers.IsTidy 126 := by
    refine .array fun v mem => ?_
    rw [List.mem_singleton.1 mem]
    exact .record (by simp) (by simp [IsTidy.text])
  have other : "fsLayers" ≠ "signatures" := by decide
  obtain ⟨tampered, read, served⟩ := ofPayload_of_tampered hm unsigned
    mentionsSignatures_plainBody length_plainBody_lt signs other tidy
  obtain ⟨isSigned, body, -, verifies⟩ := verify_sign honours_exampleScheme signs
  refine ⟨tampered, _, read, isSigned, verifies, body ▸ none, fun same => ?_⟩
  have layers : strangeLayers.list? LegacyBody.layer? = some signed.body.layers := served.1 same
  rw [body, none] at layers
  revert layers
  decide +kernel

end LegacyManifest
end ImageRegistry
