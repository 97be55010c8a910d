import ImageRegistry.Manifest.Legacy
import ImageRegistry.Proofs.Json.Generic

/-! Which documents the body of a schema 1 manifest is read from: the last members of its names say
what it has. -/

namespace ImageRegistry

open Json

namespace LegacyBody

def names : List String :=
  ["schemaVersion", "name", "tag", "architecture", "fsLayers", "history"]

/-- Whether a value is read as what a body has for the field of a name. There is nothing to say for
other names. -/
def Says (body : LegacyBody) (v : Json) : String → Prop
  | "schemaVersion" => v.word32? = some body.schemaVersion
  | "name" => v.text? = some body.name
  | "tag" => v.text? = some body.tag
  | "architecture" => v.text? = some body.architecture
  | "fsLayers" => v.list? layer? = some body.layers
  | "history" => v.list? entry? = some body.history
  | _ => True

/-- Members say all of a body. -/
def Told (body : LegacyBody) (members : List (Octets × Json)) : Prop :=
  ∀ name ∈ names, ∃ v, memberNamed? name members = some v ∧ body.Says v name

variable {body : LegacyBody}

lemma said_of_not_mem {v : Json} {name : String} (other : name ∉ names) : body.Says v name := by
  unfold Says
  split
  case h_7 => trivial
  all_goals exact absurd (by decide) other

lemma ofJson?_eq_some_iff {named : List (String × Json)} (distinct : (named.map Prod.fst).Nodup) :
    ofJson? (.ofMembers named) = some body ↔
      body.Told (named.map fun (k, v) => (Octets.ofText k, v)) := by
  obtain ⟨fields, collected⟩ := Fields.exists_collect? names [] distinct fun _ _ => rfl
  have get {name : String} (mem : name ∈ names) : fields.get? name =
      memberNamed? name (named.map fun (k, v) => (Octets.ofText k, v)) :=
    Fields.get?_of_collect? mem collected
  have required {α : Type} {name : String} (mem : name ∈ names) (read : Json → Option α) (a : α) :
      fields.required name read = some a ↔ ∃ v,
        memberNamed? name (named.map fun (k, v) => (Octets.ofText k, v)) = some v ∧
          read v = some a := by
    rw [Fields.required, get mem, Option.bind_eq_some_iff]
  have read : ofJson? (.ofMembers named) = some body ↔
      fields.required "schemaVersion" word32? = some body.schemaVersion ∧
      fields.required "name" text? = some body.name ∧
      fields.required "tag" text? = some body.tag ∧
      fields.required "architecture" text? = some body.architecture ∧
      fields.required "fsLayers" (list? layer?) = some body.layers ∧
      fields.required "history" (list? entry?) = some body.history := by
    have opened : Fields.ofJson? ["schemaVersion", "name", "tag", "architecture", "fsLayers",
        "history"] false (.ofMembers named) = some fields := collected
    obtain ⟨version, name, tag, architecture, layers, history⟩ := body
    simp only [ofJson?, opened, Option.bind_eq_bind, Option.bind_some, Option.bind_eq_some_iff,
      Option.some.injEq, LegacyBody.mk.injEq]
    constructor
    · rintro ⟨_, h₁, _, h₂, _, h₃, _, h₄, _, h₅, _, h₆, rfl, rfl, rfl, rfl, rfl, rfl⟩
      exact ⟨h₁, h₂, h₃, h₄, h₅, h₆⟩
    · rintro ⟨h₁, h₂, h₃, h₄, h₅, h₆⟩
      exact ⟨_, h₁, _, h₂, _, h₃, _, h₄, _, h₅, _, h₆, rfl, rfl, rfl, rfl, rfl, rfl⟩
  rw [read, required (by simp [names]), required (by simp [names]), required (by simp [names]),
    required (by simp [names]), required (by simp [names]), required (by simp [names])]
  simp only [Told, names, List.mem_cons, List.not_mem_nil, or_false, forall_eq_or_imp, forall_eq,
    Says]

lemma ofJson?_of_short {items : List Json} (short : items.length ≤ 1) :
    ofJson? (.array items) = none := by
  match items with
  | [] => rfl
  | [v] => simp [ofJson?, Fields.ofJson?, Fields.required, Fields.get?, List.lookup_cons]
  | _ :: _ :: _ => simp at short

end LegacyBody

namespace LegacyManifest

variable {payload : Octets} {body : LegacyBody}

lemma readBody_eq_ok_iff : readBody payload = .ok body ↔
    ∃ v, (parse? payload).bind (generic? maxDepth) = some v ∧
      LegacyBody.ofJson? (withoutSignatures v) = some body ∧ body.schemaVersion = 1 := by
  unfold readBody
  cases generic : (parse? payload).bind (generic? maxDepth) with
  | none => simp [throw, throwThe, MonadExceptOf.throw]
  | some v =>
    simp only [Option.some.injEq, exists_eq_left']
    cases read : LegacyBody.ofJson? (withoutSignatures v) with
    | none => simp [throw, throwThe, MonadExceptOf.throw]
    | some body' =>
      by_cases one : body'.schemaVersion = 1
      · simp only [one, ne_eq, not_true_eq_false, if_false, pure, Except.pure, Except.ok.injEq,
          Option.some.injEq]
        exact ⟨fun same => ⟨same, same ▸ one⟩, And.left⟩
      · simp only [one, ne_eq, not_false_eq_true, if_true, Option.some.injEq]
        refine iff_of_false (by rintro ⟨⟩) ?_
        rintro ⟨rfl, isOne⟩
        exact one isOne

lemma told_filter {members : List (Octets × Json)} :
    body.Told (members.filter fun m => m.1 != Octets.ofText "signatures") ↔ body.Told members := by
  refine forall₂_congr fun name mem => exists_congr fun v => and_congr_left fun _ => ?_
  rw [memberNamed?_filter]
  rintro m - isName
  rw [bne_iff_ne]
  rintro signatures
  rw [signatures, Octets.toText?_ofText, Option.some.injEq] at isName
  subst isName
  exact absurd mem (by decide)

lemma readBody_iff_told {members : List (Octets × Json)}
    (parsed : parse? payload = some (.object members)) :
    readBody payload = .ok body ↔ body.schemaVersion = 1 ∧
      ∃ members', generic? maxDepth (.object members) = some (.object members') ∧
        body.Told members' := by
  rw [readBody_eq_ok_iff, parsed, Option.bind_some, maxDepth, generic?]
  cases generic : genericMembers? 126 members with
  | none => simp
  | some members' =>
    obtain ⟨named, distinct, rfl⟩ := exists_named_of_genericMembers? generic
    have told : LegacyBody.ofJson? (withoutSignatures
        (.object (named.map fun (k, v) => (Octets.ofText k, v)))) = some body ↔
          body.Told (named.map fun (k, v) => (Octets.ofText k, v)) := by
      rw [withoutSignatures, List.filter_map]
      refine (LegacyBody.ofJson?_eq_some_iff ?_).trans ?_
      · exact distinct.sublist (List.filter_sublist.map _)
      · rw [← List.filter_map]
        exact told_filter
    simp only [Option.map_some, Option.some.injEq, Json.object.injEq, exists_eq_left']
    rw [told, and_comm]

lemma length_genericItems? {depth : Nat} {items items' : List Json}
    (h : genericItems? depth items = some items') : items'.length = items.length := by
  induction items generalizing items' with
  | nil =>
    cases h
    rfl
  | cons v rest ih =>
    rw [genericItems?] at h
    cases read : generic? depth v with
    | none => simp only [read, reduceCtorEq] at h
    | some v' =>
      simp only [read] at h
      obtain ⟨rest', later, rfl⟩ := Option.map_eq_some_iff.1 h
      rw [List.length_cons, ih later, List.length_cons]

lemma readBody_of_array {items : List Json} (h : parse? payload = some (.array items))
    (short : items.length ≤ 1) (body : LegacyBody) : readBody payload ≠ .ok body := by
  rw [Ne, readBody_eq_ok_iff, h, Option.bind_some, maxDepth, generic?]
  rintro ⟨v, generic, read, -⟩
  obtain ⟨items', items, rfl⟩ := Option.map_eq_some_iff.1 generic
  rw [withoutSignatures, LegacyBody.ofJson?_of_short (length_genericItems? items ▸ short)] at read
  · cases read
  · simp

end LegacyManifest
end ImageRegistry
