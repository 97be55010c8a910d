import Mathlib.Tactic.Common
import ImageRegistry.Json.Record

/-! What a record reads from a document does not depend on its other fields: two records whose
fields begin alike read the same values for the fields that they share. -/

namespace ImageRegistry.Json

/-- The value of the first member whose key spells a name. -/
def memberNamed? (name : String) : List (Octets × Json) → Option Json
  | [] => none
  | (key, v) :: rest => if key.toText? = some name then some v else memberNamed? name rest

lemma nullable?_of_ne {α : Type} {read : Json → Option α} {v : Json} (h : v ≠ null) :
    nullable? read v = (read v).map some := by
  cases v with
  | null => exact absurd rfl h
  | bool _ | number _ | string _ | array _ | object _ => rfl

lemma memberNamed?_eq_none_iff {name : String} {members : List (Octets × Json)} :
    memberNamed? name members = none ↔ ∀ m ∈ members, m.1.toText? ≠ some name := by
  induction members with
  | nil => simp [memberNamed?]
  | cons member rest ih =>
    obtain ⟨key, v⟩ := member
    rw [memberNamed?]
    split_ifs with same
    · simp [same]
    · simp [same, ih]

lemma memberNamed?_filter {name : String} {members : List (Octets × Json)}
    {keep : Octets × Json → Bool} (kept : ∀ m ∈ members, m.1.toText? = some name → keep m = true) :
    memberNamed? name (members.filter keep) = memberNamed? name members := by
  induction members with
  | nil => rfl
  | cons member rest ih =>
    obtain ⟨key, v⟩ := member
    have later := ih fun m mem => kept m (List.mem_cons_of_mem _ mem)
    rw [List.filter_cons, memberNamed?]
    by_cases same : key.toText? = some name
    · rw [if_pos (kept _ List.mem_cons_self same), memberNamed?, if_pos same, if_pos same]
    · rw [if_neg same]
      split_ifs
      · rw [memberNamed?, if_neg same, later]
      · exact later

lemma memberNamed?_append (name : String) (members more : List (Octets × Json)) :
    memberNamed? name (members ++ more) =
      (memberNamed? name members).or (memberNamed? name more) := by
  induction members with
  | nil => rfl
  | cons member rest ih =>
    obtain ⟨k, v⟩ := member
    rw [List.cons_append, memberNamed?, memberNamed?]
    split_ifs
    · rfl
    · exact ih

lemma key_of_genericMembers? {depth : Nat} {members members' : List (Octets × Json)}
    (h : genericMembers? depth members = some members') {m : Octets × Json} (mem : m ∈ members') :
    ∃ v, (m.1, v) ∈ members := by
  induction members generalizing members' with
  | nil =>
    rw [genericMembers?, Option.some.injEq] at h
    rw [← h] at mem
    cases mem
  | cons member rest ih =>
    obtain ⟨key, v⟩ := member
    rw [genericMembers?] at h
    split at h
    · obtain ⟨rest', later, rfl⟩ := Option.map_eq_some_iff.1 h
      split_ifs at mem
      · exact (ih later mem).imp fun _ => List.mem_cons_of_mem _
      · rcases List.mem_cons.1 mem with rfl | mem
        · exact ⟨v, List.mem_cons_self⟩
        · exact (ih later mem).imp fun _ => List.mem_cons_of_mem _
    · cases h

namespace Fields

lemma get?_of_collect? {names : List String} {closed : Bool} {members : List (Octets × Json)}
    {found : List (String × Json)} {fields : Fields} {name : String} (mem : name ∈ names)
    (h : collect? names closed members found = some fields) :
    fields.get? name = (found.lookup name).or (memberNamed? name members) := by
  induction members generalizing found with
  | nil =>
    simp only [collect?, Option.some.injEq] at h
    rw [← h, memberNamed?, Option.or_none]
    rfl
  | cons member rest ih =>
    obtain ⟨key, v⟩ := member
    rw [collect?] at h
    cases hk : key.toText? with
    | none => simp only [hk, reduceCtorEq] at h
    | some text =>
      simp only [hk] at h
      by_cases isField : names.contains text = true
      · rw [if_pos isField] at h
        by_cases twice : (found.lookup text).isSome = true
        · rw [if_pos twice] at h
          cases h
        · rw [if_neg twice] at h
          rw [ih h, List.lookup_cons, memberNamed?, hk]
          by_cases same : name = text
          · subst same
            have fresh : found.lookup name = none := Option.not_isSome_iff_eq_none.1 twice
            simp [fresh]
          · have differs : (name == text) = false := beq_eq_false_iff_ne.2 same
            simp [differs, Ne.symm same]
      · rw [if_neg isField] at h
        have other : text ≠ name := fun same => isField (by simpa [same] using mem)
        cases closed with
        | true => cases h
        | false =>
          rw [if_neg (by simp)] at h
          rw [ih h, memberNamed?, hk]
          simp [other]

lemma collect?_append (names : List String) (closed : Bool) (members more : List (Octets × Json))
    (found : List (String × Json)) :
    collect? names closed (members ++ more) found =
      (collect? names closed members found).bind fun fields =>
        collect? names closed more fields.entries := by
  induction members generalizing found with
  | nil => rfl
  | cons member rest ih =>
    obtain ⟨key, v⟩ := member
    simp only [List.cons_append, collect?]
    cases key.toText? with
    | none => rfl
    | some text =>
      simp only
      split_ifs
      · rfl
      · exact ih _
      · rfl
      · exact ih _

lemma collect?_of_absent {names : List String} {members : List (Octets × Json)}
    {found : List (String × Json)} {fields : Fields}
    (absent : ∀ m ∈ members, ∀ name ∈ names, m.1.toText? ≠ some name)
    (h : collect? names false members found = some fields) : fields.entries = found := by
  induction members with
  | nil =>
    rw [← Option.some.inj h]
  | cons member rest ih =>
    obtain ⟨key, v⟩ := member
    rw [collect?] at h
    cases hk : key.toText? with
    | none => simp only [hk, reduceCtorEq] at h
    | some text =>
      have other : ¬names.contains text = true := fun mem =>
        absent (key, v) List.mem_cons_self text (by simpa using mem) hk
      simp only [hk, if_neg other, Bool.false_eq_true, if_false] at h
      exact ih (fun m mem => absent m (List.mem_cons_of_mem _ mem)) h

lemma collect?_of_others {names : List String} {members : List (Octets × Json)}
    (others : ∀ m ∈ members, ∃ text, m.1.toText? = some text ∧ text ∉ names)
    (found : List (String × Json)) : collect? names false members found = some ⟨found⟩ := by
  induction members with
  | nil => rfl
  | cons member rest ih =>
    obtain ⟨text, isText, other⟩ := others member List.mem_cons_self
    have absent : ¬names.contains text = true := fun mem => other (by simpa using mem)
    rw [collect?, isText]
    simp only [if_neg absent, Bool.false_eq_true, if_false]
    exact ih fun m mem => others m (List.mem_cons_of_mem _ mem)

lemma absent_of_collect? {names : List String} {closed : Bool} {members : List (Octets × Json)}
    {found : List (String × Json)} {fields : Fields} {name : String} (mem : name ∈ names)
    (before : (found.lookup name).isSome = true)
    (h : collect? names closed members found = some fields) : memberNamed? name members = none := by
  induction members generalizing found with
  | nil => rfl
  | cons member rest ih =>
    obtain ⟨key, v⟩ := member
    rw [collect?] at h
    cases hk : key.toText? with
    | none => simp only [hk, reduceCtorEq] at h
    | some text =>
      simp only [hk] at h
      have other : text ≠ name := by
        rintro rfl
        rw [if_pos (by simpa using mem), if_pos before] at h
        cases h
      rw [memberNamed?, hk, if_neg (by simpa using other)]
      split_ifs at h
      · refine ih ?_ h
        rw [List.lookup_cons, beq_eq_false_iff_ne.2 other.symm]
        exact before
      · exact ih before h

/-- A field that was collected has the same value in the generic document, in which of equal keys
the last one counts. -/
lemma memberNamed?_genericMembers? {names : List String} {closed : Bool}
    {members members' : List (Octets × Json)} {found : List (String × Json)} {fields : Fields}
    {name : String} {depth : Nat} (mem : name ∈ names)
    (h : collect? names closed members found = some fields)
    (generic : genericMembers? depth members = some members') :
    memberNamed? name members' = (memberNamed? name members).bind (generic? depth) := by
  induction members generalizing found members' with
  | nil =>
    rw [genericMembers?, Option.some.injEq] at generic
    rw [← generic]
    rfl
  | cons member rest ih =>
    obtain ⟨key, v⟩ := member
    rw [genericMembers?] at generic
    split at generic
    case h_2 => cases generic
    case h_1 text v' hk hv =>
      obtain ⟨rest', later, rfl⟩ := Option.map_eq_some_iff.1 generic
      rw [collect?, hk] at h
      simp only at h
      by_cases same : text = name
      · subst same
        rw [if_pos (by simpa using mem)] at h
        split_ifs at h
        have absent : memberNamed? text rest = none :=
          absent_of_collect? mem (by simp) h
        have last : ¬(rest'.any fun m => m.1 == key) = true := by
          simp only [List.any_eq_true, beq_iff_eq, not_exists, not_and]
          rintro m isMember rfl
          obtain ⟨w, isMember⟩ := key_of_genericMembers? later isMember
          exact memberNamed?_eq_none_iff.1 absent _ isMember hk
        rw [if_neg last, memberNamed?, memberNamed?, if_pos hk, if_pos hk, Option.bind_some, hv]
      · have other : key.toText? ≠ some name := by simpa [hk] using same
        have next : memberNamed? name rest' = (memberNamed? name rest).bind (generic? depth) := by
          split_ifs at h
          · exact ih h later
          · exact ih h later
        rw [memberNamed?, if_neg other, ← next]
        split_ifs
        · rfl
        · rw [memberNamed?, if_neg other]

lemma lookup_zip_append {names more : List String} {items : List Json} {name : String}
    (mem : name ∈ names) :
    ((names ++ more).zip items).lookup name = (names.zip items).lookup name := by
  induction names generalizing items with
  | nil => cases mem
  | cons first names ih =>
    cases items with
    | nil => rfl
    | cons item items =>
      simp only [List.cons_append, List.zip_cons_cons, List.lookup_cons]
      by_cases same : name = first
      · simp [same]
      · have : name ∈ names := (List.mem_cons.1 mem).resolve_left same
        simp [ih this]

theorem get?_eq_of_ofJson? (names more others : List String) {closed closed' : Bool} {v : Json}
    {fields fields' : Fields} {name : String} (mem : name ∈ names)
    (h : ofJson? (names ++ more) closed v = some fields)
    (h' : ofJson? (names ++ others) closed' v = some fields') :
    fields.get? name = fields'.get? name := by
  cases v with
  | object members =>
    rw [get?_of_collect? (List.mem_append_left more mem) h,
      get?_of_collect? (List.mem_append_left others mem) h']
  | array items =>
    rw [ofJson?] at h h'
    split at h
    · split at h'
      · cases h
        cases h'
        exact (lookup_zip_append mem).trans (lookup_zip_append mem).symm
      · cases h'
    · cases h
  | null | bool _ | number _ | string _ => cases h

lemma optional_of_required {α : Type} {fields fields' : Fields} {name : String}
    {read : Json → Option α} {a : α} (same : fields.get? name = fields'.get? name)
    (notNull : read .null = none) (h : fields.required name read = some a) :
    fields'.optional name read = some (some a) := by
  obtain ⟨v, hv, hr⟩ := Option.bind_eq_some_iff.1 h
  have given : v ≠ null := by
    rintro rfl
    rw [notNull] at hr
    cases hr
  rw [optional, defaulted, ← same, hv, Option.elim_some, nullable?_of_ne given, hr]
  rfl

end Fields
end ImageRegistry.Json
