import ImageRegistry.Proofs.Json.Rereading

/-! Generic documents, in which of equal keys the last one counts: their members are named by texts
that differ, and members behind others replace those of their names. -/

namespace ImageRegistry.Json

variable {depth : Nat} {members more members' more' : List (Octets × Json)} {name : String}

lemma generic?_object : generic? maxDepth (.object members) = some (.object members') ↔
    genericMembers? 126 members = some members' := by
  rw [maxDepth, generic?]
  simp

lemma any_filter_not_any (members more : List (Octets × Json)) (k : Octets)
    (fresh : more.any (fun m => m.1 == k) = false) :
    (members.filter fun m => !more.any fun n => n.1 == m.1).any (fun m => m.1 == k) =
      members.any fun m => m.1 == k := by
  rw [Bool.eq_iff_iff, List.any_eq_true, List.any_eq_true]
  constructor
  · rintro ⟨m, mem, same⟩
    exact ⟨m, List.mem_of_mem_filter mem, same⟩
  · rintro ⟨m, mem, same⟩
    refine ⟨m, List.mem_filter.2 ⟨mem, ?_⟩, same⟩
    rw [beq_iff_eq.1 same, fresh]
    rfl

lemma genericMembers?_append (depth : Nat) (members more : List (Octets × Json)) :
    genericMembers? depth (members ++ more) =
      (genericMembers? depth members).bind fun members' =>
        (genericMembers? depth more).map fun more' =>
          (members'.filter fun m => !more'.any fun n => n.1 == m.1) ++ more' := by
  induction members with
  | nil => simp [genericMembers?]
  | cons member rest ih =>
    obtain ⟨k, v⟩ := member
    rw [List.cons_append, genericMembers?, genericMembers?]
    cases k.toText? with
    | none => rfl
    | some text =>
      cases generic? depth v with
      | none => rfl
      | some v' =>
        simp only [ih]
        cases genericMembers? depth rest with
        | none => rfl
        | some rest' =>
          cases genericMembers? depth more with
          | none => rfl
          | some more' =>
            simp only [Option.bind_some, Option.map_some, Option.some.injEq, List.any_append]
            by_cases replaced : more'.any (fun m => m.1 == k) = true
            · simp only [replaced, Bool.or_true, if_true]
              split_ifs
              · rfl
              · simp [replaced]
            · have fresh := Bool.eq_false_iff.2 replaced
              rw [any_filter_not_any _ _ _ fresh, fresh, Bool.or_false]
              split_ifs
              · rfl
              · simp [fresh]

lemma exists_named_of_genericMembers? (h : genericMembers? depth members = some members') :
    ∃ named : List (String × Json), (named.map Prod.fst).Nodup ∧
      members' = named.map fun (k, v) => (Octets.ofText k, v) := by
  induction members generalizing members' with
  | nil =>
    cases h
    exact ⟨[], List.nodup_nil, rfl⟩
  | cons member rest ih =>
    obtain ⟨k, v⟩ := member
    rw [genericMembers?] at h
    split at h
    · next text v' isText _ =>
      obtain ⟨rest', later, rfl⟩ := Option.map_eq_some_iff.1 h
      obtain ⟨named, distinct, rfl⟩ := ih later
      split_ifs with twice
      · exact ⟨named, distinct, rfl⟩
      · refine ⟨(text, v') :: named, List.nodup_cons.2 ⟨fun mem => twice ?_, distinct⟩, ?_⟩
        · obtain ⟨m, isMember, same⟩ := List.mem_map.1 mem
          refine List.any_eq_true.2 ⟨_, List.mem_map_of_mem isMember, ?_⟩
          simp [same, Octets.ofText_of_toText? isText]
        · simp only [List.map_cons, Octets.ofText_of_toText? isText]
    · cases h

lemma memberNamed?_of_append (name : String) {all : List (Octets × Json)}
    (h : genericMembers? depth members = some members')
    (h' : genericMembers? depth more = some more')
    (hall : genericMembers? depth (members ++ more) = some all) :
    memberNamed? name all = (memberNamed? name more').or (memberNamed? name members') := by
  rw [genericMembers?_append, h, h'] at hall
  obtain rfl := Option.some.inj hall
  rw [memberNamed?_append]
  cases found : memberNamed? name more' with
  | none =>
    rw [Option.or_none, Option.none_or]
    refine memberNamed?_filter fun m _ isName => ?_
    rw [Bool.not_eq_true', List.any_eq_false]
    intro n mem same
    exact memberNamed?_eq_none_iff.1 found n mem (beq_iff_eq.1 same ▸ isName)
  | some v =>
    have gone : memberNamed? name
        (members'.filter fun m => !more'.any fun n => n.1 == m.1) = none := by
      rw [memberNamed?_eq_none_iff]
      intro m mem isName
      obtain ⟨-, kept⟩ := List.mem_filter.1 mem
      rw [Bool.not_eq_true', List.any_eq_false] at kept
      have absent : memberNamed? name more' = none :=
        memberNamed?_eq_none_iff.2 fun n isMember same => kept n isMember <| by
          rw [beq_iff_eq, ← Octets.ofText_of_toText? same, Octets.ofText_of_toText? isName]
      rw [absent] at found
      cases found
    rw [gone, Option.none_or, Option.some_or]

lemma lookup_eq_some_iff_mem {named : List (String × Json)} (distinct : (named.map Prod.fst).Nodup)
    {v : Json} : named.lookup name = some v ↔ (name, v) ∈ named := by
  induction named with
  | nil => simp
  | cons m rest ih =>
    obtain ⟨key, w⟩ := m
    obtain ⟨fresh, distinct⟩ := List.nodup_cons.1 distinct
    rw [List.lookup_cons, List.mem_cons, Prod.mk.injEq]
    by_cases same : name = key
    · subst same
      have absent : (name, v) ∉ rest := fun mem => fresh (List.mem_map.2 ⟨_, mem, rfl⟩)
      simp [absent, eq_comm]
    · rw [beq_eq_false_iff_ne.2 same]
      simp [same, ih distinct]

end ImageRegistry.Json
