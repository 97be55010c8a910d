import ImageRegistry.Proofs.Collection.Marked

/-! Visiting: what is marked, as a function of how pending manifests are loaded. Only the readings
of manifests that end up marked have a say in it, and each mark goes back to a root. -/

namespace ImageRegistry.Marking

open World

/-- How the pending manifests of a repository are loaded. -/
abbrev Reading := Pending → Except RegistryError (Option Manifest)

/-- The marks once all pending manifests were gone through, if they are loaded by some reading. -/
def visit (n : RepositoryName) (read : Reading) (marks : MarkSet) :
    List Pending → Except RegistryError MarkSet
  | [] => .ok marks
  | p :: rest =>
    if _ : marks.containsIn n p.digest = true then visit n read marks rest
    else
      match read p with
      | .error e => .error e
      | .ok none => visit n read (marks.mark n p.digest) rest
      | .ok (some m) =>
        visit n read ((marks.mark n p.digest).markAll n (parts m))
          ((children m).reverse.map (fun d => ⟨d, true⟩) ++ rest)
termination_by pending => (marks.unmarked n, pending.length)
decreasing_by
  · exact Prod.Lex.right _ (Nat.lt_succ_self _)
  · exact Prod.Lex.left _ _ (MarkSet.unmarked_mark_lt (Bool.eq_false_iff.2 ‹_›))
  · apply Prod.Lex.left
    exact Nat.lt_of_le_of_lt
      (MarkSet.unmarked_le_of_subset fun d hd => MarkSet.containsIn_markAll.2 (.inr hd))
      (MarkSet.unmarked_mark_lt (Bool.eq_false_iff.2 ‹_›))

theorem run_trace_visit {s : Site} {b : Bucket} {r : Repository} {C : DescriptorCache → Prop}
    {read : Reading} (loads : ∀ cache, C cache → ∀ p, ∃ cache',
      (s.world b cache).run (load r p) = (read p, s.world b cache') ∧ C cache')
    (marks : MarkSet) (pending : List Pending) {cache : DescriptorCache} (hc : C cache) :
    ∃ cache', (s.world b cache).run (trace r marks pending) =
      (visit r.name read marks pending, s.world b cache') ∧ C cache' := by
  induction marks, pending using trace.induct r generalizing cache with
  | case1 marks =>
    rw [trace, visit]
    exact ⟨cache, rfl, hc⟩
  | case2 marks p rest marked ih =>
    rw [trace, dif_pos marked, visit, dif_pos marked]
    exact ih hc
  | case3 marks p rest unmarked ihNone ihSome =>
    obtain ⟨cache', ran, hc'⟩ := loads cache hc p
    rw [trace, dif_neg unmarked, visit, dif_neg unmarked, run_bind, ran]
    rcases read p with e | _ | m
    · exact ⟨cache', rfl, hc'⟩
    · exact ihNone hc'
    · exact ihSome m hc'

section

variable {n : RepositoryName} {read : Reading} {marks marks' : MarkSet} {pending : List Pending}

lemma growsIn_visit (visited : visit n read marks pending = .ok marks') :
    GrowsIn n marks marks' := by
  induction marks, pending using visit.induct n read with
  | case1 marks =>
    rw [visit] at visited
    cases visited
    exact .refl n _
  | case2 marks p rest marked ih =>
    rw [visit, dif_pos marked] at visited
    exact ih visited
  | case3 marks p rest unmarked e failed =>
    rw [visit, dif_neg unmarked, failed] at visited
    cases visited
  | case4 marks p rest unmarked missing ih =>
    rw [visit, dif_neg unmarked, missing] at visited
    exact (growsIn_mark n marks p.digest).trans (ih visited)
  | case5 marks p rest unmarked m found ih =>
    rw [visit, dif_neg unmarked, found] at visited
    exact ((growsIn_mark n marks p.digest).trans (growsIn_markAll n _ (parts m))).trans (ih visited)

lemma containsIn_markAll_mark (marks : MarkSet) (n : RepositoryName) (d : Digest)
    (ds : List Digest) : ((marks.mark n d).markAll n ds).containsIn n d = true :=
  MarkSet.containsIn_markAll.2 (.inr (MarkSet.containsIn_mark.2 (.inl ⟨rfl, rfl⟩)))

lemma marked_of_visit (visited : visit n read marks pending = .ok marks') :
    ∀ p ∈ pending, marks'.containsIn n p.digest = true := by
  induction marks, pending using visit.induct n read with
  | case1 marks => simp
  | case2 marks p rest marked ih =>
    rw [visit, dif_pos marked] at visited
    exact List.forall_mem_cons.2 ⟨(growsIn_visit visited).1 n _ marked, ih visited⟩
  | case3 marks p rest unmarked e failed =>
    rw [visit, dif_neg unmarked, failed] at visited
    cases visited
  | case4 marks p rest unmarked missing ih =>
    rw [visit, dif_neg unmarked, missing] at visited
    refine List.forall_mem_cons.2 ⟨(growsIn_visit visited).1 n _ ?_, ih visited⟩
    exact MarkSet.containsIn_mark.2 (.inl ⟨rfl, rfl⟩)
  | case5 marks p rest unmarked m found ih =>
    rw [visit, dif_neg unmarked, found] at visited
    refine List.forall_mem_cons.2 ⟨(growsIn_visit visited).1 n _ ?_, fun q mem => ?_⟩
    · exact containsIn_markAll_mark marks n p.digest (parts m)
    · exact ih visited q (List.mem_append_right _ mem)

/-- A manifest was passed over as missing, or all that it refers to is marked. -/
def Visited (n : RepositoryName) (read : Reading) (marks : MarkSet) (p : Pending) : Prop :=
  ∃ found, read p = .ok found ∧ ∀ m, found = some m →
    ∀ e ∈ m.references.map Descriptor.digest, marks.containsIn n e = true

/-- A new mark is that of a manifest that was visited, or of a part of one. All of these have a
property that pending manifests have, and that is passed on to the children of visited ones. -/
theorem visit_cases {V : Pending → Prop} (visited : visit n read marks pending = .ok marks')
    (passes : ∀ p m, V p → read p = .ok (some m) →
      (∀ e ∈ m.references.map Descriptor.digest, marks'.containsIn n e = true) →
        ∀ e ∈ children m, V ⟨e, true⟩)
    (start : ∀ p ∈ pending, V p) {d : Digest} (marked : marks'.containsIn n d = true) :
    marks.containsIn n d = true ∨ ∃ p, V p ∧ Visited n read marks' p ∧
      (p.digest = d ∨ ∃ m, read p = .ok (some m) ∧ d ∈ parts m) := by
  induction marks, pending using visit.induct n read with
  | case1 marks =>
    rw [visit] at visited
    cases visited
    exact .inl marked
  | case2 marks p rest old ih =>
    rw [visit, dif_pos old] at visited
    exact ih visited fun q mem => start q (List.mem_cons_of_mem p mem)
  | case3 marks p rest unmarked e failed =>
    rw [visit, dif_neg unmarked, failed] at visited
    cases visited
  | case4 marks p rest unmarked missing ih =>
    rw [visit, dif_neg unmarked, missing] at visited
    obtain ⟨hp, later⟩ := List.forall_mem_cons.1 start
    rcases ih visited later with before | provenance
    · rcases MarkSet.containsIn_mark.1 before with ⟨-, rfl⟩ | before
      · exact .inr ⟨p, hp, ⟨none, missing, fun _ => nofun⟩, .inl rfl⟩
      · exact .inl before
    · exact .inr provenance
  | case5 marks p rest unmarked m found ih =>
    rw [visit, dif_neg unmarked, found] at visited
    obtain ⟨hp, later⟩ := List.forall_mem_cons.1 start
    have refers : ∀ e ∈ m.references.map Descriptor.digest, marks'.containsIn n e = true := by
      intro e mem
      rcases mem_references_iff.1 mem with child | part
      · exact marked_of_visit visited ⟨e, true⟩ (by simp [child])
      · exact (growsIn_visit visited).1 n e (MarkSet.containsIn_markAll.2 (.inl ⟨rfl, part⟩))
    have all : Visited n read marks' p :=
      ⟨some m, found, fun m' same => Option.some.inj same ▸ refers⟩
    have next : ∀ q ∈ (children m).reverse.map (fun d => ⟨d, true⟩) ++ rest, V q := by
      intro q mem
      rcases List.mem_append.1 mem with mem | mem
      · obtain ⟨e, child, rfl⟩ := List.mem_map.1 mem
        exact passes p m hp found refers e (List.mem_reverse.1 child)
      · exact later q mem
    rcases ih visited next with before | provenance
    · rcases MarkSet.containsIn_markAll.1 before with ⟨-, part⟩ | before
      · exact .inr ⟨p, hp, all, .inr ⟨m, found, part⟩⟩
      · rcases MarkSet.containsIn_mark.1 before with ⟨-, rfl⟩ | before
        · exact .inr ⟨p, hp, all, .inl rfl⟩
        · exact .inl before
    · exact .inr provenance

/-- Readings that agree on all manifests that are marked in the end lead to the same marks. It is
enough that they agree on those that have a property which is passed on to children. -/
theorem visit_congr {read' : Reading} {V : Pending → Prop}
    (visited : visit n read marks pending = .ok marks')
    (passes : ∀ p m, V p → read p = .ok (some m) → ∀ e ∈ children m, V ⟨e, true⟩)
    (start : ∀ p ∈ pending, V p)
    (same : ∀ p, V p → marks'.containsIn n p.digest = true → read' p = read p) :
    visit n read' marks pending = .ok marks' := by
  induction marks, pending using visit.induct n read with
  | case1 marks =>
    rw [visit] at visited ⊢
    exact visited
  | case2 marks p rest marked ih =>
    rw [visit, dif_pos marked] at visited ⊢
    exact ih visited fun q mem => start q (List.mem_cons_of_mem p mem)
  | case3 marks p rest unmarked e failed =>
    rw [visit, dif_neg unmarked, failed] at visited
    cases visited
  | case4 marks p rest unmarked missing ih =>
    obtain ⟨hp, later⟩ := List.forall_mem_cons.1 start
    have agrees := same p hp (marked_of_visit visited p List.mem_cons_self)
    rw [visit, dif_neg unmarked, missing] at visited
    rw [visit, dif_neg unmarked, agrees, missing]
    exact ih visited later
  | case5 marks p rest unmarked m found ih =>
    obtain ⟨hp, later⟩ := List.forall_mem_cons.1 start
    have agrees := same p hp (marked_of_visit visited p List.mem_cons_self)
    rw [visit, dif_neg unmarked, found] at visited
    rw [visit, dif_neg unmarked, agrees, found]
    refine ih visited fun q mem => ?_
    rcases List.mem_append.1 mem with mem | mem
    · obtain ⟨e, child, rfl⟩ := List.mem_map.1 mem
      exact passes p m hp found e (List.mem_reverse.1 child)
    · exact later q mem

end

end ImageRegistry.Marking
