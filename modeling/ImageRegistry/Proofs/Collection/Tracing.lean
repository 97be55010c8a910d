import ImageRegistry.Collection.Marking
import ImageRegistry.Proofs.Program.Site

/-! Tracing: what is marked once all pending manifests were gone through. A digest is marked
either because it was visited as a manifest, and then what it refers to is marked or pending, or
because it is a part of a manifest, and then it is not visited again. -/

namespace ImageRegistry.Marking

open World

lemma mem_references_iff {m : Manifest} {d : Digest} :
    d ∈ m.references.map Descriptor.digest ↔ d ∈ children m ∨ d ∈ parts m := by
  cases m <;> simp [children, parts, Manifest.references]

/-- How manifests are loaded while a repository is traced: the bucket stays as it is, pending
manifests lead to pending ones, parts have a property, and a known manifest is found. -/
structure Loading (s : Site) (b : Bucket) (r : Repository) (C : DescriptorCache → Prop)
    (L : Pending → Prop) (B : Digest → Prop) (K : Digest → Manifest → Prop) : Prop where
  run_load : ∀ cache, C cache → ∀ p, L p → ∃ x cache',
    (s.world b cache).run (load r p) = (x, s.world b cache') ∧ C cache' ∧
      (∀ m, x = .ok (some m) → (∀ d ∈ children m, L ⟨d, true⟩) ∧ (∀ d ∈ parts m, B d) ∧
        ∀ m', K p.digest m' → m' = m) ∧
      (x = .ok none → ∀ m', ¬K p.digest m')

/-- What is marked is a part, or refers to what is marked or pending. -/
def Traced (r : Repository) (B : Digest → Prop) (K : Digest → Manifest → Prop) (marks : MarkSet)
    (pending : List Pending) : Prop :=
  ∀ d, marks.containsIn r.name d = true → B d ∨
    ∀ m, K d m → ∀ e ∈ m.references.map Descriptor.digest,
      marks.containsIn r.name e = true ∨ ∃ p ∈ pending, p.digest = e

def GrowsIn (n : RepositoryName) (marks marks' : MarkSet) : Prop :=
  (∀ m d, marks.containsIn m d = true → marks'.containsIn m d = true) ∧
    ∀ m d, m ≠ n → marks'.containsIn m d = true → marks.containsIn m d = true

lemma GrowsIn.refl (n : RepositoryName) (marks : MarkSet) : GrowsIn n marks marks :=
  ⟨fun _ _ h => h, fun _ _ _ h => h⟩

lemma GrowsIn.trans {n : RepositoryName} {marks marks' marks'' : MarkSet}
    (first : GrowsIn n marks marks') (second : GrowsIn n marks' marks'') :
    GrowsIn n marks marks'' :=
  ⟨fun m d h => second.1 m d (first.1 m d h),
    fun m d other h => first.2 m d other (second.2 m d other h)⟩

lemma growsIn_mark (n : RepositoryName) (marks : MarkSet) (d : Digest) :
    GrowsIn n marks (marks.mark n d) := by
  refine ⟨fun m e h => MarkSet.containsIn_mark.2 (.inr h), fun m e other h => ?_⟩
  exact (MarkSet.containsIn_mark.1 h).resolve_left fun same => other same.1

lemma growsIn_markAll (n : RepositoryName) (marks : MarkSet) (ds : List Digest) :
    GrowsIn n marks (marks.markAll n ds) := by
  refine ⟨fun m e h => MarkSet.containsIn_markAll.2 (.inr h), fun m e other h => ?_⟩
  exact (MarkSet.containsIn_markAll.1 h).resolve_left fun same => other same.1

/-- Marks that were added in a repository are of what may be pending or be a part. -/
def Supported (L : Pending → Prop) (B : Digest → Prop) (n : RepositoryName)
    (marks marks' : MarkSet) : Prop :=
  ∀ d, marks'.containsIn n d = true →
    marks.containsIn n d = true ∨ (∃ mayBeMissing, L ⟨d, mayBeMissing⟩) ∨ B d

section

variable {s : Site} {b : Bucket} {r : Repository} {C : DescriptorCache → Prop}
  {L : Pending → Prop} {B : Digest → Prop} {K : Digest → Manifest → Prop}

lemma Supported.trans {n : RepositoryName} {marks marks' marks'' : MarkSet}
    (first : Supported L B n marks marks') (second : Supported L B n marks' marks'') :
    Supported L B n marks marks'' :=
  fun d h => (second d h).elim (first d) .inr

lemma supported_mark (n : RepositoryName) (marks : MarkSet) {p : Pending} (live : L p) :
    Supported L B n marks (marks.mark n p.digest) := by
  intro d h
  rcases MarkSet.containsIn_mark.1 h with ⟨_, rfl⟩ | h
  · exact .inr (.inl ⟨p.mayBeMissing, live⟩)
  · exact .inl h

lemma supported_markAll (n : RepositoryName) (marks : MarkSet) {ds : List Digest}
    (isParts : ∀ d ∈ ds, B d) : Supported L B n marks (marks.markAll n ds) := by
  intro d h
  rcases MarkSet.containsIn_markAll.1 h with ⟨_, mem⟩ | h
  · exact .inr (.inr (isParts d mem))
  · exact .inl h

lemma Traced.skip {marks : MarkSet} {p : Pending} {rest : List Pending}
    (h : Traced r B K marks (p :: rest)) (marked : marks.containsIn r.name p.digest = true) :
    Traced r B K marks rest := by
  intro d hd
  refine (h d hd).imp_right fun refers m known e he => ?_
  rcases refers m known e he with found | ⟨q, mem, rfl⟩
  · exact .inl found
  · rcases List.mem_cons.1 mem with rfl | mem
    · exact .inl marked
    · exact .inr ⟨q, mem, rfl⟩

lemma Traced.visit_missing {marks : MarkSet} {p : Pending} {rest : List Pending}
    (h : Traced r B K marks (p :: rest)) (missing : ∀ m, ¬K p.digest m) :
    Traced r B K (marks.mark r.name p.digest) rest := by
  refine Traced.skip (p := p) (fun d hd => ?_) (MarkSet.containsIn_mark.2 (.inl ⟨rfl, rfl⟩))
  rcases MarkSet.containsIn_mark.1 hd with ⟨_, rfl⟩ | hd
  · exact .inr fun m known => absurd known (missing m)
  · exact (h d hd).imp_right fun refers m known e he =>
      (refers m known e he).imp_left fun found => MarkSet.containsIn_mark.2 (.inr found)

lemma Traced.visit {marks : MarkSet} {p : Pending} {rest : List Pending} {m : Manifest}
    (h : Traced r B K marks (p :: rest)) (isParts : ∀ d ∈ parts m, B d)
    (only : ∀ m', K p.digest m' → m' = m) :
    Traced r B K ((marks.mark r.name p.digest).markAll r.name (parts m))
      ((children m).reverse.map (fun d => ⟨d, true⟩) ++ rest) := by
  have marked : ((marks.mark r.name p.digest).markAll r.name (parts m)).containsIn r.name
      p.digest = true :=
    MarkSet.containsIn_markAll.2 (.inr (MarkSet.containsIn_mark.2 (.inl ⟨rfl, rfl⟩)))
  intro d hd
  rcases MarkSet.containsIn_markAll.1 hd with ⟨_, part⟩ | hd
  · exact .inl (isParts d part)
  rcases MarkSet.containsIn_mark.1 hd with ⟨_, rfl⟩ | hd
  · refine .inr fun m' known e he => ?_
    obtain rfl := only m' known
    rcases mem_references_iff.1 he with child | part
    · exact .inr ⟨⟨e, true⟩, by simp [child], rfl⟩
    · exact .inl (MarkSet.containsIn_markAll.2 (.inl ⟨rfl, part⟩))
  · refine (h d hd).imp_right fun refers m' known e he => ?_
    rcases refers m' known e he with found | ⟨q, mem, rfl⟩
    · exact .inl (MarkSet.containsIn_markAll.2 (.inr (MarkSet.containsIn_mark.2 (.inr found))))
    · rcases List.mem_cons.1 mem with rfl | mem
      · exact .inl marked
      · exact .inr ⟨q, List.mem_append_right _ mem, rfl⟩

/-- If a repository can be traced, all pending manifests are marked, whatever is marked is a part or
refers to what is marked, and nothing is marked that may not be pending or be a part. -/
theorem run_trace (loading : Loading s b r C L B K) (marks : MarkSet) (pending : List Pending)
    {cache : DescriptorCache} (hc : C cache) (live : ∀ p ∈ pending, L p)
    (traced : Traced r B K marks pending) :
    ∃ x cache', (s.world b cache).run (trace r marks pending) = (x, s.world b cache') ∧
      C cache' ∧ ∀ marks', x = .ok marks' → Traced r B K marks' [] ∧
        GrowsIn r.name marks marks' ∧ (∀ p ∈ pending, marks'.containsIn r.name p.digest = true) ∧
        Supported L B r.name marks marks' := by
  induction marks, pending using trace.induct r generalizing cache with
  | case1 marks =>
    refine ⟨.ok marks, cache, by rw [trace]; rfl, hc, fun marks' same => ?_⟩
    obtain rfl := Except.ok.inj same
    exact ⟨traced, .refl _ _, by simp, fun _ => .inl⟩
  | case2 marks p rest marked ih =>
    obtain ⟨x, cache', ran, hc', good⟩ := ih hc (fun q mem => live q (List.mem_cons_of_mem p mem))
      (traced.skip marked)
    refine ⟨x, cache', by rw [trace, dif_pos marked]; exact ran, hc', fun marks' same => ?_⟩
    obtain ⟨traced', grows, all, supported⟩ := good marks' same
    refine ⟨traced', grows, fun q mem => ?_, supported⟩
    rcases List.mem_cons.1 mem with rfl | mem
    · exact grows.1 _ _ marked
    · exact all q mem
  | case3 marks p rest unmarked ihNone ihSome =>
    have later : ∀ q ∈ rest, L q := fun q mem => live q (List.mem_cons_of_mem p mem)
    obtain ⟨x, cache', ran, hc', some, none⟩ :=
      loading.run_load cache hc p (live p List.mem_cons_self)
    have first := growsIn_mark r.name marks p.digest
    have found : Supported L B r.name marks (marks.mark r.name p.digest) :=
      supported_mark r.name marks (live p List.mem_cons_self)
    have visited : (marks.mark r.name p.digest).containsIn r.name p.digest = true :=
      MarkSet.containsIn_mark.2 (.inl ⟨rfl, rfl⟩)
    rw [trace, dif_neg unmarked, run_bind, ran]
    rcases x with e | _ | m
    · exact ⟨.error e, cache', rfl, hc', fun _ => nofun⟩
    · obtain ⟨y, cache'', ran', hc'', good⟩ := ihNone hc' later (traced.visit_missing (none rfl))
      refine ⟨y, cache'', ran', hc'', fun marks' same => ?_⟩
      obtain ⟨traced', grows, all, supported⟩ := good marks' same
      refine ⟨traced', first.trans grows, fun q mem => ?_, found.trans supported⟩
      rcases List.mem_cons.1 mem with rfl | mem
      · exact grows.1 _ _ visited
      · exact all q mem
    · obtain ⟨liveChildren, isParts, only⟩ := some m rfl
      obtain ⟨y, cache'', ran', hc'', good⟩ := ihSome m hc'
        (fun q mem => by
          rcases List.mem_append.1 mem with mem | mem
          · obtain ⟨d, child, rfl⟩ := List.mem_map.1 mem
            exact liveChildren d (List.mem_reverse.1 child)
          · exact later q mem)
        (traced.visit isParts only)
      refine ⟨y, cache'', ran', hc'', fun marks' same => ?_⟩
      obtain ⟨traced', grows, all, supported⟩ := good marks' same
      have second := growsIn_markAll r.name (marks.mark r.name p.digest) (parts m)
      refine ⟨traced', (first.trans second).trans grows, fun q mem => ?_,
        (found.trans (supported_markAll r.name _ isParts)).trans supported⟩
      rcases List.mem_cons.1 mem with rfl | mem
      · exact grows.1 _ _ (second.1 _ _ visited)
      · exact all q (List.mem_append_right _ mem)

theorem run_trace_ok (loading : Loading s b r C L B K)
    (loads : ∀ cache, C cache → ∀ p, L p → ((s.world b cache).run (load r p)).1.isOk = true)
    (marks : MarkSet) (pending : List Pending) {cache : DescriptorCache} (hc : C cache)
    (live : ∀ p ∈ pending, L p) :
    ((s.world b cache).run (trace r marks pending)).1.isOk = true := by
  induction marks, pending using trace.induct r generalizing cache with
  | case1 marks =>
    rw [trace]
    rfl
  | case2 marks p rest marked ih =>
    rw [trace, dif_pos marked]
    exact ih hc fun q mem => live q (List.mem_cons_of_mem p mem)
  | case3 marks p rest unmarked ihNone ihSome =>
    have later : ∀ q ∈ rest, L q := fun q mem => live q (List.mem_cons_of_mem p mem)
    obtain ⟨x, cache', ran, hc', some, -⟩ :=
      loading.run_load cache hc p (live p List.mem_cons_self)
    have ok := loads cache hc p (live p List.mem_cons_self)
    rw [ran] at ok
    rw [trace, dif_neg unmarked, run_bind, ran]
    rcases x with e | _ | m
    · cases ok
    · exact ihNone hc' later
    · refine ihSome m hc' fun q mem => ?_
      rcases List.mem_append.1 mem with mem | mem
      · obtain ⟨d, child, rfl⟩ := List.mem_map.1 mem
        exact (some m rfl).1 d (List.mem_reverse.1 child)
      · exact later q mem

end
end ImageRegistry.Marking
