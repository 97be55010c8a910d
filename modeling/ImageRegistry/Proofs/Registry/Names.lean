import ImageRegistry.Content.Digest
import ImageRegistry.Naming.RepositoryName
import ImageRegistry.Naming.TagName
import ImageRegistry.Naming.UploadId
import ImageRegistry.Registry.Layout
import ImageRegistry.Proofs.Storage.Paths

/-! The names in a registry as steps along a path: a digest, a tag and an upload session are one
step, and a repository is a step for each component of its name. -/

namespace ImageRegistry

open ImageRegistry.Path (IsStep)

lemma Hex.ne_of_isLowerDigit {c d : Char} (h : isLowerDigit c = true)
    (other : isLowerDigit d = false) : c ≠ d := by
  rintro rfl
  rw [h] at other
  cases other

lemma isStep_of_isLowerDigit {cs : List Char} (nonempty : cs ≠ [])
    (h : ∀ c ∈ cs, Hex.isLowerDigit c = true) : IsStep (String.ofList cs) := by
  rw [IsStep, String.toList_ofList]
  constructor
  · exact fun mem => Hex.ne_of_isLowerDigit (h _ mem) (d := '/') (by decide) rfl
  · obtain ⟨c, rest, rfl⟩ := List.exists_cons_of_ne_nil nonempty
    exact ⟨c, rest, rfl, Hex.ne_of_isLowerDigit (h c List.mem_cons_self) (by decide)⟩

namespace Digest

lemma length_hex (d : Digest) : d.hex.toList.length = 64 := by
  have := d.isHex
  simp only [isDigestHex, Bool.and_eq_true, beq_iff_eq] at this
  exact this.1

lemma isLowerDigit_of_mem_hex {d : Digest} {c : Char} (h : c ∈ d.hex.toList) :
    Hex.isLowerDigit c = true := by
  have := d.isHex
  simp only [isDigestHex, Bool.and_eq_true, List.all_eq_true] at this
  exact this.2 c h

lemma isStep_hex (d : Digest) : IsStep d.hex := by
  rw [← String.ofList_toList (s := d.hex)]
  refine isStep_of_isLowerDigit ?_ fun c h => isLowerDigit_of_mem_hex h
  intro empty
  have := d.length_hex
  rw [empty] at this
  cases this

lemma isStep_shard (d : Digest) : IsStep (Layout.shard d) := by
  refine isStep_of_isLowerDigit ?_ fun c h => isLowerDigit_of_mem_hex (List.mem_of_mem_take h)
  intro empty
  have := congrArg List.length empty
  rw [List.length_take, length_hex] at this
  cases this

end Digest

namespace TagName

lemma isStep_of_accepts {t : String} (h : accepts t = true) : IsStep t := by
  unfold accepts at h
  cases ht : t.toList with
  | nil => rw [ht] at h; cases h
  | cons c cs =>
    simp only [ht, Bool.and_eq_true] at h
    obtain ⟨⟨first, rest⟩, _⟩ := h
    have dot : c ≠ '.' := by
      rintro rfl
      exact absurd first (by decide +kernel)
    refine ⟨?_, c, cs, ht, dot⟩
    rw [ht]
    intro mem
    rcases List.mem_cons.1 mem with rfl | mem
    · exact absurd first (by decide +kernel)
    · exact absurd (List.all_eq_true.1 rest _ mem) (by decide +kernel)

end TagName

namespace UploadId

lemma isStep_text (id : UploadId) : IsStep id.text := by
  have digits : ∀ c ∈ id.digits, Hex.isLowerDigit c = true :=
    List.all_eq_true.1 id.isLower
  obtain ⟨c, cs, hc⟩ : ∃ c cs, id.digits = c :: cs :=
    List.exists_cons_of_ne_nil fun empty => by
      have := id.length_digits
      rw [empty] at this
      cases this
  rw [IsStep, text, String.toList_ofList]
  constructor
  · intro mem
    have slash : ¬Hex.isLowerDigit '/' = true := by decide
    simp only [grouped, List.mem_append, List.mem_cons, Char.reduceEq, false_or] at mem
    rcases mem with h | h | h | h | h
    · exact slash (digits _ (List.mem_of_mem_take h))
    · exact slash (digits _ (List.mem_of_mem_drop (List.mem_of_mem_take h)))
    · exact slash (digits _ (List.mem_of_mem_drop (List.mem_of_mem_take h)))
    · exact slash (digits _ (List.mem_of_mem_drop (List.mem_of_mem_take h)))
    · exact slash (digits _ (List.mem_of_mem_drop h))
  · refine ⟨c, _, by rw [grouped, hc]; rfl, ?_⟩
    exact Hex.ne_of_isLowerDigit (digits c (hc ▸ List.mem_cons_self)) (by decide)

lemma filter_grouped {ds : List Char} (h : ∀ c ∈ ds, Hex.isLowerDigit c = true) :
    (grouped ds).filter Hex.isLowerDigit = ds := by
  have keep : ∀ part : List Char, (∀ c ∈ part, c ∈ ds) →
      part.filter Hex.isLowerDigit = part := fun part sub =>
    List.filter_eq_self.2 fun c mem => h c (sub c mem)
  have hyphen : Hex.isLowerDigit '-' = false := by decide
  have next (m n : Nat) : (ds.drop m).take n ++ ds.drop (m + n) = ds.drop m := by
    rw [← List.drop_drop, List.take_append_drop]
  simp only [grouped, List.filter_append, List.filter_cons, hyphen, Bool.false_eq_true, if_false]
  rw [keep (ds.take 8) fun _ => List.mem_of_mem_take,
    keep ((ds.drop 8).take 4) fun _ mem => List.mem_of_mem_drop (List.mem_of_mem_take mem),
    keep ((ds.drop 12).take 4) fun _ mem => List.mem_of_mem_drop (List.mem_of_mem_take mem),
    keep ((ds.drop 16).take 4) fun _ mem => List.mem_of_mem_drop (List.mem_of_mem_take mem),
    keep (ds.drop 20) fun _ => List.mem_of_mem_drop,
    next 16 4, next 12 4, next 8 4, List.take_append_drop]

lemma text_injective {a b : UploadId} (h : a.text = b.text) : a = b := by
  have same : grouped a.digits = grouped b.digits := String.ofList_injective h
  have digits : a.digits = b.digits := by
    rw [← filter_grouped (List.all_eq_true.1 a.isLower), same,
      filter_grouped (List.all_eq_true.1 b.isLower)]
  cases a
  cases b
  cases digits
  rfl

end UploadId

namespace RepositoryName

def steps (n : RepositoryName) : List String := splitText '/' n.text

lemma not_isRunChar_slash : isRunChar '/' = false := by decide

lemma accepts_library : accepts "library" = true := by decide +kernel

lemma accepts_libraryApp : accepts "library/app" = true := by decide +kernel

lemma begins_of_completes {p : Progress} {cs : List Char} (h : completes p cs = true)
    {first : List Char} {rest : List (List Char)} (hp : pieces '/' cs = first :: rest) :
    (p = .beforeRun → ∃ c more, first = c :: more ∧ isRunChar c = true) ∧
      ∀ piece ∈ rest, ∃ c more, piece = c :: more ∧ isRunChar c = true := by
  induction cs generalizing p first rest with
  | nil =>
    rw [pieces_nil, List.cons.injEq] at hp
    obtain ⟨rfl, rfl⟩ := hp
    refine ⟨?_, by simp⟩
    rintro rfl
    cases h
  | cons c cs ih =>
    rw [completes] at h
    cases hq : p.next? c with
    | none => rw [hq] at h; cases h
    | some q =>
      rw [hq] at h
      obtain ⟨first', rest', hp'⟩ := List.exists_cons_of_ne_nil (pieces_ne_nil '/' cs)
      obtain ⟨ihFirst, ihRest⟩ := ih h hp'
      rw [pieces_cons, hp'] at hp
      by_cases slash : c = '/'
      · subst slash
        simp only [consPiece, if_true, List.cons.injEq] at hp
        obtain ⟨rfl, rfl⟩ := hp
        have facts : p ≠ .beforeRun ∧ q = .beforeRun := by
          cases p <;> simp [Progress.next?, not_isRunChar_slash] at hq ⊢
          exact hq.symm
        refine ⟨fun hp => absurd hp facts.1, ?_⟩
        intro piece mem
        rcases List.mem_cons.1 mem with rfl | mem
        · exact ihFirst facts.2
        · exact ihRest piece mem
      · simp only [consPiece, if_neg slash, List.cons.injEq] at hp
        obtain ⟨rfl, rfl⟩ := hp
        refine ⟨?_, ihRest⟩
        rintro rfl
        refine ⟨c, first', rfl, ?_⟩
        by_contra other
        simp [Progress.next?, other] at hq

lemma begins_of_mem_steps {n : RepositoryName} {s : String} (h : s ∈ n.steps) :
    '/' ∉ s.toList ∧ ∃ c cs, s.toList = c :: cs ∧ isRunChar c = true := by
  have accepted := n.accepted
  simp only [accepts, Bool.and_eq_true] at accepted
  obtain ⟨piece, mem, rfl⟩ := List.mem_map.1 h
  rw [String.toList_ofList]
  refine ⟨not_mem_of_mem_pieces mem, ?_⟩
  obtain ⟨first, rest, hp⟩ := List.exists_cons_of_ne_nil (pieces_ne_nil '/' n.text.toList)
  obtain ⟨hFirst, hRest⟩ := begins_of_completes accepted.2 hp
  rw [hp] at mem
  rcases List.mem_cons.1 mem with rfl | mem
  · exact hFirst rfl
  · exact hRest piece mem

lemma isStep_of_mem_steps {n : RepositoryName} {s : String} (h : s ∈ n.steps) : IsStep s := by
  obtain ⟨noSlash, c, cs, hs, run⟩ := begins_of_mem_steps h
  refine ⟨noSlash, c, cs, hs, ?_⟩
  rintro rfl
  exact absurd run (by decide)

lemma not_isPart_of_mem_steps {n : RepositoryName} {s : String} (h : s ∈ n.steps) :
    Layout.isPart s = false := by
  obtain ⟨_, c, cs, hs, run⟩ := begins_of_mem_steps h
  have other : c ≠ '_' := by
    rintro rfl
    exact absurd run (by decide)
  simp [Layout.isPart, hs, other]

lemma intercalate_steps (n : RepositoryName) : String.intercalate "/" n.steps = n.text :=
  intercalate_splitText n.text

lemma steps_injective {m n : RepositoryName} (h : m.steps = n.steps) : m = n := by
  have : m.text = n.text := by rw [← intercalate_steps, h, intercalate_steps]
  cases m
  cases n
  cases this
  rfl

lemma steps_ne_nil (n : RepositoryName) : n.steps ≠ [] := by
  simp [steps, splitText, pieces_ne_nil]

lemma relative (n : RepositoryName) : n.text.toList.head? ≠ some '/' := by
  have accepted := n.accepted
  simp only [accepts, Bool.and_eq_true] at accepted
  cases hn : n.text.toList with
  | nil => simp
  | cons c cs =>
    rw [hn] at accepted
    rintro head
    cases head
    exact absurd accepted.2 (by simp [completes, Progress.next?, not_isRunChar_slash])

end RepositoryName
end ImageRegistry
