import ImageRegistry.Reading
import ImageRegistry.Proofs.Registry.Names
import ImageRegistry.Proofs.Text.Words

/-! The grammars of names. A repository name is read character by character and a tag name is
checked character by character; what is accepted are the texts of a grammar that says how they are
put together. -/

namespace ImageRegistry
namespace RepositoryName

/-- A run of lower case letters and digits. -/
def IsRun (cs : List Char) : Prop :=
  cs ≠ [] ∧ ∀ c ∈ cs, ('a' ≤ c ∧ c ≤ 'z') ∨ ('0' ≤ c ∧ c ≤ '9')

/-- What may stand between two runs. -/
inductive IsSeparator : List Char → Prop
  | dot : IsSeparator ['.']
  | underscore : IsSeparator ['_']
  | underscores : IsSeparator ['_', '_']
  | hyphens (n : Nat) : IsSeparator (List.replicate (n + 1) '-')

/-- Runs with separators between them. -/
inductive IsComponent : List Char → Prop
  | run {run : List Char} (isRun : IsRun run) : IsComponent run
  | joined {run separator rest : List Char} (isRun : IsRun run) (between : IsSeparator separator)
      (more : IsComponent rest) : IsComponent (run ++ separator ++ rest)

/-- Components with slashes between them. -/
inductive IsName : List Char → Prop
  | component {part : List Char} (isComponent : IsComponent part) : IsName part
  | under {part rest : List Char} (isComponent : IsComponent part) (more : IsName rest) :
      IsName (part ++ '/' :: rest)

lemma isRunChar_iff {c : Char} :
    isRunChar c = true ↔ ('a' ≤ c ∧ c ≤ 'z') ∨ ('0' ≤ c ∧ c ≤ '9') := by
  delta isRunChar Char.isLower Char.isDigit
  simp [Char.le_def]

lemma completes_run {run : List Char} (isRun : IsRun run) (p : Progress) (cs : List Char) :
    completes p (run ++ cs) = completes .inRun cs := by
  obtain ⟨nonempty, chars⟩ := isRun
  induction run generalizing p with
  | nil => exact absurd rfl nonempty
  | cons c run ih =>
    have first : isRunChar c = true := isRunChar_iff.2 (chars c List.mem_cons_self)
    have next : p.next? c = some .inRun := by cases p <;> simp [Progress.next?, first]
    rw [List.cons_append, completes, next]
    cases run with
    | nil => rfl
    | cons d run =>
      exact ih .inRun (List.cons_ne_nil d run) fun e mem => chars e (List.mem_cons_of_mem c mem)

lemma completes_replicate (n : Nat) (cs : List Char) :
    completes .hyphens (List.replicate n '-' ++ cs) = completes .hyphens cs := by
  induction n with
  | zero => rfl
  | succ n ih => exact ih

lemma completes_separator {separator : List Char} (between : IsSeparator separator)
    (cs : List Char) : ∃ p, completes .inRun (separator ++ cs) = completes p cs := by
  cases between with
  | dot => exact ⟨.beforeRun, rfl⟩
  | underscore => exact ⟨.underscore, rfl⟩
  | underscores => exact ⟨.beforeRun, rfl⟩
  | hyphens n => exact ⟨.hyphens, completes_replicate n cs⟩

lemma completes_component {part : List Char} (isComponent : IsComponent part) (p : Progress)
    (cs : List Char) : completes p (part ++ cs) = completes .inRun cs := by
  induction isComponent generalizing p with
  | run isRun => exact completes_run isRun p cs
  | @joined run separator rest isRun between more ih =>
    obtain ⟨q, read⟩ := completes_separator between (rest ++ cs)
    rw [List.append_assoc, List.append_assoc, completes_run isRun, read, ih]

lemma completes_of_isName {cs : List Char} (isName : IsName cs) :
    completes .beforeRun cs = true := by
  induction isName with
  | @component part isComponent =>
    have read := completes_component isComponent .beforeRun []
    rw [List.append_nil] at read
    rw [read]
    rfl
  | under isComponent more ih =>
    rw [completes_component isComponent]
    exact ih

/-- What may follow a run: nothing, or a slash or a separator and then a name. -/
inductive Follows : List Char → Prop
  | nothing : Follows []
  | slash {rest : List Char} (more : IsName rest) : Follows ('/' :: rest)
  | separator {separator rest : List Char} (between : IsSeparator separator)
      (more : IsName rest) : Follows (separator ++ rest)

lemma Follows.isName {run rest : List Char} (follows : Follows rest) (isRun : IsRun run) :
    IsName (run ++ rest) := by
  cases follows with
  | nothing =>
    rw [List.append_nil]
    exact .component (.run isRun)
  | slash more => exact .under (.run isRun) more
  | separator between more =>
    -- the separator makes the run and the first component behind it one component
    cases more with
    | component isComponent =>
      rw [← List.append_assoc]
      exact .component (.joined isRun between isComponent)
    | under isComponent more =>
      rw [← List.append_assoc, ← List.append_assoc]
      exact .under (.joined isRun between isComponent) more

def Remains : Progress → List Char → Prop
  | .beforeRun, cs => IsName cs
  | .inRun, cs => ∃ run rest, cs = run ++ rest ∧ (∀ c ∈ run, isRunChar c = true) ∧ Follows rest
  | .underscore, cs => IsName cs ∨ ∃ rest, cs = '_' :: rest ∧ IsName rest
  | .hyphens, cs => ∃ n rest, cs = List.replicate n '-' ++ rest ∧ IsName rest

lemma Remains.isName_cons {c : Char} {cs : List Char} (first : isRunChar c = true)
    (remains : Remains .inRun cs) : IsName (c :: cs) := by
  obtain ⟨run, rest, rfl, chars, follows⟩ := remains
  have isRun : IsRun (c :: run) := by
    refine ⟨List.cons_ne_nil c run, fun d mem => ?_⟩
    rcases List.mem_cons.1 mem with rfl | mem
    · exact isRunChar_iff.1 first
    · exact isRunChar_iff.1 (chars d mem)
  exact follows.isName isRun

lemma Follows.remains {cs : List Char} (follows : Follows cs) : Remains .inRun cs :=
  ⟨[], cs, rfl, by simp, follows⟩

lemma Remains.cons {p q : Progress} {c : Char} {cs : List Char} (next : p.next? c = some q)
    (remains : Remains q cs) : Remains p (c :: cs) := by
  by_cases isRun : isRunChar c = true
  · have same : q = .inRun := by cases p <;> simpa [Progress.next?, isRun, eq_comm] using next
    subst same
    cases p with
    | beforeRun => exact remains.isName_cons isRun
    | inRun =>
      obtain ⟨run, rest, rfl, chars, follows⟩ := remains
      exact ⟨c :: run, rest, rfl, List.forall_mem_cons.2 ⟨isRun, chars⟩, follows⟩
    | underscore => exact .inl (remains.isName_cons isRun)
    | hyphens => exact ⟨0, _, rfl, remains.isName_cons isRun⟩
  · cases p with
    | beforeRun => simp [Progress.next?, isRun] at next
    | inRun =>
      apply Follows.remains
      simp only [Progress.next?, if_neg isRun] at next
      split_ifs at next with boundary underscore hyphen
      · cases next
        rcases boundary with rfl | rfl
        · exact .separator .dot remains
        · exact .slash remains
      · cases next
        subst underscore
        rcases remains with more | ⟨rest, rfl, more⟩
        · exact .separator .underscore more
        · exact .separator .underscores more
      · cases next
        subst hyphen
        obtain ⟨n, rest, rfl, more⟩ := remains
        exact .separator (.hyphens n) more
    | underscore =>
      simp only [Progress.next?, if_neg isRun] at next
      split_ifs at next with underscore
      cases next
      subst underscore
      exact .inr ⟨cs, rfl, remains⟩
    | hyphens =>
      simp only [Progress.next?, if_neg isRun] at next
      split_ifs at next with hyphen
      cases next
      subst hyphen
      obtain ⟨n, rest, rfl, more⟩ := remains
      exact ⟨n + 1, rest, rfl, more⟩

lemma remains_of_completes {p : Progress} {cs : List Char} (h : completes p cs = true) :
    Remains p cs := by
  induction cs generalizing p with
  | nil =>
    have same : p = .inRun := by simpa [completes] using h
    subst same
    exact Follows.nothing.remains
  | cons c cs ih =>
    rw [completes] at h
    cases next : p.next? c with
    | none =>
      rw [next] at h
      cases h
    | some q =>
      rw [next] at h
      exact Remains.cons next (ih h)

theorem completes_iff (cs : List Char) : completes .beforeRun cs = true ↔ IsName cs :=
  ⟨remains_of_completes, completes_of_isName⟩

theorem accepts_iff {s : String} :
    accepts s = true ↔ s.utf8ByteSize ≤ 255 ∧ IsName s.toList := by
  rw [accepts, Bool.and_eq_true, decide_eq_true_eq, completes_iff, maxOctets]

lemma read_eq_ok_iff {s : String} {n : RepositoryName} : read s = .ok n ↔ n.text = s := by
  constructor
  · intro h
    unfold read at h
    cases found : ofText? s with
    | none =>
      rw [found] at h
      cases h
    | some m =>
      rw [found] at h
      cases h
      exact (ofText?_eq_some_iff.1 found).symm
  · rintro rfl
    rw [read, ofText?_text]

lemma notMem_of_completes {c : Char} (nowhere : ∀ p : Progress, p.next? c = none) {p : Progress}
    {cs : List Char} (h : completes p cs = true) : c ∉ cs := by
  induction cs generalizing p with
  | nil => exact List.not_mem_nil
  | cons d cs ih =>
    rw [completes] at h
    cases next : p.next? d with
    | none =>
      rw [next] at h
      cases h
    | some q =>
      rw [next] at h
      intro mem
      rcases List.mem_cons.1 mem with rfl | mem
      · rw [nowhere p] at next
        cases next
      · exact ih h mem

lemma next?_lineBreak (p : Progress) : p.next? '\n' = none := by
  cases p <;> decide

lemma read_lineBreak {s : String} (h : '\n' ∈ s.toList) : read s = .error (.nameInvalid s) := by
  have refused : ¬accepts s = true := by
    intro accepted
    rw [accepts, Bool.and_eq_true] at accepted
    exact notMem_of_completes next?_lineBreak accepted.2 h
  rw [read, show ofText? s = none from dif_neg refused]

lemma component_facts {n : RepositoryName} {part : String} (h : part ∈ n.steps) :
    part ≠ "" ∧ part ≠ "." ∧ part ≠ ".." ∧ part.toList.head? ≠ some '_' := by
  obtain ⟨-, c, cs, hs, run⟩ := begins_of_mem_steps h
  have other {d : Char} (notRun : isRunChar d = false) : c ≠ d := by
    rintro rfl
    rw [run] at notRun
    cases notRun
  refine ⟨?_, ?_, ?_, ?_⟩
  · rintro rfl
    cases hs
  · rintro rfl
    cases hs
    exact other (d := '.') (by decide) rfl
  · rintro rfl
    cases hs
    exact other (d := '.') (by decide) rfl
  · rw [hs]
    rintro head
    cases head
    exact other (d := '_') (by decide) rfl

end RepositoryName

namespace TagName

/-- A text of word characters, dots and hyphens that begins with a word character. -/
structure IsName (s : String) : Prop where
  nonempty : 1 ≤ s.length
  short : s.length ≤ 128
  chars : ∀ c ∈ s.toList, WordTable.Has c.toNat ∨ c = '.' ∨ c = '-'
  first : ∀ c, s.toList.head? = some c → WordTable.Has c.toNat

theorem accepts_iff {s : String} : accepts s = true ↔ IsName s := by
  have rest (c : Char) :
      isRestChar c = true ↔ WordTable.Has c.toNat ∨ c = '.' ∨ c = '-' := by
    simp [isRestChar, isWordChar_iff, or_assoc]
  have counted : s.length = s.toList.length := String.length_toList.symm
  constructor
  · intro h
    unfold accepts at h
    cases hs : s.toList with
    | nil =>
      rw [hs] at h
      cases h
    | cons c cs =>
      simp only [hs, maxLength, Bool.and_eq_true, List.all_eq_true] at h
      obtain ⟨⟨word, chars⟩, short⟩ := h
      replace short : cs.length < 128 := of_decide_eq_true short
      rw [hs, List.length_cons] at counted
      have first := (isWordChar_iff c).1 word
      refine ⟨by omega, by omega, fun d mem => ?_, fun d head => ?_⟩
      · rw [hs] at mem
        rcases List.mem_cons.1 mem with rfl | mem
        · exact .inl first
        · exact (rest d).1 (chars d mem)
      · rw [hs] at head
        cases head
        exact first
  · rintro ⟨nonempty, short, chars, first⟩
    cases hs : s.toList with
    | nil =>
      rw [hs] at counted
      rw [counted] at nonempty
      cases nonempty
    | cons c cs =>
      rw [hs] at first chars counted
      rw [List.length_cons] at counted
      have tail : cs.length < 128 := by omega
      simp only [accepts, hs, maxLength, Bool.and_eq_true, List.all_eq_true]
      refine ⟨⟨(isWordChar_iff c).2 (first c rfl), fun d mem => ?_⟩, decide_eq_true tail⟩
      exact (rest d).2 (chars d (List.mem_cons_of_mem c mem))

lemma check_eq_ok_iff {s : String} : check s = .ok () ↔ accepts s = true := by
  unfold check
  split <;> simp_all

lemma check_lineBreak {s : String} (h : '\n' ∈ s.toList) : check s = .error (.tagInvalid s) := by
  have refused : ¬accepts s = true := by
    intro accepted
    rcases (accepts_iff.1 accepted).chars '\n' h with word | dot | hyphen
    · exact absurd ((isWordChar_iff '\n').2 word) (by decide +kernel)
    · cases dot
    · cases hyphen
  rw [check, if_neg refused]

lemma step_facts {s : String} (h : accepts s = true) : '/' ∉ s.toList ∧ s ≠ "." ∧ s ≠ ".." := by
  obtain ⟨noSlash, c, cs, hs, notDot⟩ := isStep_of_accepts h
  refine ⟨noSlash, ?_, ?_⟩
  · rintro rfl
    cases hs
    exact notDot rfl
  · rintro rfl
    cases hs
    exact notDot rfl

end TagName

/-- Names are accepted by their grammars. A text is read as the name of a repository exactly if it
has at most 255 octets and consists of components between slashes, in which runs of lower case
letters and digits are separated by a dot, by one or two underscores, or by hyphens; and as the name
of a tag exactly if it consists of at most 128 word characters, dots and hyphens, the first one a
word character. So no component leads nowhere, up or to a part of a repository, no tag leads further
than one step, and a line break is refused wherever it stands, also at the end. -/
theorem names_accepted_iff (s : String) :
    ((∃ n, RepositoryName.read s = .ok n) ↔
      s.utf8ByteSize ≤ 255 ∧ RepositoryName.IsName s.toList) ∧
    (TagName.check s = .ok () ↔ TagName.IsName s) ∧
    (∀ n, RepositoryName.read s = .ok n → n.text = s ∧ ∀ part ∈ splitText '/' s,
      part ≠ "" ∧ part ≠ "." ∧ part ≠ ".." ∧ part.toList.head? ≠ some '_') ∧
    (TagName.check s = .ok () → '/' ∉ s.toList ∧ s ≠ "." ∧ s ≠ "..") ∧
    ('\n' ∈ s.toList → RepositoryName.read s = .error (.nameInvalid s) ∧
      TagName.check s = .error (.tagInvalid s)) := by
  refine ⟨?_, ?_, ?_, ?_, ?_⟩
  · rw [← RepositoryName.accepts_iff]
    constructor
    · rintro ⟨n, read⟩
      rw [← RepositoryName.read_eq_ok_iff.1 read]
      exact n.accepted
    · intro accepted
      exact ⟨⟨s, accepted⟩, RepositoryName.read_eq_ok_iff.2 rfl⟩
  · exact TagName.check_eq_ok_iff.trans TagName.accepts_iff
  · intro n read
    obtain rfl := RepositoryName.read_eq_ok_iff.1 read
    exact ⟨rfl, fun part mem => RepositoryName.component_facts mem⟩
  · intro checked
    exact TagName.step_facts (TagName.check_eq_ok_iff.1 checked)
  · intro lineBreak
    exact ⟨RepositoryName.read_lineBreak lineBreak, TagName.check_lineBreak lineBreak⟩

end ImageRegistry
