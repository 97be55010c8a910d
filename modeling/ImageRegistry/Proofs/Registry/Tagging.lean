import ImageRegistry.Proofs.Registry.Listing
import ImageRegistry.Proofs.Registry.Making

/-! Tags as a table. Whatever is done to the tags of a repository, in any order, what is found of
them is what a table of names tells, in which each name stands with the digests that it was
given. -/

namespace ImageRegistry

open World

/-- A call that changes the tags of a repository. -/
inductive TagCall where
  | assign (tag : String) (d : Digest)
  | remove (tag : String)
  deriving DecidableEq

namespace TagCall

def tag : TagCall → String
  | assign t _ | remove t => t

def action (n : RepositoryName) : TagCall → Action Unit
  | assign t d => Tags.assign n t d
  | remove t => Tags.remove n t

def performAll (n : RepositoryName) :
    World → List TagCall → List (Except RegistryError Unit) × World
  | w, [] => ([], w)
  | w, call :: rest =>
    let (x, w) := w.run (call.action n)
    let (xs, w) := performAll n w rest
    (x :: xs, w)

end TagCall

/-- The digests that each name was given since it was last removed, the last one first. A name that
is not there has none. -/
abbrev TagTable := String → List Digest

namespace TagTable

def empty : TagTable := fun _ => []

/-- Answers a call. Only a name that is there can be removed. -/
def answer (m : TagTable) : TagCall → Except RegistryError Unit × TagTable
  | .assign t d => (.ok (), Function.update m t (d :: m t))
  | .remove t => (if m t = [] then .error (.tagUnknown t) else .ok (), Function.update m t [])

def answerAll : TagTable → List TagCall → List (Except RegistryError Unit) × TagTable
  | m, [] => ([], m)
  | m, call :: rest =>
    let (x, m) := m.answer call
    let (xs, m) := answerAll m rest
    (x :: xs, m)

/-- A ledger holds the tags of a repository as a table tells them. -/
structure Describes (m : TagTable) (n : RepositoryName) (b : Bucket) : Prop where
  isLedger : b.IsLedger
  target : ∀ t, TagName.accepts t = true → b.target? n t = (m t).head?
  entry : ∀ t d, TagName.accepts t = true → (b.Has (.tagEntry n t d) ↔ d ∈ m t)

end TagTable

namespace Bucket

/-- Two buckets hold the same at and below a path. -/
def AgreeBelow (base : Path) (b other : Bucket) : Prop :=
  ∀ cs, base.components <+: cs → b[cs]? = other[cs]?

namespace AgreeBelow

variable {base path : Path} {b c : Bucket}

lemma content?_eq (agree : AgreeBelow base b c) {key : Path}
    (below : base.components <+: key.components) : b.content? key = c.content? key := by
  rw [content?, content?, agree _ below]

lemma put (agree : AgreeBelow base b c) (key : Path) (content : Octets) :
    AgreeBelow base (b.put key content) (c.put key content) := by
  intro cs below
  rw [Bucket.put, Bucket.put, Std.ExtTreeMap.getElem?_insert, Std.ExtTreeMap.getElem?_insert]
  split_ifs with same
  · rw [Std.compare_eq_iff_eq] at same
    rw [same, agree cs below]
  · exact agree cs below

lemma remove (agree : AgreeBelow base b c) (key : Path) :
    AgreeBelow base (b.remove key) (c.remove key) := by
  intro cs below
  rw [Bucket.remove, Bucket.remove, Std.ExtTreeMap.getElem?_erase, Std.ExtTreeMap.getElem?_erase,
    agree cs below]

lemma removeAll (agree : AgreeBelow base b c) (keys : List Path) :
    AgreeBelow base (keys.foldl Bucket.remove b) (keys.foldl Bucket.remove c) := by
  induction keys generalizing b c with
  | nil => exact agree
  | cons key keys ih => exact ih (agree.remove key)

lemma keys_eq (agree : AgreeBelow base b c) (below : base.components <+: path.components) :
    b.keys (some path) = c.keys (some path) := by
  let listed (b : Bucket) := b.toList.filter fun entry => path.components.isPrefixOf entry.1
  have ordered (b : Bucket) : (listed b).Pairwise fun x y => compare x.1 y.1 = .lt :=
    Std.ExtTreeMap.ordered_keys_toList.filter _
  have nodup (b : Bucket) : (listed b).Nodup := (ordered b).imp fun less same => by
    rw [same, Std.compare_self] at less
    cases less
  have mem : ∀ entry, entry ∈ listed b ↔ entry ∈ listed c := by
    rintro ⟨cs, stored⟩
    simp only [listed, List.mem_filter, Std.ExtTreeMap.mem_toList_iff_getElem?_eq_some]
    refine and_congr_left fun startsBelow => ?_
    rw [agree cs (below.trans (List.isPrefixOf_iff_prefix.1 startsBelow))]
  -- both are in the order of their keys, so that the same entries make the same list
  have same : listed b = listed c := by
    refine ((List.perm_ext_iff_of_nodup (nodup b) (nodup c)).2 mem).eq_of_pairwise
      (fun x y _ _ less greater => ?_) (ordered b) (ordered c)
    rw [Std.OrientedOrd.eq_swap, less] at greater
    cases greater
  exact congrArg (List.map fun entry => entry.2.spelling) same

lemma of_keys_eq_nil (clear : b.keys (some base) = []) : AgreeBelow base b ∅ := by
  intro cs below
  rw [Std.ExtTreeMap.getElem?_empty, Option.eq_none_iff_forall_ne_some]
  intro stored found
  have listed : stored.spelling ∈ b.keys (some base) :=
    mem_keys.2 ⟨cs, stored, found, List.isPrefixOf_iff_prefix.2 below, rfl⟩
  rw [clear] at listed
  cases listed

end AgreeBelow
end Bucket

lemma Layout.tags_prefix_tag (n : RepositoryName) {t : String}
    (accepted : TagName.accepts t = true) :
    (tags n).components <+: (tag n t).components := by
  rw [(leads_tags n).2, (leads_tag n accepted).2]
  exact ⟨[.name t], by simp⟩

lemma Layout.tags_prefix_tagEntries (n : RepositoryName) {t : String}
    (accepted : TagName.accepts t = true) :
    (tags n).components <+: (tagEntries n t).components := by
  rw [(leads_tags n).2, (leads_tagEntries n accepted).2]
  exact ⟨[.name t, .name "index"], by simp⟩

lemma Layout.tags_prefix_tagTarget (n : RepositoryName) {t : String}
    (accepted : TagName.accepts t = true) :
    (tags n).components <+: (Record.tagTarget n t).key.components := by
  rw [(leads_tags n).2, (Record.leads_key (r := .tagTarget n t) accepted).2]
  exact ⟨[.name t, .name "current", .name "link"], by
    simp [Record.steps, Record.owner?, Record.place]⟩

namespace Tags

variable (s : Site) (b : Bucket) (cache : DescriptorCache) (n : RepositoryName) (t : String)

lemma run_remove : (s.world b cache).run (remove n t) =
    (if b.keys (some (Layout.tag n t)) = [] then .error (.tagUnknown t) else .ok (),
      s.world ((b.keys (some (Layout.tag n t))).foldl Bucket.remove b) cache) := by
  rw [remove, run_bind, erase, s.run_eraseBelow]
  cases b.keys (some (Layout.tag n t)) <;> rfl

end Tags

namespace TagTable

variable {m : TagTable} {n : RepositoryName} {b c : Bucket} {t : String}

lemma describes_empty (n : RepositoryName) : empty.Describes n ∅ where
  isLedger := Bucket.isLedger_empty
  target t _ := by simp [Bucket.target?, empty]
  entry t d _ := by simp [Bucket.Has, empty]

lemma Describes.assign (describes : m.Describes n c) (accepted : TagName.accepts t = true)
    (d : Digest) : Describes (Function.update m t (d :: m t)) n (c.assigned n t d) := by
  refine ⟨describes.isLedger.assigned n accepted d, fun u accepted' => ?_,
    fun u e accepted' => ?_⟩
  · rw [Bucket.target?, Bucket.at?_assigned (r := .tagTarget n u) accepted accepted']
    by_cases same : u = t
    · subst same
      simp [d.read_trimBlanks_text, Except.toOption]
    · rw [if_neg (by simp [same]), Function.update_of_ne same, ← describes.target u accepted']
      rfl
  · rw [Bucket.Has, Bucket.at?_assigned (r := .tagEntry n u e) accepted accepted']
    by_cases same : u = t
    · subst same
      by_cases last : e = d <;> simp [last, ← describes.entry u e accepted', Bucket.Has]
    · rw [if_neg (by simp [same]), Function.update_of_ne same, ← describes.entry u e accepted']
      rfl

lemma Describes.keys_eq_nil_iff (describes : m.Describes n c)
    (accepted : TagName.accepts t = true) : c.keys (some (Layout.tag n t)) = [] ↔ m t = [] := by
  have below (r : Record) (lawful : r.IsLawful) := Layout.startsWith_tag_iff lawful n accepted
  refine not_iff_not.1 (describes.isLedger.keys_ne_nil_iff.trans ?_)
  rw [← ne_eq, ← List.isEmpty_eq_false_iff, List.isEmpty_eq_false_iff_exists_mem]
  constructor
  · rintro ⟨r, lawful, has, startsBelow⟩
    rcases (below r lawful).1 startsBelow with rfl | ⟨d, rfl⟩
    · obtain ⟨d, target⟩ := (Site.exists_target?_iff describes.isLedger accepted).2 has
      rw [describes.target t accepted] at target
      exact ⟨d, List.mem_of_mem_head? target⟩
    · exact ⟨d, (describes.entry t d accepted).1 has⟩
  · rintro ⟨d, mem⟩
    exact ⟨.tagEntry n t d, accepted, (describes.entry t d accepted).2 mem,
      (below (.tagEntry n t d) accepted).2 (.inr ⟨d, rfl⟩)⟩

lemma Describes.remove (describes : m.Describes n c) (accepted : TagName.accepts t = true) :
    Describes (Function.update m t []) n
      ((c.keys (some (Layout.tag n t))).foldl Bucket.remove c) := by
  have drops :=
    (Bucket.Drops.removeBelow describes.isLedger (Layout.tag n t)).congr fun r lawful _ =>
    (and_iff_right lawful).trans (Layout.startsWith_tag_iff lawful n accepted)
  refine ⟨drops.1, fun u accepted' => ?_, fun u d accepted' => ?_⟩
  · by_cases same : u = t
    · subst same
      rw [Bucket.target?, (drops.2 (.tagTarget n u) accepted').1 (.inl rfl)]
      simp
    · rw [Function.update_of_ne same, ← describes.target u accepted', Bucket.target?,
        (drops.2 (.tagTarget n u) accepted').2 (by simp [same])]
      rfl
  · rw [drops.has (r := .tagEntry n u d) accepted', describes.entry u d accepted']
    by_cases same : u = t
    · subst same
      simp
    · simp [same]

end TagTable

namespace TagCall

variable {s : Site} {b c : Bucket} {cache : DescriptorCache} {n : RepositoryName} {m : TagTable}

variable (s cache) in
lemma answers (agree : Bucket.AgreeBelow (Layout.tags n) b c) (describes : m.Describes n c)
    {call : TagCall} (accepted : TagName.accepts call.tag = true) :
    ∃ b' c', (s.world b cache).run (call.action n) = ((m.answer call).1, s.world b' cache) ∧
      Bucket.AgreeBelow (Layout.tags n) b' c' ∧ (m.answer call).2.Describes n c' := by
  cases call with
  | assign t d =>
    exact ⟨_, _, Tags.run_assign accepted s b cache n d, (agree.put _ _).put _ _,
      describes.assign accepted d⟩
  | remove t =>
    have accepted : TagName.accepts t = true := accepted
    have ran := Tags.run_remove s b cache n t
    rw [agree.keys_eq (Layout.tags_prefix_tag n accepted)] at ran
    simp only [describes.keys_eq_nil_iff accepted] at ran
    exact ⟨_, _, ran, agree.removeAll _, describes.remove accepted⟩

variable (s cache) in
lemma run_performAll (agree : Bucket.AgreeBelow (Layout.tags n) b c) (describes : m.Describes n c)
    {calls : List TagCall} (accepted : ∀ call ∈ calls, TagName.accepts call.tag = true) :
    ∃ b' c', performAll n (s.world b cache) calls = ((m.answerAll calls).1, s.world b' cache) ∧
      Bucket.AgreeBelow (Layout.tags n) b' c' ∧ (m.answerAll calls).2.Describes n c' := by
  induction calls generalizing m b c with
  | nil => exact ⟨b, c, rfl, agree, describes⟩
  | cons call calls ih =>
    obtain ⟨b₁, c₁, ran, agree₁, describes₁⟩ :=
      answers s cache agree describes (accepted call List.mem_cons_self)
    obtain ⟨b', c', ran', agree', describes'⟩ := ih agree₁ describes₁ fun call mem =>
      accepted call (List.mem_cons_of_mem _ mem)
    refine ⟨b', c', ?_, agree', describes'⟩
    rw [performAll, ran]
    simp only [ran', TagTable.answerAll]

end TagCall

namespace TagTable

variable {s : Site} {b c : Bucket} {cache : DescriptorCache} {n : RepositoryName} {m : TagTable}
  {t : String}

section

variable (agree : Bucket.AgreeBelow (Layout.tags n) b c) (describes : m.Describes n c)

include agree describes

lemma run_find? (accepted : TagName.accepts t = true) :
    (s.world b cache).run (Tags.find? n t) = (.ok (m t).head?, s.world b cache) := by
  have found : b.at? (.tagTarget n t) = c.at? (.tagTarget n t) :=
    agree.content?_eq (Layout.tags_prefix_tagTarget n accepted)
  have target := describes.target t accepted
  rw [Tags.find?, run_bind, Site.run_fetchRecord, found]
  cases held : c.at? (.tagTarget n t) with
  | none =>
    rw [Bucket.target?, held] at target
    rw [← target]
    rfl
  | some content =>
    obtain ⟨d, rfl⟩ := describes.isLedger.mayHold (r := .tagTarget n t) accepted held
    rw [Bucket.target?, held, Option.bind_some, Octets.toTextLenient_ofText,
      d.read_trimBlanks_text] at target
    rw [← target]
    simp [d.read_trimBlanks_text, Except.toOption]

lemma run_get (accepted : TagName.accepts t = true) : (s.world b cache).run (Tags.get n t) =
    (match (m t).head? with
      | some d => .ok d
      | none => .error (.tagUnknown t), s.world b cache) := by
  rw [Tags.get, run_bind, run_find? agree describes accepted]
  cases (m t).head? <;> rfl

lemma mem_tags : t ∈ b.tags n ↔ TagName.accepts t = true ∧ m t ≠ [] := by
  have same : b.tags n = c.tags n := by
    simp only [Bucket.tags, agree.keys_eq (List.prefix_refl _)]
  rw [same, describes.isLedger.mem_tags]
  refine and_congr_right fun accepted => ?_
  rw [← Site.exists_target?_iff describes.isLedger accepted, describes.target t accepted,
    ← Option.isSome_iff_exists, List.isSome_head?]

lemma run_standingFor (d : Digest) {ts : List String}
    (accepted : ∀ t ∈ ts, TagName.accepts t = true) :
    (s.world b cache).run (Tags.standingFor n d ts) =
      (.ok (ts.filter fun t => (m t).head? = some d), s.world b cache) := by
  induction ts with
  | nil => rfl
  | cons t ts ih =>
    rw [Tags.standingFor, run_bind, run_find? agree describes (accepted t List.mem_cons_self)]
    simp only [run_bind, ih fun u hu => accepted u (List.mem_cons_of_mem t hu), run_pure,
      List.filter_cons, decide_eq_true_eq]

lemma run_lookup (d : Digest) : (s.world b cache).run (Tags.lookup n d) =
    (.ok ((b.tags n).filter fun t => (m t).head? = some d), s.world b cache) := by
  rw [Tags.lookup, run_bind, Site.run_tags]
  exact run_standingFor agree describes d fun t mem => ((mem_tags agree describes).1 mem).1

lemma mem_remembered (accepted : TagName.accepts t = true) {d : Digest} :
    d ∈ b.remembered n t ↔ d ∈ m t := by
  have same : b.remembered n t = c.remembered n t := by
    simp only [Bucket.remembered, agree.keys_eq (Layout.tags_prefix_tagEntries n accepted)]
  rw [same, describes.isLedger.isCatalog.mem_remembered accepted]
  exact describes.entry t d accepted

end

lemma answerAll_of_not_accepts {calls : List TagCall}
    (accepted : ∀ call ∈ calls, TagName.accepts call.tag = true) (none : m t = [])
    (other : ¬TagName.accepts t = true) : (m.answerAll calls).2 t = [] := by
  induction calls generalizing m with
  | nil => exact none
  | cons call calls ih =>
    refine ih (fun call mem => accepted call (List.mem_cons_of_mem _ mem)) ?_
    have apart : t ≠ call.tag := by
      rintro rfl
      exact other (accepted call List.mem_cons_self)
    cases call with
    | assign u d => exact (Function.update_of_ne apart _ _).trans none
    | remove u => exact (Function.update_of_ne apart _ _).trans none

end TagTable

/-- Tags are a table. In a bucket that has nothing below the tags of a repository, calls with names
that are accepted, one after the other, are answered as a table of these names says. Afterwards each
name stands for the digest that it was given last, or is unknown; the names that are there are
listed, and those of a digest; and each name remembers every digest that it was given since it was
last removed. -/
theorem TagCall.performAll_refines (s : Site) {b : Bucket} {n : RepositoryName}
    (clear : b.keys (some (Layout.tags n)) = []) (cache : DescriptorCache) {calls : List TagCall}
    (accepted : ∀ call ∈ calls, TagName.accepts call.tag = true) :
    ∃ b', performAll n (s.world b cache) calls =
        ((TagTable.empty.answerAll calls).1, s.world b' cache) ∧
      let m := (TagTable.empty.answerAll calls).2
      let w := s.world b' cache
      (∀ t, TagName.accepts t = true → w.run (Tags.get n t) =
        (match (m t).head? with
          | some d => .ok d
          | none => .error (.tagUnknown t), w)) ∧
      (∃ ts, w.run (Tags.all n) = (.ok ts, w) ∧ Lists ts fun t => m t ≠ []) ∧
      (∀ d, ∃ ts, w.run (Tags.lookup n d) = (.ok ts, w) ∧
        Lists ts fun t => (m t).head? = some d) ∧
      ∀ t, TagName.accepts t = true → ∃ ds, w.run (Tags.history n t) = (.ok ds, w) ∧
        Lists ds fun d => d ∈ m t := by
  obtain ⟨b', c', ran, agree, describes⟩ := run_performAll s cache (.of_keys_eq_nil clear)
    (TagTable.describes_empty n) accepted
  have absent {t : String} (other : ¬TagName.accepts t = true) :
      (TagTable.empty.answerAll calls).2 t = [] :=
    TagTable.answerAll_of_not_accepts accepted rfl other
  refine ⟨b', ran, fun t accepted => TagTable.run_get agree describes accepted,
    ⟨_, s.run_tags cache n, pairwise_ascending _, fun t => ?_⟩,
    fun d => ⟨_, TagTable.run_lookup agree describes d, (pairwise_ascending _).filter _,
      fun t => ?_⟩,
    fun t accepted => ⟨_, s.run_remembered cache n t, pairwise_ascending _, fun d => ?_⟩⟩
  · rw [TagTable.mem_tags agree describes]
    exact and_iff_right_of_imp fun given => not_imp_comm.1 absent given
  · rw [List.mem_filter, TagTable.mem_tags agree describes, decide_eq_true_eq]
    refine and_iff_right_of_imp fun standing => ?_
    have given : (TagTable.empty.answerAll calls).2 t ≠ [] := by
      intro none
      rw [none] at standing
      cases standing
    exact ⟨not_imp_comm.1 absent given, given⟩
  · exact TagTable.mem_remembered agree describes accepted

/-- Calls with tags that are called like parts of the layout. -/
def exampleTagCalls : List TagCall := [
  .assign "current" (.ofContent []), .assign "index" (.ofContent []),
  .assign "current" (.ofContent (Octets.ofText "link")), .remove "index", .remove "index"]

/-- Of the two tags one is left, which remembers what it stood for before. -/
theorem exampleTagCalls_told :
    let n : RepositoryName := ⟨"library/app", RepositoryName.accepts_libraryApp⟩
    let s : Site := ⟨"registry", ∅, none⟩
    ∃ b, TagCall.performAll n (s.world ∅ .empty) exampleTagCalls =
        ([.ok (), .ok (), .ok (), .ok (), .error (.tagUnknown "index")], s.world b .empty) ∧
      let w := s.world b .empty
      w.run (Tags.get n "current") = (.ok (.ofContent (Octets.ofText "link")), w) ∧
      w.run (Tags.get n "index") = (.error (.tagUnknown "index"), w) ∧
      (∃ ts, w.run (Tags.all n) = (.ok ts, w) ∧ ∀ t, t ∈ ts ↔ t = "current") ∧
      w.run (Tags.lookup n (.ofContent [])) = (.ok [], w) ∧
      ∃ ds, w.run (Tags.history n "current") = (.ok ds, w) ∧ .ofContent [] ∈ ds := by
  intro n s
  have current : TagName.accepts "current" = true := by decide +kernel
  have index : TagName.accepts "index" = true := by decide +kernel
  have accepted : ∀ call ∈ exampleTagCalls, TagName.accepts call.tag = true := by
    simp [exampleTagCalls, TagCall.tag, current, index]
  obtain ⟨b, ran, gets, ⟨ts, lists, -, listed⟩, finds, remembers⟩ :=
    TagCall.performAll_refines s (b := ∅) (n := n) (by rfl) .empty accepted
  obtain ⟨ds, told, -, mem⟩ := remembers "current" current
  obtain ⟨us, found, -, standing⟩ := finds (.ofContent [])
  have only {t : String} (other : t ≠ "current") :
      (TagTable.empty.answerAll exampleTagCalls).2 t = [] := by
    by_cases isIndex : t = "index" <;>
      simp [other, isIndex, exampleTagCalls, TagTable.answerAll, TagTable.answer, TagTable.empty]
  have left : (TagTable.empty.answerAll exampleTagCalls).2 "current" =
      [.ofContent (Octets.ofText "link"), .ofContent []] := by
    simp [exampleTagCalls, TagTable.answerAll, TagTable.answer, TagTable.empty]
  have none : us = [] := by
    refine List.eq_nil_iff_forall_not_mem.2 fun t mem => ?_
    have last : ((TagTable.empty.answerAll exampleTagCalls).2 t).head? = some (.ofContent []) :=
      (standing t).1 mem
    by_cases isCurrent : t = "current"
    · rw [isCurrent, left] at last
      exact absurd (Option.some.inj last) (by decide +kernel)
    · rw [only isCurrent] at last
      cases last
  refine ⟨b, ran, gets "current" current, gets "index" index, ⟨ts, lists, fun t => ?_⟩,
    none ▸ found, ds, told, (mem _).2 (by simp [left])⟩
  refine (listed t).trans ⟨not_imp_comm.1 only, ?_⟩
  rintro rfl
  simp [left]

end ImageRegistry
