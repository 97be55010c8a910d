import ImageRegistry.Http.Route
import ImageRegistry.Proofs.Registry.Names
import ImageRegistry.Proofs.Text.Splitting

/-! Paths are read as the routes they were made for. A path is told from its end, where the words of
the interface stand, so a repository may be named by those words. Only the tag that is called like
the maintenance of a repository is taken for it. -/

namespace ImageRegistry

open ImageRegistry.Path (IsStep)

namespace TagName

lemma colon_not_mem {t : String} (accepted : accepts t = true) : ':' ∉ t.toList := by
  intro mem
  unfold accepts at accepted
  cases ht : t.toList with
  | nil => rw [ht] at accepted; cases accepted
  | cons c cs =>
    simp only [ht, Bool.and_eq_true, List.all_eq_true] at accepted
    obtain ⟨⟨first, others⟩, _⟩ := accepted
    rw [ht] at mem
    rcases List.mem_cons.1 mem with rfl | mem
    · exact absurd first (by decide +kernel)
    · exact absurd (others _ mem) (by decide +kernel)

end TagName

namespace Digest

lemma isStep_text (d : Digest) : IsStep d.text := by
  have text : d.text.toList = "sha256:".toList ++ d.hex.toList := by
    rw [Digest.text, String.toList_append]
  refine ⟨?_, 's', _, text, by decide⟩
  rw [text, List.mem_append]
  rintro (mem | mem)
  · exact absurd mem (by decide)
  · exact Hex.ne_of_isLowerDigit (isLowerDigit_of_mem_hex mem) (d := '/') (by decide) rfl

lemma colon_mem (d : Digest) : ':' ∈ d.text.toList := by
  rw [text, String.toList_append, List.mem_append]
  exact Or.inl (by decide)

lemma ne_text (d : Digest) {s : String} (plain : ':' ∉ s.toList) : s ≠ d.text :=
  fun same => plain (same ▸ d.colon_mem)

end Digest

namespace UploadId

lemma ne_text (id : UploadId) : "_housekeeping" ≠ id.text := by
  intro same
  have digits := filter_grouped (List.all_eq_true.1 id.isLower)
  have count := id.length_digits
  have chars : id.text.toList = grouped id.digits := String.toList_ofList
  rw [← digits, ← chars, ← same] at count
  exact absurd count (by decide)

end UploadId

lemma Reference.read_tag {t : String} (accepted : TagName.accepts t = true) :
    read t = .ok (tag t) := by
  have colon : t.toList.contains ':' = false := by
    rw [Bool.eq_false_iff, Ne, List.contains_iff_mem]
    exact TagName.colon_not_mem accepted
  rw [read, colon, TagName.check, if_pos accepted]
  rfl

lemma Reference.read_digest (d : Digest) : read d.text = .ok (digest d) := by
  have colon : d.text.toList.contains ':' = true := List.contains_iff_mem.2 d.colon_mem
  rw [read, colon, Digest.read, Digest.parse?_text]
  rfl

namespace Route

lemma before?_eq_some_iff {ending : String} {cs name : List Char} :
    before? ending cs = some name ↔ cs = name ++ ending.toList := by
  rw [before?, List.isSuffixOf?_eq_some_iff_append_eq, eq_comm]

lemma before?_item (folder : List Char) {last : List Char} (single : '/' ∉ last)
    (front word : String) (plain : '/' ∉ word.toList) :
    before? (front ++ "/" ++ word) (folder ++ '/' :: last) =
      if word.toList = last then before? front folder else none := by
  have ending : (front ++ "/" ++ word).toList = front.toList ++ '/' :: word.toList := by
    simp [String.toList_append]
  refine Option.ext fun name => ?_
  rw [before?_eq_some_iff, ending, ← List.append_assoc, append_separator_inj single plain]
  split_ifs with same
  · rw [before?_eq_some_iff, and_iff_left same.symm]
  · simp [Ne.symm same]

lemma before?_empty (cs : List Char) : before? "" cs = some cs := by
  rw [before?_eq_some_iff]
  simp

lemma readName_text (n : RepositoryName) : readName n.text.toList = .ok n := by
  rw [readName, String.ofList_toList, RepositoryName.read, RepositoryName.ofText?_text]

/-- A route that can be meant: its session is one, and its tag is a tag name. -/
def IsProper : Route → Prop
  | upload _ session => ∃ id : UploadId, session = id.text
  | manifest _ (.tag t) => TagName.accepts t = true
  | _ => True

/-- The paths of a route. The slash after the upload sessions may be left out. -/
def paths : Route → List String
  | uploads n => [s!"{n}/blobs/uploads/", s!"{n}/blobs/uploads"]
  | route => [route.path]

/-- The first route is the maintenance of a repository, and the second one a tag of another
repository that has its path. -/
def Shadows (route other : Route) : Prop :=
  ∃ n m : RepositoryName, m.text = n.text ++ "/manifests" ∧ route = housekeeping (some m) ∧
    other = manifest n (.tag "_housekeeping")

section Items

variable {folder last : List Char} (single : '/' ∉ last)

include single

lemma ofChars_item (other : "_housekeeping".toList ≠ last) :
    ofChars (folder ++ '/' :: last) =
      match if "list".toList = last then before? "/tags" folder else none with
      | some name => (fun n => some (tags n)) <$> readName name
      | none =>
        match (if [] = last then before? "/blobs/uploads" folder else none).or
            (if "uploads".toList = last then before? "/blobs" folder else none) with
        | some name => (fun n => some (uploads n)) <$> readName name
        | none => if last = [] then return none else ofItem folder (String.ofList last) := by
  have whole : folder ++ '/' :: last ≠ "_housekeeping".toList := fun same =>
    absurd (same ▸ List.mem_append_right _ List.mem_cons_self : '/' ∈ "_housekeeping".toList)
      (by decide)
  have maintained := before?_item folder single "" "_housekeeping" (by decide)
  have listed := before?_item folder single "/tags" "list" (by decide)
  have closed := before?_item folder single "/blobs/uploads" "" (by decide)
  have opened := before?_item folder single "/blobs" "uploads" (by decide)
  rw [if_neg other] at maintained
  rw [ofChars, if_neg whole, show "/_housekeeping" = "" ++ "/" ++ "_housekeeping" from rfl,
    maintained, show "/tags/list" = "/tags" ++ "/" ++ "list" from rfl, listed,
    show "/blobs/uploads/" = "/blobs/uploads" ++ "/" ++ "" from rfl, closed,
    show "/blobs/uploads" = "/blobs" ++ "/" ++ "uploads" from rfl, opened,
    splitLast?_append_separator folder single]
  cases last <;> rfl

omit single in
lemma ofItem_item {base word : List Char} (plain : '/' ∉ word) (other : "uploads".toList ≠ word)
    (last : String) :
    ofItem (base ++ '/' :: word) last =
      if "blobs".toList = word then
        do return some (blob (← readName base) (← Digest.read last))
      else if "manifests".toList = word then
        do return some (manifest (← readName base) (← Reference.read last))
      else return none := by
  have opened := before?_item base plain "/blobs" "uploads" (by decide)
  have held := before?_item base plain "" "blobs" (by decide)
  have described := before?_item base plain "" "manifests" (by decide)
  rw [if_neg other] at opened
  rw [before?_empty] at held described
  rw [ofItem, show "/blobs/uploads" = "/blobs" ++ "/" ++ "uploads" from rfl, opened,
    show "/blobs" = "" ++ "/" ++ "blobs" from rfl, held,
    show "/manifests" = "" ++ "/" ++ "manifests" from rfl, described]
  split_ifs <;> rfl

end Items

lemma ofPath_text (n : RepositoryName) (rest : String) :
    ofPath (n.text ++ rest) = ofChars (n.text.toList ++ rest.toList) := by
  have accepted := n.accepted
  simp only [RepositoryName.accepts, Bool.and_eq_true] at accepted
  rw [ofPath, String.toList_append]
  cases hn : n.text.toList with
  | nil => rw [hn] at accepted; exact absurd accepted.2 (by decide)
  | cons c cs =>
    have relative := n.relative
    rw [hn, List.head?_cons, Ne, Option.some.injEq] at relative
    simp [relative]

variable {n : RepositoryName}

lemma ofChars_maintenance (name : List Char) :
    ofChars (name ++ "/_housekeeping".toList) =
      (fun m => some (housekeeping (some m))) <$> readName name := by
  have whole : name ++ "/_housekeeping".toList ≠ "_housekeeping".toList := fun same =>
    absurd (same ▸ List.mem_append_right _ (by decide) : '/' ∈ "_housekeeping".toList) (by decide)
  have found : before? "/_housekeeping" (name ++ "/_housekeeping".toList) = some name :=
    before?_eq_some_iff.2 rfl
  rw [ofChars, if_neg whole, found]

lemma ofPath_housekeeping : ofPath (n.text ++ "/_housekeeping") =
    .ok (some (housekeeping (some n))) := by
  rw [ofPath_text, ofChars_maintenance, readName_text]
  rfl

lemma path_shadowed (n : RepositoryName) : (manifest n (.tag "_housekeeping")).path =
    n.text ++ "/manifests" ++ "/_housekeeping" := by
  simp [Route.path, toString, Reference.text, String.append_assoc]

lemma ofPath_shadowed : ofPath (manifest n (.tag "_housekeeping")).path =
    (fun m => some (housekeeping (some m))) <$> RepositoryName.read (n.text ++ "/manifests") := by
  rw [path_shadowed, String.append_assoc, ofPath_text, String.toList_append, ← List.append_assoc,
    ofChars_maintenance, readName, ← String.toList_append, String.ofList_toList]

lemma Shadows.path_eq {route other : Route} (shadows : Shadows route other) :
    route.path = other.path := by
  obtain ⟨n, m, below, rfl, rfl⟩ := shadows
  rw [path_shadowed, ← below]
  rfl

lemma ofPath_tags : ofPath (n.text ++ "/tags/list") = .ok (some (tags n)) := by
  have listed : before? "/tags" (n.text.toList ++ "/tags".toList) = some n.text.toList :=
    before?_eq_some_iff.2 rfl
  rw [ofPath_text, show "/tags/list".toList = "/tags".toList ++ '/' :: "list".toList from rfl,
    ← List.append_assoc, ofChars_item (by decide) (by decide), if_pos rfl, listed]
  simp only [readName_text]
  rfl

lemma ofPath_uploads {p : String} (mem : p ∈ (uploads n).paths) :
    ofPath p = .ok (some (uploads n)) := by
  have read : (fun n => some (uploads n)) <$> readName n.text.toList = .ok (some (uploads n)) := by
    rw [readName_text]
    rfl
  rcases List.mem_pair.1 mem with rfl | rfl
  · have closed : before? "/blobs/uploads" (n.text.toList ++ "/blobs/uploads".toList) =
        some n.text.toList := before?_eq_some_iff.2 rfl
    have path : s!"{n}/blobs/uploads/" = n.text ++ "/blobs/uploads/" := rfl
    rw [path, ofPath_text,
      show "/blobs/uploads/".toList = "/blobs/uploads".toList ++ '/' :: [] from rfl,
      ← List.append_assoc, ofChars_item (by decide) (by decide), if_neg (by decide), if_pos rfl,
      closed]
    exact read
  · have opened : before? "/blobs" (n.text.toList ++ "/blobs".toList) = some n.text.toList :=
      before?_eq_some_iff.2 rfl
    have path : s!"{n}/blobs/uploads" = n.text ++ "/blobs/uploads" := rfl
    rw [path, ofPath_text,
      show "/blobs/uploads".toList = "/blobs".toList ++ '/' :: "uploads".toList from rfl,
      ← List.append_assoc, ofChars_item (by decide) (by decide), if_neg (by decide),
      if_neg (by decide), if_pos rfl, opened]
    exact read

lemma ofPath_item (front : String) {word s : String} (plain : '/' ∉ word.toList) (step : IsStep s)
    (other : "_housekeeping" ≠ s) (notTags : "tags" ≠ word)
    (notUploads : "blobs" ≠ word ∨ "uploads" ≠ s) :
    ofPath (n.text ++ (front ++ "/" ++ word ++ "/" ++ s)) =
      ofItem (n.text.toList ++ front.toList ++ '/' :: word.toList) s := by
  have path : n.text.toList ++ (front ++ "/" ++ word ++ "/" ++ s).toList =
      n.text.toList ++ front.toList ++ '/' :: word.toList ++ '/' :: s.toList := by
    simp [String.toList_append]
  have nonempty : s.toList ≠ [] := by
    obtain ⟨_, _, chars, _⟩ := step.2
    rw [chars]
    exact List.cons_ne_nil _ _
  have listed := before?_item (n.text.toList ++ front.toList) plain "" "tags" (by decide)
  have opened := before?_item (n.text.toList ++ front.toList) plain "" "blobs" (by decide)
  rw [if_neg (mt String.toList_inj.1 notTags)] at listed
  have notOpened : (if "uploads".toList = s.toList then
      before? "/blobs" (n.text.toList ++ front.toList ++ '/' :: word.toList) else none) = none := by
    rw [show "/blobs" = "" ++ "/" ++ "blobs" from rfl, opened]
    split_ifs with isUploads isBlobs
    · exact absurd (String.toList_inj.1 isUploads)
        (notUploads.resolve_left (· (String.toList_inj.1 isBlobs)))
    all_goals rfl
  rw [ofPath_text, path, ofChars_item step.1 (mt String.toList_inj.1 other), notOpened,
    show "/tags" = "" ++ "/" ++ "tags" from rfl, listed, if_neg nonempty, String.ofList_toList,
    if_neg (Ne.symm nonempty), ite_self]
  rfl

lemma ofPath_upload (id : UploadId) :
    ofPath (upload n id.text).path = .ok (some (upload n id.text)) := by
  have path : (upload n id.text).path =
      n.text ++ ("/blobs" ++ "/" ++ "uploads" ++ "/" ++ id.text) := by
    simp [Route.path, toString, String.append_assoc]
  have opened : before? "/blobs/uploads"
      (n.text.toList ++ "/blobs".toList ++ '/' :: "uploads".toList) = some n.text.toList :=
    before?_eq_some_iff.2 (List.append_assoc _ _ _)
  rw [path, ofPath_item "/blobs" (by decide) id.isStep_text id.ne_text (by decide)
    (.inl (by decide)), ofItem, opened]
  simp only [readName_text]
  rfl

lemma ofPath_blob (d : Digest) : ofPath (blob n d).path = .ok (some (blob n d)) := by
  have path : (blob n d).path = n.text ++ ("" ++ "/" ++ "blobs" ++ "/" ++ d.text) := by
    simp [Route.path, toString, String.append_assoc]
  rw [path, ofPath_item "" (by decide) d.isStep_text (d.ne_text (by decide)) (by decide)
    (.inr (d.ne_text (by decide))), ofItem_item (by decide) (by decide), if_pos rfl]
  simp [readName_text, Digest.read, Digest.parse?_text, bind, Except.bind, pure, Except.pure]

lemma ofPath_manifest {reference : Reference} (step : IsStep reference.text)
    (read : Reference.read reference.text = .ok reference)
    (other : "_housekeeping" ≠ reference.text) :
    ofPath (manifest n reference).path = .ok (some (manifest n reference)) := by
  have path : (manifest n reference).path =
      n.text ++ ("" ++ "/" ++ "manifests" ++ "/" ++ reference.text) := by
    simp [Route.path, toString, String.append_assoc]
  rw [path, ofPath_item "" (by decide) step other (by decide) (.inl (by decide)),
    ofItem_item (by decide) (by decide), if_neg (by decide), if_pos rfl]
  simp [readName_text, read, bind, Except.bind, pure, Except.pure]

variable {route other : Route} {p : String}

lemma ofPath_of_mem_paths (proper : route.IsProper) (mem : p ∈ route.paths)
    (shown : ∀ n, route ≠ manifest n (.tag "_housekeeping")) : ofPath p = .ok (some route) := by
  cases route with
  | housekeeping repository =>
    obtain rfl := List.mem_singleton.1 mem
    cases repository with
    | none => rfl
    | some n => exact ofPath_housekeeping
  | tags n =>
    obtain rfl := List.mem_singleton.1 mem
    exact ofPath_tags
  | uploads n => exact ofPath_uploads mem
  | upload n session =>
    obtain rfl := List.mem_singleton.1 mem
    obtain ⟨id, rfl⟩ := proper
    exact ofPath_upload id
  | blob n d =>
    obtain rfl := List.mem_singleton.1 mem
    exact ofPath_blob d
  | manifest n reference =>
    obtain rfl := List.mem_singleton.1 mem
    cases reference with
    | digest d =>
      exact ofPath_manifest d.isStep_text (Reference.read_digest d) (d.ne_text (by decide))
    | tag t =>
      refine ofPath_manifest (TagName.isStep_of_accepts proper) (Reference.read_tag proper) ?_
      rintro (rfl : "_housekeeping" = t)
      exact shown n rfl

lemma eq_or_shadows (proper : other.IsProper)
    (mem : (manifest n (.tag "_housekeeping")).path ∈ other.paths) :
    other = manifest n (.tag "_housekeeping") ∨
      Shadows other (manifest n (.tag "_housekeeping")) := by
  by_cases shown : ∀ m, other ≠ manifest m (.tag "_housekeeping")
  · right
    have read := ofPath_of_mem_paths proper mem shown
    rw [ofPath_shadowed, RepositoryName.read] at read
    split at read
    · next m found =>
      obtain rfl := Option.some.inj (Except.ok.inj read)
      exact ⟨n, m, (RepositoryName.ofText?_eq_some_iff.1 found).symm, rfl, rfl⟩
    · cases read
  · left
    obtain ⟨m, rfl⟩ := not_forall_not.1 shown
    have same := List.mem_singleton.1 mem
    rw [path_shadowed, path_shadowed, String.append_left_inj, String.append_left_inj] at same
    obtain rfl : n = m := by
      cases n
      cases m
      cases same
      rfl
    rfl

lemma path_mem_paths (route : Route) : route.path ∈ route.paths := by
  cases route <;> exact List.mem_cons_self

/-- The path of a route is read as that route, and no other route has it. This fails only of the tag
that is called like the maintenance, whose path is read as the maintenance of what stands before
it: that is the path of another route if it is the name of a repository. -/
theorem ofPath_inverts_paths (proper : route.IsProper) (mem : p ∈ route.paths) :
    (ofPath p = .ok (some route) ↔ ∀ n, route ≠ manifest n (.tag "_housekeeping")) ∧
    (∀ n, route = manifest n (.tag "_housekeeping") →
      ofPath p =
        (fun m => some (housekeeping (some m))) <$> RepositoryName.read (n.text ++ "/manifests")) ∧
    ∀ other : Route, other.IsProper →
      (p ∈ other.paths ↔ other = route ∨ Shadows other route ∨ Shadows route other) := by
  by_cases shown : ∀ n, route ≠ manifest n (.tag "_housekeeping")
  · have read := ofPath_of_mem_paths proper mem shown
    refine ⟨iff_of_true read shown, fun n hidden => absurd hidden (shown n),
      fun other proper' => ⟨fun also => ?_, ?_⟩⟩
    -- what a path is read as is one route, unless the other one is the tag in question
    · by_cases shown' : ∀ n, other ≠ manifest n (.tag "_housekeeping")
      · rw [ofPath_of_mem_paths proper' also shown'] at read
        exact .inl (Option.some.inj (Except.ok.inj read))
      · obtain ⟨n, rfl⟩ := not_forall_not.1 shown'
        obtain rfl := List.mem_singleton.1 also
        exact (eq_or_shadows proper mem).imp Eq.symm .inr
    · rintro (rfl | shadows | shadows)
      · exact mem
      · obtain ⟨m, _, _, _, same⟩ := shadows
        exact absurd same (shown m)
      · obtain ⟨_, m, _, rfl, _⟩ := id shadows
        obtain rfl := List.mem_singleton.1 mem
        exact shadows.path_eq ▸ path_mem_paths other
  · obtain ⟨n, rfl⟩ := not_forall_not.1 shown
    obtain rfl := List.mem_singleton.1 mem
    refine ⟨iff_of_false ?_ shown, ?_, fun other proper' => ⟨fun also => ?_, ?_⟩⟩
    · rw [ofPath_shadowed]
      cases RepositoryName.read (n.text ++ "/manifests") <;> nofun
    · rintro m same
      rw [same, ofPath_shadowed]
    · exact (eq_or_shadows proper' also).imp_right .inl
    · rintro (rfl | shadows | shadows)
      · exact mem
      · exact shadows.path_eq ▸ path_mem_paths other
      · obtain ⟨_, _, _, same, _⟩ := shadows
        cases same

/-- The words of the interface in a name and in a tag mislead nobody. -/
theorem nestedWords_inverted :
    let n : RepositoryName := ⟨"tags/list/blobs/uploads", by decide +kernel⟩
    let route := manifest n (.tag "list")
    route.IsProper ∧ "tags/list/blobs/uploads/manifests/list" ∈ route.paths ∧
      ofPath "tags/list/blobs/uploads/manifests/list" = .ok (some route) ∧
      ∀ other : Route, other.IsProper →
        ("tags/list/blobs/uploads/manifests/list" ∈ other.paths ↔ other = route) := by
  intro n route
  have proper : route.IsProper := show TagName.accepts "list" = true by decide +kernel
  have mem : "tags/list/blobs/uploads/manifests/list" ∈ route.paths := List.mem_singleton.2 rfl
  have shown (m : RepositoryName) : route ≠ manifest m (.tag "_housekeeping") := by
    simp [route]
  obtain ⟨read, -, only⟩ := ofPath_inverts_paths proper mem
  refine ⟨proper, mem, read.2 shown, fun other proper' => (only other proper').trans ?_⟩
  refine or_iff_left ?_
  rintro (⟨m, _, _, _, same⟩ | ⟨_, _, _, same, _⟩)
  · exact shown m same
  · exact absurd same nofun

/-- The tag that is called like the maintenance is a tag name, and a request for it is a request for
the garbage of another repository. -/
theorem maintenanceTag_misread :
    let n : RepositoryName := ⟨"library/app", by decide +kernel⟩
    let m : RepositoryName := ⟨"library/app/manifests", by decide +kernel⟩
    (manifest n (.tag "_housekeeping")).IsProper ∧
      (manifest n (.tag "_housekeeping")).path = "library/app/manifests/_housekeeping" ∧
      ofPath "library/app/manifests/_housekeeping" = .ok (some (housekeeping (some m))) ∧
      (housekeeping (some m)).path = "library/app/manifests/_housekeeping" := by
  intro n m
  have proper : TagName.accepts "_housekeeping" = true := by decide +kernel
  exact ⟨proper, rfl, by decide +kernel, rfl⟩

end Route
end ImageRegistry
