import ImageRegistry.Proofs.Registry.Tagging
import ImageRegistry.Proofs.Registry.Upkeep

/-! Tags removed by any text. What is removed is all that the text leads to from the tags of a
repository, which need not be one tag: unlike a tag that is assigned, the text is not checked. -/

namespace ImageRegistry.Tags

open World Collector

/-- What a text leads to from the tags of a repository. -/
def LeadsTo (n : RepositoryName) (t : String) (r : Record) : Prop :=
  t.toList.head? ≠ some '/' ∧
    ∃ steps, r.tagSteps? n = some steps ∧ Path.onward t <+: steps.map Component.name

/-- Nothing is removed with a failure, and otherwise all of one tag and nothing else. -/
def RemovesOne (b b' : Bucket) (n : RepositoryName) (t : String) :
    Except RegistryError Unit → Prop
  | .error _ => b' = b
  | .ok () => TagName.accepts t = true ∧ b.Has (.tagTarget n t) ∧
      b.Drops b' fun r => r = .tagTarget n t ∨ ∃ d, r = .tagEntry n t d

variable {b b' : Bucket} {n : RepositoryName} {t : String} {r : Record}

lemma leadsTo_iff (lawful : r.IsLawful) :
    r.key.startsWith (Layout.tag n t) = true ↔ LeadsTo n t r :=
  Layout.startsWith_tagText_iff lawful n t

lemma leadsTo_iff_of_accepts (accepted : TagName.accepts t = true) (lawful : r.IsLawful) :
    LeadsTo n t r ↔ r = .tagTarget n t ∨ ∃ d, r = .tagEntry n t d :=
  (leadsTo_iff lawful).symm.trans (Layout.startsWith_tag_iff lawful n accepted)

lemma keys_ne_nil_iff (ledger : b.IsLedger) :
    b.keys (some (Layout.tag n t)) ≠ [] ↔ ∃ r, r.IsLawful ∧ b.Has r ∧ LeadsTo n t r := by
  rw [ledger.keys_ne_nil_iff]
  exact exists_congr fun r => and_congr_right fun lawful => and_congr_right fun _ =>
    leadsTo_iff lawful

lemma has_tagTarget_of_leadsTo (stand : b.TagsStand) (accepted : TagName.accepts t = true)
    (lawful : r.IsLawful) (has : b.Has r) (leads : LeadsTo n t r) : b.Has (.tagTarget n t) := by
  rcases (leadsTo_iff_of_accepts accepted lawful).1 leads with rfl | ⟨d, rfl⟩
  · exact has
  · exact stand n t d accepted has

/-- Whatever text a tag is removed by, all records go to which it leads from the tags of the
repository, and no others; without such a record the tag is unknown. Where tags stand, one tag goes
or nothing exactly if the text is the name of a tag or leads to nothing. -/
theorem removesOne_iff (s : Site) (ledger : b.IsLedger) (stand : b.TagsStand)
    (cache : DescriptorCache) (n : RepositoryName) (t : String) :
    ∃ x b', (s.world b cache).run (remove n t) = (x, s.world b' cache) ∧
      b.Drops b' (fun r => r.IsLawful ∧ LeadsTo n t r) ∧
      ((∃ r, r.IsLawful ∧ b.Has r ∧ LeadsTo n t r) → x = .ok ()) ∧
      ((∀ r, r.IsLawful → b.Has r → ¬LeadsTo n t r) → x = .error (.tagUnknown t)) ∧
      (RemovesOne b b' n t x ↔
        TagName.accepts t = true ∨ ∀ r, r.IsLawful → b.Has r → ¬LeadsTo n t r) := by
  have drops : b.Drops _ fun r => r.IsLawful ∧ LeadsTo n t r :=
    (Bucket.Drops.removeBelow ledger (Layout.tag n t)).congr fun r _ _ =>
      and_congr_right fun lawful => leadsTo_iff lawful
  have clear (nothing : ∀ r, r.IsLawful → b.Has r → ¬LeadsTo n t r) :
      b.keys (some (Layout.tag n t)) = [] := by
    by_contra led
    obtain ⟨r, lawful, has, leads⟩ := (keys_ne_nil_iff ledger).1 led
    exact nothing r lawful has leads
  refine ⟨_, _, run_remove s b cache n t, drops, fun led => if_neg ((keys_ne_nil_iff ledger).2 led),
    fun nothing => if_pos (clear nothing), ?_⟩
  by_cases nothing : ∀ r, r.IsLawful → b.Has r → ¬LeadsTo n t r
  · rw [clear nothing]
    exact iff_of_true rfl (.inr nothing)
  · push Not at nothing
    rw [if_neg ((keys_ne_nil_iff ledger).2 nothing)]
    obtain ⟨r, lawful, has, leads⟩ := nothing
    refine ⟨fun removed => .inl removed.1, fun known => ?_⟩
    have accepted := known.resolve_right fun nothing => nothing r lawful has leads
    refine ⟨accepted, has_tagTarget_of_leadsTo stand accepted lawful has leads, ?_⟩
    refine drops.congr fun r lawful _ => ?_
    exact (and_iff_right lawful).trans (leadsTo_iff_of_accepts accepted lawful)

/-- The bucket of a repository with two tags. -/
def twoTags : Bucket :=
  ((∅ : Bucket).assigned exampleRepository.name "latest" (.ofContent [])).assigned
    exampleRepository.name "v1" (.ofContent emptyIndex)

lemma accepts_v1 : TagName.accepts "v1" = true := by decide +kernel

lemma isOrderly_twoTags : Holdings.IsOrderly exampleRepository.settings ⟨twoTags, .empty⟩ := by
  have changes : Changes exampleRepository.settings (fun _ => True) ⟨∅, .empty⟩
      ⟨twoTags, .empty⟩ :=
    (changes_assign accepts_latest _ _ _ trivial).trans (changes_assign accepts_v1 _ _ _ trivial)
  exact changes.isOrderly ⟨Holdings.isSound_empty, .empty, Bucket.tagsStand_empty⟩

lemma has_twoTags (t : String) (accepted : TagName.accepts t = true) :
    twoTags.Has (.tagTarget exampleRepository.name t) ↔ t = "v1" ∨ t = "latest" := by
  rw [twoTags, Bucket.Has, Bucket.at?_assigned (r := .tagTarget _ _) accepts_v1 accepted,
    Bucket.at?_assigned (r := .tagTarget _ _) accepts_latest accepted]
  by_cases first : t = "v1" <;> by_cases second : t = "latest" <;> simp [first, second]

/-- The empty text is no name of a tag, and it leads to every tag. Both tags are removed by it. -/
theorem twoTags_lost : ∃ b',
    ((⟨"registry", ∅, none⟩ : Site).world twoTags .empty).run (remove exampleRepository.name "") =
      (.ok (), (⟨"registry", ∅, none⟩ : Site).world b' .empty) ∧
    TagName.accepts "" = false ∧ ¬RemovesOne twoTags b' exampleRepository.name "" (.ok ()) ∧
    ∀ t ∈ ["latest", "v1"], twoTags.Has (.tagTarget exampleRepository.name t) ∧
      ¬b'.Has (.tagTarget exampleRepository.name t) := by
  obtain ⟨sound, -, stand⟩ := isOrderly_twoTags
  obtain ⟨x, b', ran, drops, found, -, one⟩ :=
    removesOne_iff (b := twoTags) ⟨"registry", ∅, none⟩ sound.isLedger stand .empty
      exampleRepository.name ""
  have leads (t : String) :
      LeadsTo exampleRepository.name "" (.tagTarget exampleRepository.name t) :=
    ⟨by decide, [t, "current", "link"], by simp [Record.tagSteps?], List.nil_prefix⟩
  have held := (has_twoTags "latest" accepts_latest).2 (.inr rfl)
  obtain rfl := found ⟨.tagTarget _ _, accepts_latest, held, leads "latest"⟩
  refine ⟨b', ran, by decide, ?_, ?_⟩
  · rw [one]
    rintro (accepted | nothing)
    · exact absurd accepted (by decide)
    · exact nothing (.tagTarget _ _) accepts_latest held (leads "latest")
  · intro t mem
    have accepted : TagName.accepts t = true := by
      rcases List.mem_pair.1 mem with rfl | rfl
      · exact accepts_latest
      · exact accepts_v1
    refine ⟨(has_twoTags t accepted).2 (List.mem_pair.1 mem).symm, fun still => ?_⟩
    exact ((drops.has (r := .tagTarget _ _) accepted).1 still).2 ⟨accepted, leads t⟩

end ImageRegistry.Tags
