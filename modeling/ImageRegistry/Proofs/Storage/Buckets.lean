import Mathlib.Tactic.Common
import ImageRegistry.Storage.Memory

/-! What a bucket holds after content was put in or a key was removed. -/

namespace ImageRegistry.Bucket

lemma content?_put (b : Bucket) (key other : Path) (content : Octets) :
    (b.put key content).content? other =
      if key.components = other.components then some content else b.content? other := by
  rw [content?, put, Std.ExtTreeMap.getElem?_insert]
  by_cases same : key.components = other.components
  · simp [same]
  · simp [same, content?]

lemma content?_remove (b : Bucket) (key other : Path) :
    (b.remove key).content? other =
      if key.components = other.components then none else b.content? other := by
  rw [content?, remove, Std.ExtTreeMap.getElem?_erase]
  by_cases same : key.components = other.components
  · simp [same]
  · simp [same, content?]

lemma remove_of_content?_eq_none {b : Bucket} {key : Path} (h : b.content? key = none) :
    b.remove key = b := by
  refine Std.ExtTreeMap.ext_getElem? fun cs => ?_
  rw [remove, Std.ExtTreeMap.getElem?_erase]
  split_ifs with same
  · rw [Std.compare_eq_iff_eq] at same
    rw [← same]
    exact (Option.map_eq_none_iff.1 h).symm
  · rfl

lemma mem_keys {b : Bucket} {base p : Path} :
    p ∈ b.keys (some base) ↔ ∃ cs stored, b[cs]? = some stored ∧
      base.components.isPrefixOf cs = true ∧ stored.spelling = p := by
  simp only [keys, List.mem_map, List.mem_filter, Option.all_some, Prod.exists,
    Std.ExtTreeMap.mem_toList_iff_getElem?_eq_some, and_assoc]

end ImageRegistry.Bucket
