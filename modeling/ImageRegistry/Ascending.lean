import Std.Data.TreeSet

/-! Ascending lists: the members of a list in order, each once. -/

namespace ImageRegistry

/-- The members of a list in ascending order, without repetition. -/
def ascending {α : Type} [Ord α] (xs : List α) : List α := (Std.TreeSet.ofList xs).toList

/-- Sorting keeps the members. -/
@[simp] theorem mem_ascending
    {α : Type} [DecidableEq α] [Ord α] [Std.TransOrd α] [Std.LawfulEqOrd α]
    {xs : List α} {x : α} : x ∈ ascending xs ↔ x ∈ xs := by
  rw [ascending, Std.TreeSet.mem_toList, ← Std.TreeSet.contains_iff_mem,
    Std.TreeSet.contains_ofList, List.contains_iff_mem]

/-- Every member is less than those after it. -/
theorem pairwise_ascending {α : Type} [Ord α] [Std.TransOrd α] (xs : List α) :
    (ascending xs).Pairwise fun x y => compare x y = .lt :=
  Std.TreeSet.ordered_toList

/-- No member of a list in ascending order comes twice. -/
theorem nodup_of_ascending {α : Type} [Ord α] [Std.TransOrd α] {xs : List α}
    (h : xs.Pairwise fun x y => compare x y = .lt) : xs.Nodup := by
  refine h.imp fun less same => ?_
  rw [same, Std.compare_self] at less
  cases less

/-- Lists in ascending order that have the same members are the same. -/
theorem eq_of_ascending {α : Type} [Ord α] [Std.TransOrd α] {xs ys : List α}
    (hx : xs.Pairwise fun x y => compare x y = .lt) (hy : ys.Pairwise fun x y => compare x y = .lt)
    (same : ∀ x, x ∈ xs ↔ x ∈ ys) : xs = ys := by
  have perm : xs.Perm ys :=
    (List.perm_ext_iff_of_nodup (nodup_of_ascending hx) (nodup_of_ascending hy)).2 same
  refine perm.eq_of_pairwise (fun x y _ _ less greater => ?_) hx hy
  rw [Std.OrientedOrd.eq_swap, less] at greater
  cases greater

end ImageRegistry
