import ImageRegistry.Proofs.Registry.Names

/-! The forms of the identifier of an upload session. It is read in each of them, and from no other
text. -/

namespace ImageRegistry.UploadId

/-- What digits of either case are written as: in one piece, in groups, in braces, or as a URN. -/
inductive Form (ds : List Char) : List Char → Prop
  | plain : Form ds ds
  | groups : Form ds (grouped ds)
  | braced : Form ds ('\x7b' :: (grouped ds ++ ['\x7d']))
  | urn {start : List Char} (begins : start.map Char.toLower = urnStart) :
      Form ds (start ++ grouped ds)

/-- The text is a form of the identifier. -/
def Spells (s : String) (id : UploadId) : Prop :=
  ∃ ds : List Char, ds.map Char.toLower = id.digits ∧ Form ds s.toList

variable {ds cs : List Char}

lemma grouped_append {a b c d e : List Char} (ha : a.length = 8) (hb : b.length = 4)
    (hc : c.length = 4) (hd : d.length = 4) :
    grouped (a ++ (b ++ (c ++ (d ++ e)))) =
      a ++ '-' :: (b ++ '-' :: (c ++ '-' :: (d ++ '-' :: e))) := by
  have eight : (a ++ (b ++ (c ++ (d ++ e)))).drop 8 = b ++ (c ++ (d ++ e)) := List.drop_left' ha
  have twelve : (a ++ (b ++ (c ++ (d ++ e)))).drop 12 = c ++ (d ++ e) := by
    rw [← List.drop_drop (i := 4) (j := 8), eight, List.drop_left' hb]
  have sixteen : (a ++ (b ++ (c ++ (d ++ e)))).drop 16 = d ++ e := by
    rw [← List.drop_drop (i := 4) (j := 12), twelve, List.drop_left' hc]
  have twenty : (a ++ (b ++ (c ++ (d ++ e)))).drop 20 = e := by
    rw [← List.drop_drop (i := 4) (j := 16), sixteen, List.drop_left' hd]
  rw [grouped, List.take_left' ha, eight, List.take_left' hb, twelve, List.take_left' hc, sixteen,
    List.take_left' hd, twenty]

lemma exists_groups (h : ds.length = 32) : ∃ a b c d e : List Char, a.length = 8 ∧ b.length = 4 ∧
    c.length = 4 ∧ d.length = 4 ∧ e.length = 12 ∧ ds = a ++ (b ++ (c ++ (d ++ e))) := by
  refine ⟨ds.take 8, (ds.drop 8).take 4, (ds.drop 12).take 4, (ds.drop 16).take 4, ds.drop 20,
    by simp [h], by simp [h], by simp [h], by simp [h], by simp [h], ?_⟩
  have next (m n : Nat) : (ds.drop m).take n ++ ds.drop (m + n) = ds.drop m := by
    rw [← List.drop_drop, List.take_append_drop]
  rw [next 16 4, next 12 4, next 8 4, List.take_append_drop]

lemma ungrouped?_eq_some_iff :
    ungrouped? cs = some ds ↔ ds.length = 32 ∧ '-' ∉ ds ∧ cs = grouped ds := by
  constructor
  · intro h
    unfold ungrouped? at h
    dsimp only at h
    split_ifs at h with lengths
    obtain rfl := Option.some.inj h
    have apart : ∀ group ∈ pieces '-' cs, '-' ∉ group := fun group => not_mem_of_mem_pieces
    have whole : List.intercalate ['-'] (pieces '-' cs) = cs := by
      rw [pieces_eq_splitOn]
      exact List.intercalate_splitOn '-'
    revert lengths apart whole
    generalize pieces '-' cs = groups
    intro lengths apart whole
    obtain ⟨a, _, rfl, ha, lengths⟩ := List.map_eq_cons_iff.1 lengths
    obtain ⟨b, _, rfl, hb, lengths⟩ := List.map_eq_cons_iff.1 lengths
    obtain ⟨c, _, rfl, hc, lengths⟩ := List.map_eq_cons_iff.1 lengths
    obtain ⟨d, _, rfl, hd, lengths⟩ := List.map_eq_cons_iff.1 lengths
    obtain ⟨e, _, rfl, he, lengths⟩ := List.map_eq_cons_iff.1 lengths
    obtain rfl := List.map_eq_nil_iff.1 lengths
    simp only [List.flatten_cons, List.flatten_nil, List.append_nil]
    refine ⟨by simp [ha, hb, hc, hd, he], by simpa using apart, ?_⟩
    rw [grouped_append ha hb hc hd, ← whole]
    simp [List.intercalate]
  · rintro ⟨length, apart, rfl⟩
    obtain ⟨a, b, c, d, e, ha, hb, hc, hd, he, rfl⟩ := exists_groups length
    simp only [List.mem_append, not_or] at apart
    obtain ⟨na, nb, nc, nd, ne⟩ := apart
    unfold ungrouped?
    rw [grouped_append ha hb hc hd]
    simp [pieces_append_separator, pieces_of_not_mem, na, nb, nc, nd, ne, ha, hb, hc, hd, he]

lemma ofDigits?_eq_some_iff {id : UploadId} : ofDigits? ds = some id ↔ ds = id.digits := by
  obtain ⟨digits, length, isLower⟩ := id
  unfold ofDigits?
  constructor
  · intro h
    split_ifs at h
    exact congrArg UploadId.digits (Option.some.inj h)
  · rintro rfl
    rw [dif_pos ⟨length, isLower⟩]

lemma betweenBraces?_eq_some {inner : List Char} (h : betweenBraces? cs = some inner) :
    cs = '\x7b' :: (inner ++ ['\x7d']) := by
  unfold betweenBraces? at h
  split at h
  · split_ifs at h with last
    obtain ⟨before, rfl⟩ := List.getLast?_eq_some_iff.1 last
    rw [← Option.some.inj h, List.dropLast_concat]
  · cases h

lemma form_of_anyDigits? (h : anyDigits? cs = some ds) : Form ds cs := by
  unfold anyDigits? at h
  split_ifs at h with plain begins
  · obtain rfl := Option.some.inj h
    exact .plain
  · obtain ⟨-, -, rest⟩ := ungrouped?_eq_some_iff.1 h
    rw [← List.take_append_drop urnStart.length cs, rest]
    exact .urn begins
  · cases inner : betweenBraces? cs with
    | some inner' =>
      rw [inner] at h
      obtain ⟨-, -, rfl⟩ := ungrouped?_eq_some_iff.1 h
      rw [betweenBraces?_eq_some inner]
      exact .braced
    | none =>
      rw [inner] at h
      obtain ⟨-, -, rfl⟩ := ungrouped?_eq_some_iff.1 h
      exact .groups

lemma anyDigits?_of_form (length : ds.length = 32)
    (hex : ∀ c ∈ ds, Hex.isLowerDigit c.toLower = true) (form : Form ds cs) :
    anyDigits? cs = some ds := by
  have apart : '-' ∉ ds := fun mem => absurd (hex _ mem) (by decide)
  have ungroups : ungrouped? (grouped ds) = some ds :=
    ungrouped?_eq_some_iff.2 ⟨length, apart, rfl⟩
  obtain ⟨a, b, c, d, e, ha, hb, hc, hd, he, parts⟩ := exists_groups length
  have long : (grouped ds).length = 36 := by
    rw [parts, grouped_append ha hb hc hd]
    simp [ha, hb, hc, hd, he]
  obtain ⟨first, rest, starts, isDigit⟩ : ∃ first rest, grouped ds = first :: rest ∧
      Hex.isLowerDigit first.toLower = true := by
    obtain ⟨first, a, rfl⟩ := List.exists_cons_of_length_eq_add_one ha
    exact ⟨first, _, by rw [parts, grouped_append ha hb hc hd]; rfl,
      hex first (parts ▸ List.mem_cons_self)⟩
  have noUrn : ((grouped ds).take urnStart.length).map Char.toLower ≠ urnStart := fun same => by
    have u : first.toLower = 'u' := by
      rw [starts] at same
      exact (List.cons.inj same).1
    rw [u] at isDigit
    exact absurd isDigit (by decide)
  have noBrace : betweenBraces? (grouped ds) = none := by
    rw [starts]
    unfold betweenBraces?
    split
    · next same =>
      rw [(List.cons.inj same).1] at isDigit
      exact absurd isDigit (by decide)
    · rfl
  unfold anyDigits?
  cases form with
  | plain => rw [if_pos length]
  | groups =>
    rw [if_neg (by simp [long]), if_neg noUrn, noBrace]
    exact ungroups
  | braced =>
    have inner : betweenBraces? ('\x7b' :: (grouped ds ++ ['\x7d'])) = some (grouped ds) := by
      simp [betweenBraces?]
    rw [if_neg (by simp [long]), if_neg, inner]
    · exact ungroups
    · intro same
      exact absurd (List.cons.inj same).1 (by decide)
  | @urn start begins =>
    have nine : start.length = urnStart.length := by rw [← begins, List.length_map]
    rw [if_neg, List.take_left' nine, if_pos begins, List.drop_left' nine, ungroups]
    rw [List.length_append, long, nine]
    decide

theorem ofText?_eq_some_iff {s : String} {id : UploadId} : ofText? s = some id ↔ Spells s id := by
  constructor
  · intro h
    obtain ⟨ds, read, digits⟩ := Option.bind_eq_some_iff.1 h
    exact ⟨ds, ofDigits?_eq_some_iff.1 digits, form_of_anyDigits? read⟩
  · rintro ⟨ds, digits, form⟩
    have length : ds.length = 32 := by
      rw [← List.length_map Char.toLower, digits, id.length_digits]
    have lower : ∀ c ∈ ds, Hex.isLowerDigit c.toLower = true := fun c mem =>
      List.all_eq_true.1 id.isLower _ (digits ▸ List.mem_map_of_mem mem)
    rw [ofText?, anyDigits?_of_form length lower form, Option.bind_some, ofDigits?_eq_some_iff,
      digits]

end ImageRegistry.UploadId
