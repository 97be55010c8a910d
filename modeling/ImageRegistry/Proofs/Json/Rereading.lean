import ImageRegistry.Json.Record
import ImageRegistry.Proofs.Json.Fields
import ImageRegistry.Proofs.Json.Printing
import ImageRegistry.Proofs.Text.Octets
import Mathlib.Algebra.Group.Nat.Defs

/-! What a record is written as is read back, as the same record and as the same generic
document. -/

namespace ImageRegistry.Json

/-- Those fields of a record that have a value. -/
def given (fields : List (String × Option Json)) : List (String × Json) :=
  fields.filterMap fun field => field.2.map (field.1, ·)

def record (fields : List (String × Option Json)) : Json := ofMembers (given fields)

/-- A document of texts and of words, in which no object has two members of one name, and which
opens at most `depth` arrays and objects. -/
inductive IsTidy : Nat → Json → Prop
  | text {depth : Nat} (s : String) : IsTidy depth (text s)
  | natural {depth n : Nat} (fits : n < 2 ^ 64) : IsTidy depth (natural n)
  | array {depth : Nat} {items : List Json} (tidy : ∀ v ∈ items, IsTidy depth v) :
      IsTidy (depth + 1) (array items)
  | record {depth : Nat} {fields : List (String × Option Json)}
      (distinct : (fields.map Prod.fst).Nodup)
      (tidy : ∀ field ∈ fields, ∀ v ∈ field.2, IsTidy depth v) :
      IsTidy (depth + 1) (record fields)

namespace Number

lemma foldl_digits (n : Nat) : (digits n).foldl (fun value d => value * 10 + d) 0 = n := by
  have single (n : Nat) (small : n < 10) : n.digitChar.toNat - 48 = n := by
    revert n
    decide
  induction n using Nat.strongRecOn with
  | ind n ih =>
    by_cases small : n < 10
    · simp [digits, Nat.toDigits_of_lt_base small, single n small]
    · have before := ih (n / 10) (by omega)
      rw [digits] at before ⊢
      rw [Nat.toDigits_of_base_le (by decide) (by omega), List.map_append, List.foldl_append,
        before]
      simp only [List.map_cons, List.map_nil, List.foldl_cons, List.foldl_nil,
        single (n % 10) (by omega)]
      omega

lemma le_foldl (ds : List Nat) (value : Nat) :
    value ≤ ds.foldl (fun value d => value * 10 + d) value := by
  induction ds generalizing value with
  | nil => exact Nat.le_refl value
  | cons d ds ih =>
    have step : value ≤ value * 10 + d := by omega
    exact Nat.le_trans step (ih _)

lemma leading_eq {ds : List Nat} {value : Nat} (count : Nat)
    (fits : ds.foldl (fun value d => value * 10 + d) value ≤ maxWord) :
    leading ds value count =
      (ds.foldl (fun value d => value * 10 + d) value, count + ds.length) := by
  induction ds generalizing value count with
  | nil => rfl
  | cons d ds ih =>
    rw [List.foldl_cons] at fits ⊢
    rw [leading, if_pos (Nat.le_trans (le_foldl ds _) fits), ih (count + 1) fits, List.length_cons]
    congr 1
    omega

lemma roundToDouble_le (n : Nat) : roundToDouble n ≤ 2 * n := by
  unfold roundToDouble
  simp only [Nat.shiftLeft_eq, Nat.shiftRight_eq_div_pow]
  generalize hs : n.log2 + 1 - 53 = shift
  by_cases short : shift = 0
  · rw [if_pos short]
    omega
  · have positive : n ≠ 0 := by
      rintro rfl
      exact short (by rw [← hs]; decide)
    have below : 2 ^ shift ≤ n :=
      Nat.le_trans (Nat.pow_le_pow_right (by decide) (by omega)) (Nat.log2_self_le positive)
    have floor : n / 2 ^ shift * 2 ^ shift ≤ n := Nat.div_mul_le_self n _
    -- Rounding up adds one unit of the last place, which is at most the number itself.
    have up : (n / 2 ^ shift + 1) * 2 ^ shift = n / 2 ^ shift * 2 ^ shift + 2 ^ shift := by
      rw [Nat.add_mul, Nat.one_mul]
    rw [if_neg short]
    split_ifs <;> omega

lemma isFinite_natural {n : Nat} (fits : n ≤ maxWord) :
    isFinite ⟨false, n, none, none⟩ = true := by
  have taken := leading_eq 0 ((foldl_digits n).symm ▸ fits)
  rw [foldl_digits, Nat.zero_add] at taken
  have one : roundToDouble (Nat.pow 10 0) = 1 := by decide
  have round := roundToDouble_le n
  have bound : 2 * maxWord < 1 <<< 1024 - 1 <<< 970 := by decide +kernel
  simp only [isFinite, Option.getD_none, List.append_nil, taken, Int.zero_add, Int.sub_self,
    Int.toNat_zero, one, Nat.mul_one, Bool.or_eq_true, Bool.and_eq_true, decide_eq_true_eq]
  exact .inr ⟨by decide, by omega⟩

end Number

lemma genericItems?_of_forall {depth : Nat} {items : List Json}
    (each : ∀ v ∈ items, generic? depth v = some v) : genericItems? depth items = some items := by
  induction items with
  | nil => rfl
  | cons v rest ih =>
    rw [genericItems?, each v List.mem_cons_self]
    simp only [ih fun w mem => each w (List.mem_cons_of_mem v mem), Option.map_some]

lemma genericMembers?_of_forall {depth : Nat} {members : List (String × Json)}
    (distinct : (members.map Prod.fst).Nodup)
    (each : ∀ m ∈ members, generic? depth m.2 = some m.2) :
    genericMembers? depth (members.map fun (k, v) => (Octets.ofText k, v)) =
      some (members.map fun (k, v) => (Octets.ofText k, v)) := by
  induction members with
  | nil => rfl
  | cons m rest ih =>
    obtain ⟨k, v⟩ := m
    obtain ⟨fresh, distinct⟩ := List.nodup_cons.1 distinct
    have read := each (k, v) List.mem_cons_self
    have later := ih distinct fun w mem => each w (List.mem_cons_of_mem _ mem)
    have alone : ((rest.map fun (k, v) => (Octets.ofText k, v)).any
        fun m => m.1 == Octets.ofText k) = false := by
      rw [List.any_eq_false]
      rintro _ mem same
      obtain ⟨other, isRest, rfl⟩ := List.mem_map.1 mem
      have : other.1 = k := Octets.ofText_injective (beq_iff_eq.1 same)
      exact fresh (List.mem_map.2 ⟨other, isRest, this⟩)
    simp only [List.map_cons, genericMembers?, Octets.toText?_ofText, read, later, Option.map_some,
      alone, Bool.false_eq_true, if_false]

lemma nullable?_eq {α : Type} {read : Json → Option α} {v : Json} {a : α}
    (h : read v = some a) (value : v ≠ null) : nullable? read v = some (some a) := by
  rw [nullable?_of_ne value, h, Option.map_some]

section Record

variable {fields : List (String × Option Json)}

lemma given_cons_some (name : String) (v : Json) :
    given ((name, some v) :: fields) = (name, v) :: given fields := rfl

lemma given_cons_none (name : String) : given ((name, none) :: fields) = given fields := rfl

lemma mem_given {m : String × Json} :
    m ∈ given fields ↔ (m.1, some m.2) ∈ fields := by
  rw [given, List.mem_filterMap]
  constructor
  · rintro ⟨⟨name, value⟩, mem, present⟩
    obtain ⟨v, rfl, rfl⟩ := Option.map_eq_some_iff.1 present
    exact mem
  · exact fun mem => ⟨_, mem, rfl⟩

lemma names_given : ((given fields).map Prod.fst).Sublist (fields.map Prod.fst) := by
  induction fields with
  | nil => exact .slnil
  | cons field rest ih =>
    obtain ⟨name, value⟩ := field
    cases value with
    | none => exact ih.cons name
    | some v => exact ih.cons_cons name

lemma lookup_given (distinct : (fields.map Prod.fst).Nodup) (name : String) :
    (given fields).lookup name = (fields.lookup name).join := by
  induction fields with
  | nil => rfl
  | cons field rest ih =>
    obtain ⟨key, value⟩ := field
    obtain ⟨fresh, others⟩ := List.nodup_cons.1 distinct
    have later := ih others
    cases value with
    | some v =>
      rw [given_cons_some, List.lookup_cons, List.lookup_cons]
      cases name == key with
      | true => rfl
      | false => exact later
    | none =>
      rw [given_cons_none, List.lookup_cons]
      by_cases same : name = key
      · subst same
        have absent : (given rest).lookup name = none := List.lookup_eq_none_iff.2 fun m mem => by
          rw [bne_iff_ne]
          rintro rfl
          exact fresh (List.mem_map.2 ⟨_, mem_given.1 mem, rfl⟩)
        rw [beq_self_eq_true]
        exact absent
      · rw [beq_eq_false_iff_ne.2 same]
        exact later

namespace IsTidy

variable {depth : Nat} {v : Json}

lemma ne_null (h : IsTidy depth v) : v ≠ null := by
  cases h with
  | text _ | natural _ | array _ => exact nofun
  | record _ _ =>
    rw [Json.record, ofMembers]
    exact nofun

lemma isPlain (h : IsTidy depth v) : v.IsPlain := by
  induction h with
  | text s => exact .string _
  | natural _ => exact .natural _
  | array _ ih => exact .array ih
  | record _ _ ih => exact isPlain_ofMembers fun m mem => ih _ (mem_given.1 mem) _ rfl

theorem generic? (h : IsTidy depth v) : generic? depth v = some v := by
  induction h with
  | text s => simp [Json.text, Json.generic?]
  | natural fits =>
    have finite := Number.isFinite_natural (Nat.le_pred_of_lt fits)
    simp [Json.natural, Json.generic?, finite]
  | array _ ih => rw [Json.generic?, genericItems?_of_forall ih, Option.map_some]
  | @record depth fields distinct _ ih =>
    rw [Json.record, ofMembers, Json.generic?,
      genericMembers?_of_forall (names_given.nodup distinct)
        fun m mem => ih _ (mem_given.1 mem) _ rfl, Option.map_some]

theorem parse?_pretty (h : IsTidy depth v) : parse? v.pretty = some v :=
  Json.parse?_pretty h.isPlain

end IsTidy

namespace Fields

lemma exists_collect? (names : List String) {members : List (String × Json)}
    (found : List (String × Json)) (distinct : (members.map Prod.fst).Nodup)
    (fresh : ∀ m ∈ members, found.lookup m.1 = none) :
    ∃ f, collect? names false (members.map fun (k, v) => (Octets.ofText k, v)) found = some f := by
  induction members generalizing found with
  | nil => exact ⟨_, rfl⟩
  | cons m rest ih =>
    obtain ⟨k, v⟩ := m
    obtain ⟨other, distinct⟩ := List.nodup_cons.1 distinct
    have new : found.lookup k = none := fresh (k, v) List.mem_cons_self
    simp only [List.map_cons, collect?, Octets.toText?_ofText, new, Option.isSome_none,
      Bool.false_eq_true, if_false]
    have later : ∀ m ∈ rest, found.lookup m.1 = none := fun m mem =>
      fresh m (List.mem_cons_of_mem _ mem)
    split_ifs
    · refine ih _ distinct fun m mem => ?_
      have differs : m.1 ≠ k := by
        rintro rfl
        exact other (List.mem_map.2 ⟨m, mem, rfl⟩)
      rw [List.lookup_cons, beq_eq_false_iff_ne.2 differs]
      exact later m mem
    · exact ih _ distinct later

lemma memberNamed?_eq_lookup (name : String) (members : List (String × Json)) :
    memberNamed? name (members.map fun (k, v) => (Octets.ofText k, v)) = members.lookup name := by
  induction members with
  | nil => rfl
  | cons m rest ih =>
    obtain ⟨k, v⟩ := m
    simp only [List.map_cons, memberNamed?, Octets.toText?_ofText, Option.some.injEq,
      List.lookup_cons, ih]
    by_cases same : k = name
    · simp [same]
    · simp [same, beq_eq_false_iff_ne.2 (Ne.symm same)]

theorem ofJson?_record (names : List String) (fields : List (String × Option Json))
    (distinct : (fields.map Prod.fst).Nodup) :
    ∃ f, ofJson? names false (record fields) = some f ∧
      ∀ name ∈ names, f.get? name = (fields.lookup name).join := by
  obtain ⟨f, collected⟩ := exists_collect? names [] (names_given.nodup distinct)
    fun _ _ => rfl
  refine ⟨f, collected, fun name mem => ?_⟩
  rw [get?_of_collect? mem collected, memberNamed?_eq_lookup, lookup_given distinct]
  rfl

variable {α : Type} {f : Fields} {name : String} {read : Json → Option α}

lemma required_eq {v : Json} {a : α} (given : f.get? name = some v) (h : read v = some a) :
    f.required name read = some a := by
  rw [required, given, Option.bind_some, h]

lemma defaulted_of_absent {default : α} (absent : f.get? name = none) :
    f.defaulted name default read = some default := by
  rw [defaulted, absent, Option.elim_none]

lemma defaulted_eq {v : Json} {a default : α} (given : f.get? name = some v)
    (h : read v = some a) : f.defaulted name default read = some a := by
  rw [defaulted, given, Option.elim_some, h]

lemma defaulted_of_ite {v : Json} {a default : α} {isDefault : Bool}
    (given : f.get? name = if isDefault then none else some v)
    (absent : isDefault = true → a = default) (h : read v = some a) :
    f.defaulted name default read = some a := by
  cases isDefault with
  | true =>
    rw [defaulted, given, absent rfl]
    rfl
  | false => exact defaulted_eq given h

lemma optional_eq {write : α → Json} {o : Option α} (given : f.get? name = o.map write)
    (h : ∀ a ∈ o, nullable? read (write a) = some (some a)) : f.optional name read = some o := by
  rw [optional, defaulted, given]
  cases o with
  | none => rfl
  | some a => exact h a rfl

lemma optional_generic? {depth : Nat} {o : Option Json} (given : f.get? name = o)
    (tidy : ∀ v ∈ o, v.IsTidy depth) : f.optional name (generic? depth) = some o := by
  rw [optional, defaulted, given]
  cases o with
  | none => rfl
  | some v =>
    have h := tidy v rfl
    exact nullable?_eq h.generic? h.ne_null

end Fields

end Record

@[simp] lemma text?_text (s : String) : text? (text s) = some s := Octets.toText?_ofText s

lemma Fields.required_text {f : Fields} {name s : String} (given : f.get? name = some (text s)) :
    f.required name text? = some s := required_eq given (text?_text s)

lemma Fields.optional_text {f : Fields} {name : String} {o : Option String}
    (given : f.get? name = o.map text) : f.optional name text? = some o :=
  optional_eq given fun s _ => nullable?_eq (text?_text s) nofun

lemma natural?_natural {limit n : Nat} (small : n < limit) :
    natural? limit (natural n) = some n := by
  simp [natural, natural?, Number.natural?, small]

lemma list?_map {α : Type} {read : Json → Option α} {write : α → Json} {l : List α}
    (h : ∀ a ∈ l, read (write a) = some a) : list? read (.array (l.map write)) = some l := by
  rw [list?]
  induction l with
  | nil => rfl
  | cons a l ih =>
    rw [List.map_cons, List.mapM_cons, h a List.mem_cons_self,
      ih fun b mem => h b (List.mem_cons_of_mem a mem)]
    rfl

lemma ofTextMap_eq (m : TextMap) :
    ofTextMap m = record (m.toList.map fun (k, v) => (k, some (text v))) := by
  rw [ofTextMap, record, given, List.filterMap_map, ← List.filterMap_eq_map]
  rfl

lemma names_textMap (m : TextMap) :
    ((m.toList.map fun (k, v) => (k, some (text v))).map Prod.fst).Nodup := by
  rw [List.map_map]
  exact (Std.ExtTreeMap.map_fst_toList_eq_keys (t := m)).symm ▸ Std.ExtTreeMap.nodup_keys

lemma ofList_toList (m : TextMap) : Std.ExtTreeMap.ofList m.toList = m := by
  refine Std.ExtTreeMap.ext_getElem? fun k => ?_
  cases h : m[k]? with
  | some v =>
    exact Std.ExtTreeMap.getElem?_ofList_of_mem Std.ReflCmp.compare_self
      Std.ExtTreeMap.distinct_keys_toList (Std.ExtTreeMap.mem_toList_iff_getElem?_eq_some.2 h)
  | none =>
    refine Std.ExtTreeMap.getElem?_ofList_of_contains_eq_false ?_
    rw [Std.ExtTreeMap.map_fst_toList_eq_keys, ← Bool.not_eq_true, List.contains_iff_mem,
      Std.ExtTreeMap.mem_keys, ← Std.ExtTreeMap.isSome_getElem?_iff_mem, h]
    exact Bool.false_ne_true

theorem textMap?_ofTextMap (m : TextMap) : textMap? (ofTextMap m) = some m := by
  have entries (l : List (String × String)) :
      ((l.map fun (k, v) => (k, text v)).map fun (k, v) => (Octets.ofText k, v)).mapM textEntry? =
        some l := by
    induction l with
    | nil => rfl
    | cons e l ih =>
      rw [List.map_cons, List.map_cons, List.mapM_cons, ih]
      simp [ textEntry?]
  rw [ofTextMap, ofMembers, textMap?, entries, Option.map_some, ofList_toList]

lemma isTidy_ofTextMap (depth : Nat) (m : TextMap) : (ofTextMap m).IsTidy (depth + 1) := by
  rw [ofTextMap_eq]
  refine .record (names_textMap m) fun field mem v given => ?_
  obtain ⟨⟨_, s⟩, -, rfl⟩ := List.mem_map.1 mem
  obtain rfl := Option.some.inj given
  exact .text s

end ImageRegistry.Json
