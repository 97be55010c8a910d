import Mathlib.Data.List.Basic
import Mathlib.Tactic.Common
import ImageRegistry.Json.Token

/-! Scanning a text in pieces. What a word is does not depend on the text behind it, as long as a
number that ends there is not continued. -/

namespace ImageRegistry.Json.Token

/-- The words of a text, read one after the other. -/
inductive Scans : Octets → List Token → Prop
  | nil : Scans [] []
  | space {b : UInt8} {rest : Octets} {ts : List Token} (blank : isSpace b = true)
      (scans : Scans rest ts) : Scans (b :: rest) ts
  | word {b : UInt8} {rest tail : Octets} {t : Token} {ts : List Token} (solid : ¬isSpace b = true)
      (found : scanOne? b rest = some (t, tail)) (scans : Scans tail ts) :
      Scans (b :: rest) (t :: ts)

lemma scanFrom_eq_some_iff {o : Octets} {read ts : List Token} :
    scanFrom o read = some ts ↔ ∃ us, Scans o us ∧ ts = read.reverse ++ us := by
  fun_induction scanFrom o read with
  | case1 read =>
    constructor
    · intro same
      exact ⟨[], .nil, by simpa using (Option.some.inj same).symm⟩
    · rintro ⟨us, scans, rfl⟩
      cases scans
      simp
  | case2 read b rest blank ih =>
    rw [ih]
    refine exists_congr fun us => and_congr_left fun _ => ⟨.space blank, fun scans => ?_⟩
    cases scans with
    | space _ scans => exact scans
    | word solid _ _ => exact absurd blank solid
  | case3 read b rest solid none =>
    constructor
    · intro same
      cases same
    · rintro ⟨us, scans, -⟩
      cases scans with
      | space blank _ => exact absurd blank solid
      | word _ found _ => rw [none] at found; cases found
  | case4 read b rest solid t tail found _ ih =>
    rw [ih]
    constructor
    · rintro ⟨us, scans, rfl⟩
      exact ⟨t :: us, .word solid found scans, by simp⟩
    · rintro ⟨us, scans, rfl⟩
      cases scans with
      | space blank _ => exact absurd blank solid
      | @word _ _ _ _ us _ found' scans =>
        rw [found] at found'
        cases found'
        exact ⟨us, scans, by simp⟩

theorem scan_eq_some_iff {o : Octets} {ts : List Token} : scan o = some ts ↔ Scans o ts := by
  rw [scan, scanFrom_eq_some_iff]
  simp

/-- The text does not continue a number. -/
def Breaks (o : Octets) : Prop :=
  ∀ b ∈ o.head?, isDigit b = false ∧ b ≠ 46 ∧ b ≠ 101 ∧ b ≠ 69

/-- Behind a word the first text may be replaced by the second one. -/
def Yields (tail tail' : Octets) : Prop := tail'.head? = tail.head? ∨ Breaks tail'

lemma breaks_nil : Breaks [] := by simp [Breaks]

lemma Yields.append {tail tail' : Octets} (h : Yields tail tail') (p : Octets) :
    Yields (p ++ tail) (p ++ tail') := by
  cases p with
  | nil => exact h
  | cons b p => exact .inl rfl

/-- What holds of how the first text begins holds of how the second one does, if it holds of all
texts that do not continue a number. -/
lemma Yields.head {tail tail' : Octets} (h : Yields tail tail') {p : UInt8 → Prop}
    (first : ∀ b ∈ tail.head?, p b)
    (breaks : ∀ b, isDigit b = false ∧ b ≠ 46 ∧ b ≠ 101 ∧ b ≠ 69 → p b) :
    ∀ b ∈ tail'.head?, p b := by
  rcases h with same | ends
  · rwa [same]
  · exact fun b mem => breaks b (ends b mem)

/-- The last octet, if there is one, is neither a blank nor a control character. -/
def EndsSolid (o : Octets) : Prop := ∀ b ∈ o.getLast?, 32 < b

instance (o : Octets) : Decidable (EndsSolid o) :=
  decidable_of_iff (o.getLast?.all (32 < ·) = true) (by simp [EndsSolid, Option.all_eq_true])

lemma EndsSolid.append {p q : Octets} (hp : EndsSolid p) (hq : EndsSolid q) :
    EndsSolid (p ++ q) := by
  intro b mem
  rw [List.getLast?_append, Option.mem_def, Option.or_eq_some_iff] at mem
  rcases mem with mem | ⟨-, mem⟩
  · exact hq b mem
  · exact hp b mem

lemma lt_of_isDigit {b : UInt8} (h : isDigit b = true) : 32 < b := by
  simp only [isDigit, Bool.and_eq_true, decide_eq_true_eq] at h
  exact UInt8.lt_of_lt_of_le (by decide) h.1

lemma endsSolid_of_isDigit {ds : Octets} (h : ∀ b ∈ ds, isDigit b = true) : EndsSolid ds :=
  fun b mem => lt_of_isDigit (h b (List.mem_of_getLast? mem))

lemma takeWhile_digits {ds : Octets} (tail : Octets) (h : ∀ b ∈ ds, isDigit b = true)
    (stop : ∀ b ∈ tail.head?, isDigit b = false) :
    (ds ++ tail).takeWhile isDigit = ds ∧ (ds ++ tail).dropWhile isDigit = tail := by
  induction ds with
  | nil =>
    cases tail with
    | nil => exact ⟨rfl, rfl⟩
    | cons b tail =>
      have stops := stop b rfl
      simp [stops]
  | cons d ds ih =>
    have digit := h d List.mem_cons_self
    obtain ⟨taken, dropped⟩ := ih fun b mem => h b (List.mem_cons_of_mem d mem)
    simp only [List.cons_append, List.takeWhile_cons, List.dropWhile_cons, digit, if_true, taken,
      dropped, and_self]

lemma head_dropWhile {o : Octets} : ∀ b ∈ (o.dropWhile isDigit).head?, isDigit b = false := by
  intro b mem
  have := List.head?_dropWhile_not isDigit o
  rw [Option.mem_def.1 mem] at this
  exact this

lemma takeWhile_isDigit {o : Octets} : ∀ b ∈ o.takeWhile isDigit, isDigit b = true :=
  List.all_eq_true.1 List.all_takeWhile

lemma scanWhole?_local {o tail : Octets} {n : Nat} (h : scanWhole? o = some (n, tail)) :
    ∃ p, o = p ++ tail ∧ p ≠ [] ∧ EndsSolid p ∧
      ∀ tail', Yields tail tail' → scanWhole? (p ++ tail') = some (n, tail') := by
  unfold scanWhole? at h
  split at h
  · cases h
    exact ⟨[48], rfl, by simp, by simp [EndsSolid], fun _ _ => rfl⟩
  next other =>
    split at h
    · cases h
    next some =>
      cases h
      refine ⟨o.takeWhile isDigit, List.takeWhile_append_dropWhile.symm, some,
        endsSolid_of_isDigit takeWhile_isDigit, fun tail' yields => ?_⟩
      obtain ⟨taken, dropped⟩ := takeWhile_digits _ takeWhile_isDigit
        (yields.head head_dropWhile fun b breaks => breaks.1)
      unfold scanWhole?
      split
      next rest same =>
        exfalso
        cases first : o with
        | nil => rw [first] at some; exact (some rfl).elim
        | cons b rest' =>
          refine other rest' ?_
          rw [first, List.takeWhile_cons] at same
          split_ifs at same with digit
          · rw [List.cons_append] at same
            rw [first, (List.cons.inj same).1]
          · rw [first, List.takeWhile_cons, if_neg digit] at some
            exact (some rfl).elim
      · rw [taken, dropped]
        split
        · exact absurd ‹_› some
        · rfl

lemma scanFraction?_local {o tail : Octets} {f : Option (List Nat)}
    (h : scanFraction? o = some (f, tail)) :
    ∃ p, o = p ++ tail ∧ EndsSolid p ∧
      ∀ tail', Yields tail tail' → scanFraction? (p ++ tail') = some (f, tail') := by
  unfold scanFraction? at h
  split at h
  next rest =>
    split at h
    · cases h
    next some =>
      cases h
      refine ⟨46 :: rest.takeWhile isDigit, by simp, ?_, fun tail' yields => ?_⟩
      · exact EndsSolid.append (p := [46]) (by simp [EndsSolid])
          (endsSolid_of_isDigit takeWhile_isDigit)
      · obtain ⟨taken, dropped⟩ := takeWhile_digits _ takeWhile_isDigit
          (yields.head head_dropWhile fun b breaks => breaks.1)
        rw [List.cons_append, scanFraction?, taken, dropped]
        split
        · exact absurd ‹_› some
        · rfl
  next other =>
    cases h
    refine ⟨[], rfl, by simp [EndsSolid], fun tail' yields => ?_⟩
    have noPoint : ∀ b ∈ tail'.head?, b ≠ 46 := yields.head
      (fun b mem same => by
        obtain ⟨rest, rfl⟩ := List.head?_eq_some_iff.1 mem
        exact other rest (same ▸ rfl))
      fun b breaks => breaks.2.1
    rw [List.nil_append]
    unfold scanFraction?
    split
    · exact absurd rfl (noPoint 46 rfl)
    · rfl

lemma scanExponentDigits?_local {negative : Bool} {o tail : Octets} {e : Option Int}
    (h : scanExponentDigits? negative o = some (e, tail)) :
    ∃ p, o = p ++ tail ∧ p ≠ [] ∧ (∀ b ∈ p, isDigit b = true) ∧
      ∀ tail', Yields tail tail' → scanExponentDigits? negative (p ++ tail') = some (e, tail') := by
  unfold scanExponentDigits? at h
  split at h
  · cases h
  next some =>
    cases h
    refine ⟨o.takeWhile isDigit, List.takeWhile_append_dropWhile.symm, some, takeWhile_isDigit,
      fun tail' yields => ?_⟩
    obtain ⟨taken, dropped⟩ := takeWhile_digits _ takeWhile_isDigit
      (yields.head head_dropWhile fun b breaks => breaks.1)
    unfold scanExponentDigits?
    rw [taken, dropped]
    split
    · exact absurd ‹_› some
    · rfl

lemma scanExponent?_of_other {o : Octets} (other : ∀ b ∈ o.head?, ¬(b = 101 ∨ b = 69)) :
    scanExponent? o = some (none, o) := by
  cases o with
  | nil => rfl
  | cons b rest =>
    unfold scanExponent?
    exact if_neg (other b rfl)

lemma scanExponent?_signed {b : UInt8} (sign : Octets) {rest tail : Octets} {negative : Bool}
    {e : Option Int}
    (read : ∀ rest, (∀ b ∈ rest.head?, isDigit b = true) →
      scanExponent? (b :: (sign ++ rest)) = scanExponentDigits? negative rest)
    (h : scanExponentDigits? negative rest = some (e, tail)) :
    ∃ p, b :: (sign ++ rest) = p ++ tail ∧ EndsSolid p ∧
      ∀ tail', Yields tail tail' → scanExponent? (p ++ tail') = some (e, tail') := by
  obtain ⟨ds, rfl, some, digits, later⟩ := scanExponentDigits?_local h
  obtain ⟨d, ds, rfl⟩ := List.exists_cons_of_ne_nil some
  refine ⟨b :: (sign ++ d :: ds), by simp, fun c mem => ?_, fun tail' yields => ?_⟩
  · have behind : (b :: (sign ++ d :: ds)).getLast? = (d :: ds).getLast? := by
      rw [← List.cons_append, List.getLast?_append_of_ne_nil _ some]
    rw [behind] at mem
    exact endsSolid_of_isDigit digits c mem
  · have first : ∀ c ∈ (d :: ds ++ tail').head?, isDigit c = true := by
      intro c mem
      exact digits c (by rw [← Option.some.inj mem]; exact List.mem_cons_self)
    rw [List.cons_append, List.append_assoc, read _ first]
    exact later tail' yields

lemma scanExponent?_local {o tail : Octets} {e : Option Int}
    (h : scanExponent? o = some (e, tail)) :
    ∃ p, o = p ++ tail ∧ EndsSolid p ∧
      ∀ tail', Yields tail tail' → scanExponent? (p ++ tail') = some (e, tail') := by
  by_cases other : ∀ b ∈ o.head?, ¬(b = 101 ∨ b = 69)
  · rw [scanExponent?_of_other other] at h
    cases h
    exact ⟨[], rfl, by simp [EndsSolid], fun tail' yields => scanExponent?_of_other
      (yields.head other fun b breaks => not_or.2 breaks.2.2)⟩
  · push Not at other
    obtain ⟨b, begins, letter⟩ := other
    obtain ⟨rest, rfl⟩ := List.head?_eq_some_iff.1 begins
    unfold scanExponent? at h
    dsimp only at h
    rw [if_pos letter] at h
    split at h
    next rest => exact scanExponent?_signed [43] (fun _ _ => by simp [scanExponent?, letter]) h
    next rest => exact scanExponent?_signed [45] (fun _ _ => by simp [scanExponent?, letter]) h
    next plus minus =>
      refine scanExponent?_signed [] (fun rest first => ?_) h
      unfold scanExponent?
      dsimp only [List.nil_append]
      rw [if_pos letter]
      split
      · exact absurd (first 43 rfl) (by decide)
      · exact absurd (first 45 rfl) (by decide)
      · rfl

lemma scanNumber?_local {negative : Bool} {o tail : Octets} {n : Number}
    (h : scanNumber? negative o = some (n, tail)) :
    ∃ p, o = p ++ tail ∧ p ≠ [] ∧ EndsSolid p ∧
      ∀ tail', Yields tail tail' → scanNumber? negative (p ++ tail') = some (n, tail') := by
  simp only [scanNumber?, Option.bind_eq_bind, Option.bind_eq_some_iff, Prod.exists] at h
  obtain ⟨whole, _, hw, fraction, _, hf, exponent, _, he, h⟩ := h
  cases h
  obtain ⟨p, rfl, some, solid, again⟩ := scanWhole?_local hw
  obtain ⟨q, rfl, solid', again'⟩ := scanFraction?_local hf
  obtain ⟨r, rfl, solid'', again''⟩ := scanExponent?_local he
  refine ⟨p ++ (q ++ r), by simp, by simp [some], solid.append (solid'.append solid''),
    fun tail' yields => ?_⟩
  have whole' := again _ ((yields.append r).append q)
  have fraction' := again' _ (yields.append r)
  have exponent' := again'' _ yields
  simp only [List.append_assoc, scanNumber?, whole', fraction', exponent', Option.bind_eq_bind,
    Option.bind_some]

lemma hexValue?_ne_quote {a b c d : UInt8} {n : Nat} (h : hexValue? a b c d = some n) :
    34 ∉ [a, b, c, d] := by
  simp only [hexValue?, Option.bind_eq_bind, Option.bind_eq_some_iff] at h
  obtain ⟨_, ha, _, hb, _, hc, _, hd, -⟩ := h
  have other {e : UInt8} {n : Nat} (h : Hex.digitValue? e = some n) : 34 ≠ e := by
    rintro rfl
    have none : Hex.digitValue? 34 = none := by decide
    rw [none] at h
    cases h
  simp [other ha, other hb, other hc, other hd]

lemma lowSurrogate?_local {o rest : Octets} {n : Nat} (h : lowSurrogate? o = some (n, rest)) :
    ∃ p, o = p ++ rest ∧ 34 ∉ p ∧ ∀ rest', lowSurrogate? (p ++ rest') = some (n, rest') := by
  unfold lowSurrogate? at h
  split at h
  next backslash letter a b c d rest =>
    split_ifs at h with opens
    split at h
    next m found =>
      split_ifs at h with low
      cases h
      refine ⟨[backslash, letter, a, b, c, d], rfl, ?_, fun rest' => ?_⟩
      · have digits := hexValue?_ne_quote found
        simp only [List.mem_cons, not_or] at digits ⊢
        rw [opens.1, opens.2]
        exact ⟨by decide, by decide, digits⟩
      · simp only [lowSurrogate?, List.cons_append, List.nil_append, if_pos opens, found,
          if_pos low]
    next => cases h
  next => cases h

lemma lowSurrogate?_none_of_quote {q tail : Octets} (h : lowSurrogate? (q ++ tail) = none)
    (quote : 34 ∈ q) (tail' : Octets) : lowSurrogate? (q ++ tail') = none := by
  by_contra some
  obtain ⟨⟨n, rest⟩, found⟩ := Option.ne_none_iff_exists'.1 some
  obtain ⟨p, same, free, again⟩ := lowSurrogate?_local found
  obtain ⟨q', rfl⟩ : ∃ q', q = p ++ q' := by
    rcases List.append_eq_append_iff.1 same with ⟨p', rfl, _⟩ | ⟨q', rfl, _⟩
    · exact absurd (List.mem_append_left p' quote) free
    · exact ⟨q', rfl⟩
  rw [List.append_assoc, again] at h
  cases h

lemma codeEscape?_local {o mid octets : Octets} (h : codeEscape? o = some (octets, mid)) :
    ∃ p, o = p ++ mid ∧ ∀ q tail, mid = q ++ tail → 34 ∈ q →
      ∀ tail', codeEscape? (p ++ (q ++ tail')) = some (octets, q ++ tail') := by
  unfold codeEscape? at h
  split at h
  next a b c d rest =>
    split at h
    · cases h
    next n found =>
      by_cases high : 0xD800 ≤ n ∧ n ≤ 0xDBFF
      · rw [if_pos high] at h
        split at h
        next low rest' second =>
          obtain ⟨rfl, rfl⟩ := Prod.mk.inj (Option.some.inj h)
          obtain ⟨p, rfl, -, again⟩ := lowSurrogate?_local second
          refine ⟨a :: b :: c :: d :: p, rfl, fun q tail _ _ tail' => ?_⟩
          simp only [codeEscape?, List.cons_append, found, if_pos high, again]
        next alone =>
          obtain ⟨rfl, rfl⟩ := Prod.mk.inj (Option.some.inj h)
          refine ⟨[a, b, c, d], rfl, fun q tail same quote tail' => ?_⟩
          rw [same] at alone
          simp only [codeEscape?, List.cons_append, List.nil_append, found, if_pos high,
            lowSurrogate?_none_of_quote alone quote]
      · rw [if_neg high] at h
        obtain ⟨rfl, rfl⟩ := Prod.mk.inj (Option.some.inj h)
        refine ⟨[a, b, c, d], rfl, fun q tail _ _ tail' => ?_⟩
        simp only [codeEscape?, List.cons_append, List.nil_append, found, if_neg high]
  next => cases h

lemma escape?_local {o mid octets : Octets} (h : escape? o = some (octets, mid)) :
    ∃ p, o = p ++ mid ∧ ∀ q tail, mid = q ++ tail → 34 ∈ q →
      ∀ tail', escape? (p ++ (q ++ tail')) = some (octets, q ++ tail') := by
  cases o with
  | nil => cases h
  | cons b rest =>
    unfold escape? at h
    dsimp only at h
    split_ifs at h with unicode
    · obtain ⟨p, rfl, again⟩ := codeEscape?_local h
      refine ⟨b :: p, rfl, fun q tail same quote tail' => ?_⟩
      simp only [escape?, List.cons_append, if_pos unicode, again q tail same quote tail']
    · obtain ⟨c, letter, same⟩ := Option.map_eq_some_iff.1 h
      cases same
      refine ⟨[b], rfl, fun q tail _ _ tail' => ?_⟩
      simp only [escape?, List.cons_append, List.nil_append, if_neg unicode, letter,
        Option.map_some]

lemma scanString_local {o read octets tail : Octets} (h : scanString o read = some (octets, tail)) :
    ∃ p, o = p ++ tail ∧ p.getLast? = some 34 ∧
      ∀ tail', scanString (p ++ tail') read = some (octets, tail') := by
  fun_induction scanString o read with
  | case1 => cases h
  | case2 rest read =>
    cases h
    exact ⟨[34], rfl, rfl, fun tail' => by rw [List.cons_append, scanString]; rfl⟩
  | case3 => cases h
  | case4 rest read octets' mid found _ quote ih =>
    obtain ⟨p, rfl, last, again⟩ := ih h
    obtain ⟨e, rfl, escapes⟩ := escape?_local found
    refine ⟨92 :: (e ++ p), by simp, ?_, fun tail' => ?_⟩
    · rw [← List.cons_append, List.getLast?_append, last, Option.some_or]
    · have escaped := escapes p tail rfl (List.mem_of_getLast? last) tail'
      rw [List.cons_append, List.append_assoc, scanString, if_neg quote, if_pos rfl]
      split
      next none => rw [escaped] at none; cases none
      next octets'' tail'' found' =>
        rw [escaped] at found'
        cases found'
        exact again tail'
  | case5 => cases h
  | case6 b rest read quote backslash solid ih =>
    obtain ⟨p, rfl, last, again⟩ := ih h
    refine ⟨b :: p, rfl, ?_, fun tail' => ?_⟩
    · rw [← List.singleton_append, List.getLast?_append, last, Option.some_or]
    · rw [List.cons_append, scanString, if_neg quote, if_neg backslash, if_neg solid]
      exact again tail'

lemma isPrefixOf?_local {xs o tail : Octets} (h : xs.isPrefixOf? o = some tail) :
    o = xs ++ tail ∧ ∀ tail', xs.isPrefixOf? (xs ++ tail') = some tail' :=
  ⟨(List.isPrefixOf?_eq_some_iff_append_eq.1 h).symm,
    fun _ => List.isPrefixOf?_eq_some_iff_append_eq.2 rfl⟩

lemma lt_of_punctuation? {b : UInt8} {t : Token} (h : punctuation? b = some t) : 32 < b := by
  unfold punctuation? at h
  split_ifs at h <;> subst b <;> decide

lemma EndsSolid.cons {p : Octets} (h : EndsSolid p) (nonempty : p ≠ []) (b : UInt8) :
    EndsSolid (b :: p) := by
  obtain ⟨c, p, rfl⟩ := List.exists_cons_of_ne_nil nonempty
  intro d mem
  rw [List.getLast?_cons_cons] at mem
  exact h d mem

/-- A word is a piece of the text that ends in a solid octet, and it stays a word in front of any
text that begins in the same way or does not continue a number. -/
theorem scanOne?_local {b : UInt8} {rest tail : Octets} {t : Token}
    (h : scanOne? b rest = some (t, tail)) :
    ∃ p, rest = p ++ tail ∧ EndsSolid (b :: p) ∧
      ∀ tail', Yields tail tail' → scanOne? b (p ++ tail') = some (t, tail') := by
  unfold scanOne? at h ⊢
  split at h
  next mark found =>
    cases h
    refine ⟨[], rfl, fun c mem => ?_, fun _ _ => rfl⟩
    rw [← Option.some.inj mem]
    exact lt_of_punctuation? found
  next plain =>
    have literal {xs : Octets} {t' : Token} (solid : EndsSolid xs) (some' : xs ≠ [])
        (h : (xs.isPrefixOf? rest).map (t', ·) = some (t, tail)) :
        ∃ p, rest = p ++ tail ∧ EndsSolid (b :: p) ∧
          ∀ tail', Yields tail tail' → (xs.isPrefixOf? (p ++ tail')).map (t', ·) =
            some (t, tail') := by
      obtain ⟨tail, found, same⟩ := Option.map_eq_some_iff.1 h
      cases same
      obtain ⟨rfl, again⟩ := isPrefixOf?_local found
      exact ⟨xs, rfl, solid.cons some' b, fun tail' _ => by rw [again]; rfl⟩
    split_ifs at h ⊢ with quote n t f minus
    · obtain ⟨⟨octets, tail⟩, found, same⟩ := Option.map_eq_some_iff.1 h
      cases same
      obtain ⟨p, rfl, last, again⟩ := scanString_local found
      refine ⟨p, rfl, EndsSolid.cons (fun c mem => ?_) (by rintro rfl; cases last) b,
        fun tail' _ => by rw [again]; rfl⟩
      rw [last] at mem
      rw [← Option.some.inj mem]
      decide
    · exact literal (by decide) (by decide) h
    · exact literal (by decide) (by decide) h
    · exact literal (by decide) (by decide) h
    · obtain ⟨⟨n, tail⟩, found, same⟩ := Option.map_eq_some_iff.1 h
      cases same
      obtain ⟨p, rfl, some', solid, again⟩ := scanNumber?_local found
      exact ⟨p, rfl, solid.cons some' b, fun tail' yields => by rw [again tail' yields]; rfl⟩
    · obtain ⟨⟨n, tail⟩, found, same⟩ := Option.map_eq_some_iff.1 h
      cases same
      obtain ⟨p, same, some', solid, again⟩ := scanNumber?_local found
      obtain ⟨c, p, rfl⟩ := List.exists_cons_of_ne_nil some'
      obtain ⟨rfl, rfl⟩ := List.cons.inj same
      refine ⟨p, rfl, solid, fun tail' yields => ?_⟩
      rw [← List.cons_append, again tail' yields]
      rfl

lemma Scans.blank {o : Octets} (h : Scans o []) : ∀ b ∈ o, isSpace b = true := by
  generalize none : ([] : List Token) = ts at h
  induction h with
  | nil => simp
  | space blank _ ih =>
    intro c mem
    rcases List.mem_cons.1 mem with rfl | mem
    · exact blank
    · exact ih none c mem
  | word => cases none

theorem Scans.append {o o' : Octets} {ts us : List Token} (h : Scans o ts) (h' : Scans o' us)
    (breaks : Breaks o') : Scans (o ++ o') (ts ++ us) := by
  induction h with
  | nil => exact h'
  | space blank _ ih => exact .space blank ih
  | @word b rest tail t ts solid found _ ih =>
    obtain ⟨p, rfl, -, again⟩ := scanOne?_local found
    have yields : Yields tail (tail ++ o') := by
      cases tail with
      | nil => exact .inr breaks
      | cons c tail => exact .inl rfl
    have found' := again (tail ++ o') yields
    rw [← List.append_assoc] at found'
    exact .word solid found' ih

/-- The words that a text begins with are the words of what it begins with, unless that is cut off
in the middle of a number. -/
theorem Scans.of_append {p o : Octets} {ts us : List Token} (h : Scans p ts)
    (breaks : Breaks o) (all : Scans (p ++ o) us) : ∃ vs, us = ts ++ vs ∧ Scans o vs := by
  induction h generalizing us with
  | nil => exact ⟨us, rfl, all⟩
  | space blank _ ih =>
    cases all with
    | space _ scans => exact ih scans
    | word solid _ _ => exact absurd blank solid
  | @word b rest tail t ts solid found _ ih =>
    obtain ⟨w, rfl, -, again⟩ := scanOne?_local found
    have yields : Yields tail (tail ++ o) := by
      cases tail with
      | nil => exact .inr breaks
      | cons c tail => exact .inl rfl
    have found' := again (tail ++ o) yields
    rw [← List.append_assoc] at found'
    cases all with
    | space blank _ => exact absurd blank solid
    | word _ found'' scans =>
      cases found'.symm.trans found''
      obtain ⟨vs, rfl, later⟩ := ih scans
      exact ⟨vs, rfl, later⟩

theorem Scans.split {o : Octets} {ts us : List Token} (h : Scans o (ts ++ us)) :
    ∃ p q, o = p ++ q ∧ EndsSolid p ∧ Scans p ts ∧ Scans q us := by
  generalize all : ts ++ us = vs at h
  induction h generalizing ts with
  | nil =>
    obtain ⟨rfl, rfl⟩ := List.append_eq_nil_iff.1 all
    exact ⟨[], [], rfl, by simp [EndsSolid], .nil, .nil⟩
  | @space b rest vs blank scans ih =>
    cases ts with
    | nil =>
      obtain rfl : us = vs := all
      exact ⟨[], b :: rest, rfl, by simp [EndsSolid], .nil, .space blank scans⟩
    | cons t ts =>
      obtain ⟨p, q, rfl, solid, first, second⟩ := ih all
      refine ⟨b :: p, q, rfl, solid.cons ?_ b, .space blank first, second⟩
      rintro rfl
      cases first
  | @word b rest tail t vs solid found scans ih =>
    cases ts with
    | nil =>
      obtain rfl : us = t :: vs := all
      exact ⟨[], b :: rest, rfl, by simp [EndsSolid], .nil, .word solid found scans⟩
    | cons t' ts =>
      obtain ⟨rfl, rest'⟩ := List.cons.inj all
      obtain ⟨p, q, rfl, last, first, second⟩ := ih rest'
      obtain ⟨w, rfl, ends, again⟩ := scanOne?_local found
      have yields : Yields (p ++ q) p := by
        cases p with
        | nil => exact .inr breaks_nil
        | cons c p => exact .inl rfl
      exact ⟨b :: (w ++ p), q, by simp, ends.append last,
        .word solid (again p yields) first, second⟩

end ImageRegistry.Json.Token
