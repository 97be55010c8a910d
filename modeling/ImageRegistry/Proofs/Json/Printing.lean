import ImageRegistry.Json.Nesting
import ImageRegistry.Json.Printer
import ImageRegistry.Proofs.Json.Scanning

/-! Printed documents are read back. Numbers are printed exactly if they are natural. -/

namespace ImageRegistry.Json

/-- All numbers of the document are natural. -/
inductive IsPlain : Json → Prop
  | null : IsPlain null
  | bool (b : Bool) : IsPlain (bool b)
  | natural (n : Nat) : IsPlain (natural n)
  | string (o : Octets) : IsPlain (string o)
  | array {items : List Json} (plain : ∀ v ∈ items, IsPlain v) : IsPlain (array items)
  | object {members : List (Octets × Json)} (plain : ∀ m ∈ members, IsPlain m.2) :
      IsPlain (object members)

lemma isPlain_ofMembers {members : List (String × Json)} (plain : ∀ m ∈ members, m.2.IsPlain) :
    (ofMembers members).IsPlain := by
  refine .object fun m mem => ?_
  obtain ⟨member, isMember, rfl⟩ := List.mem_map.1 mem
  exact plain member isMember

open Token

lemma scanString_escaped (b : UInt8) (rest read : Octets) :
    scanString (escaped b ++ rest) read = scanString rest (b :: read) := by
  have escape {o : Octets} (read' : escape? (o ++ rest) = some ([b], rest)) :
      scanString (92 :: (o ++ rest)) read = scanString rest (b :: read) := by
    rw [scanString, if_neg (by decide), if_pos rfl]
    split
    next none => rw [read'] at none; cases none
    next octets tail found =>
      rw [read'] at found
      cases found
      rfl
  unfold escaped
  split_ifs with h₁ h₂ h₃ h₄ h₅ h₆ h₇ control
  · exact escape (o := [34]) (by subst b; rfl)
  · exact escape (o := [92]) (by subst b; rfl)
  · exact escape (o := [98]) (by subst b; rfl)
  · exact escape (o := [116]) (by subst b; rfl)
  · exact escape (o := [110]) (by subst b; rfl)
  · exact escape (o := [102]) (by subst b; rfl)
  · exact escape (o := [114]) (by subst b; rfl)
  · have small (n : Nat) (h : n < 32) : hexValue? 48 48 (UInt8.ofNat (Hex.digit (n / 16)).toNat)
        (UInt8.ofNat (Hex.digit (n % 16)).toNat) = some n := by
      revert n
      decide
    have value := small b.toNat (UInt8.lt_iff_toNat_lt.1 control)
    refine escape (o := [117, 48, 48, UInt8.ofNat (Hex.digit (b.toNat / 16)).toNat,
      UInt8.ofNat (Hex.digit (b.toNat % 16)).toNat]) ?_
    have low : b.toNat < 32 := UInt8.lt_iff_toNat_lt.1 control
    rw [List.cons_append, escape?, if_pos rfl]
    simp only [List.cons_append, List.nil_append, codeEscape?, value]
    rw [if_neg (by omega), codePointOctets, if_pos (by omega), UInt8.ofNat_toNat]
  · rw [List.singleton_append, scanString, if_neg h₁, if_neg h₂, if_neg control]

lemma scans_literal (o : Octets) : Scans (literal o) [.string o] := by
  have all (o read : Octets) : scanString (o.flatMap escaped ++ [34]) read =
      some (read.reverse ++ o, []) := by
    induction o generalizing read with
    | nil => simp [scanString]
    | cons b o ih =>
      rw [List.flatMap_cons, List.append_assoc, scanString_escaped, ih]
      simp
  refine .word (by decide) ?_ .nil
  change (scanString (o.flatMap escaped ++ [34]) []).map _ = _
  rw [all]
  rfl

lemma digitText_digits (n : Nat) : ∃ d ds, Number.digitText (Number.digits n) = d :: ds ∧
    (∀ b ∈ d :: ds, isDigit b = true) ∧ (d = 48 → n = 0 ∧ ds = []) ∧
    digitsValue (d :: ds) = n := by
  have single (n : Nat) (h : n < 10) :
      isDigit (UInt8.ofNat (48 + (n.digitChar.toNat - 48))) = true ∧
      (UInt8.ofNat (48 + (n.digitChar.toNat - 48))).toNat - 48 = n ∧
      (UInt8.ofNat (48 + (n.digitChar.toNat - 48)) = 48 → n = 0) := by
    revert n
    decide
  induction n using Nat.strongRecOn with
  | ind n ih =>
    by_cases small : n < 10
    · obtain ⟨digit, value, zero⟩ := single n small
      refine ⟨_, [], by rw [Number.digits, Nat.toDigits_of_lt_base small]; rfl,
        by simpa using digit, fun same => ⟨zero same, rfl⟩, ?_⟩
      simpa [digitsValue] using value
    · obtain ⟨d, ds, text, digits, zero, value⟩ := ih (n / 10) (by omega)
      obtain ⟨digit, value', -⟩ := single (n % 10) (by omega)
      refine ⟨d, ds ++ [UInt8.ofNat (48 + ((n % 10).digitChar.toNat - 48))], ?_, ?_, ?_, ?_⟩
      · rw [Number.digits, Nat.toDigits_of_base_le (by decide) (by omega)]
        rw [Number.digits] at text
        simp only [List.map_append, Number.digitText] at text ⊢
        rw [text]
        rfl
      · intro b mem
        rw [← List.cons_append, List.mem_append, List.mem_singleton] at mem
        rcases mem with mem | rfl
        · exact digits b mem
        · exact digit
      · intro same
        have := (zero same).1
        omega
      · rw [← List.cons_append, digitsValue, List.foldl_append]
        rw [digitsValue] at value
        rw [value, List.foldl_cons, List.foldl_nil, value']
        omega

lemma word_of_isDigit {b : UInt8} (h : isDigit b = true) : ¬isSpace b = true ∧
    punctuation? b = none ∧ b ≠ 34 ∧ b ≠ 110 ∧ b ≠ 116 ∧ b ≠ 102 ∧ b ≠ 45 := by
  have all (n : Nat) (h : n < 10) : ¬isSpace (UInt8.ofNat (48 + n)) = true ∧
      punctuation? (UInt8.ofNat (48 + n)) = none ∧ UInt8.ofNat (48 + n) ≠ 34 ∧
      UInt8.ofNat (48 + n) ≠ 110 ∧ UInt8.ofNat (48 + n) ≠ 116 ∧ UInt8.ofNat (48 + n) ≠ 102 ∧
      UInt8.ofNat (48 + n) ≠ 45 := by
    revert n
    decide
  simp only [isDigit, Bool.and_eq_true, decide_eq_true_eq, UInt8.le_iff_toNat_le] at h
  have low : 48 ≤ b.toNat := h.1
  have high : b.toNat ≤ 57 := h.2
  have same : UInt8.ofNat (48 + (b.toNat - 48)) = b := by
    rw [show 48 + (b.toNat - 48) = b.toNat by omega, UInt8.ofNat_toNat]
  have := all (b.toNat - 48) (by omega)
  rwa [same] at this

lemma scans_natural (n : Nat) : Scans (Number.render ⟨false, n, none, none⟩)
    [.number ⟨false, n, none, none⟩] := by
  obtain ⟨d, ds, text, digits, zero, value⟩ := digitText_digits n
  have first : isDigit d = true := digits d List.mem_cons_self
  have rendered : Number.render ⟨false, n, none, none⟩ = d :: ds := by
    simp [Number.render, text]
  have whole : scanWhole? (d :: ds) = some (n, []) := by
    by_cases isZero : d = 48
    · obtain ⟨rfl, rfl⟩ := zero isZero
      rw [isZero]
      rfl
    · obtain ⟨taken, dropped⟩ := takeWhile_digits [] digits (by simp)
      rw [List.append_nil] at taken dropped
      unfold scanWhole?
      split
      · exact absurd (List.cons.inj ‹_›).1 isZero
      · rw [taken, dropped]
        exact congrArg (fun n => some (n, [])) value
  rw [rendered]
  obtain ⟨solid, unmarked, quote, n', t, f, minus⟩ := word_of_isDigit first
  refine .word solid ?_ .nil
  unfold scanOne?
  simp only [unmarked, if_neg quote, if_neg n', if_neg t, if_neg f, if_neg minus]
  rw [scanNumber?, whole]
  rfl

mutual

def tokens : Json → List Token
  | null => [.null]
  | bool b => [.bool b]
  | number n => [.number n]
  | string o => [.string o]
  | array items => .openBracket :: (itemTokens items ++ [.closeBracket])
  | object members => .openBrace :: (memberTokens members ++ [.closeBrace])

/-- The words of the items of an array, with commas between them. -/
def itemTokens : List Json → List Token
  | [] => []
  | [v] => tokens v
  | v :: rest => tokens v ++ .comma :: itemTokens rest

/-- The words of the members of an object, with commas between them. -/
def memberTokens : List (Octets × Json) → List Token
  | [] => []
  | [(k, v)] => .string k :: .colon :: tokens v
  | (k, v) :: rest => .string k :: .colon :: (tokens v ++ .comma :: memberTokens rest)

end

lemma breaks_cons {b : UInt8} (h : isDigit b = false ∧ b ≠ 46 ∧ b ≠ 101 ∧ b ≠ 69) (rest : Octets) :
    Breaks (b :: rest) := by
  intro c mem
  rw [← Option.some.inj mem]
  exact h

lemma scans_mark {b : UInt8} {t : Token} {rest : Octets} {ts : List Token}
    (h : punctuation? b = some t) (solid : ¬isSpace b = true) (scans : Scans rest ts) :
    Scans (b :: rest) (t :: ts) := by
  refine .word solid ?_ scans
  unfold scanOne?
  rw [h]

lemma scans_after_blanks {blanks o : Octets} {ts : List Token}
    (blank : ∀ b ∈ blanks, isSpace b = true) (scans : Scans o ts) : Scans (blanks ++ o) ts := by
  induction blanks with
  | nil => exact scans
  | cons b blanks ih =>
    exact .space (blank b List.mem_cons_self) (ih fun c mem => blank c (List.mem_cons_of_mem b mem))

lemma scans_items {f : Json → Octets} {g : List Json → Octets} (blanks : Octets)
    (blank : ∀ b ∈ blanks, isSpace b = true) (none : g [] = []) (one : ∀ v, g [v] = blanks ++ f v)
    (more : ∀ v w rest, g (v :: w :: rest) = blanks ++ f v ++ 44 :: g (w :: rest))
    {items : List Json} (each : ∀ v ∈ items, Scans (f v) (tokens v)) :
    Scans (g items) (itemTokens items) := by
  induction items with
  | nil =>
    rw [none, itemTokens]
    exact .nil
  | cons v rest ih =>
    have first := scans_after_blanks blank (each v List.mem_cons_self)
    have later := ih fun w mem => each w (List.mem_cons_of_mem v mem)
    cases rest with
    | nil =>
      rw [one, itemTokens]
      exact first
    | cons w rest =>
      rw [more, itemTokens]
      · exact first.append (scans_mark rfl (by decide) later) (breaks_cons (by decide) _)
      · simp

lemma scans_members {f : Json → Octets} {g : List (Octets × Json) → Octets}
    (blanks blanks' : Octets) (blank : ∀ b ∈ blanks, isSpace b = true)
    (blank' : ∀ b ∈ blanks', isSpace b = true) (none : g [] = [])
    (one : ∀ k v, g [(k, v)] = blanks ++ literal k ++ 58 :: (blanks' ++ f v))
    (more : ∀ k v w rest, g ((k, v) :: w :: rest) =
      blanks ++ literal k ++ 58 :: (blanks' ++ f v ++ 44 :: g (w :: rest)))
    {members : List (Octets × Json)} (each : ∀ m ∈ members, Scans (f m.2) (tokens m.2)) :
    Scans (g members) (memberTokens members) := by
  induction members with
  | nil =>
    rw [none, memberTokens]
    exact .nil
  | cons m rest ih =>
    obtain ⟨k, v⟩ := m
    have key := scans_after_blanks blank (scans_literal k)
    have value := scans_after_blanks blank' (each (k, v) List.mem_cons_self)
    have later := ih fun w mem => each w (List.mem_cons_of_mem (k, v) mem)
    cases rest with
    | nil =>
      rw [one, memberTokens]
      exact key.append (scans_mark rfl (by decide) value) (breaks_cons (by decide) _)
    | cons w rest =>
      rw [more, memberTokens]
      · have both := value.append (scans_mark (b := 44) rfl (by decide) later)
          (breaks_cons (by decide) _)
        exact key.append (scans_mark rfl (by decide) both) (breaks_cons (by decide) _)
      · simp

lemma scans_scalar {o : Octets} {t : Token} (b : UInt8) (rest : Octets) (same : o = b :: rest)
    (solid : ¬isSpace b = true) (h : scanOne? b rest = some (t, [])) : Scans o [t] :=
  same ▸ .word solid h .nil

lemma scans_null : Scans (Octets.ofText "null") [.null] :=
  scans_scalar 110 [117, 108, 108] (by decide) (by decide) (by decide)

lemma scans_bool (b : Bool) : Scans (Octets.ofText (if b then "true" else "false")) [.bool b] := by
  cases b with
  | true => exact scans_scalar 116 [114, 117, 101] (by decide) (by decide) (by decide)
  | false => exact scans_scalar 102 [97, 108, 115, 101] (by decide) (by decide) (by decide)

lemma scans_between {b c : UInt8} {t u : Token} {o : Octets} {ts : List Token} (blanks : Octets)
    (opens : punctuation? b = some t) (closes : punctuation? c = some u)
    (solid : ¬isSpace b = true ∧ ¬isSpace c = true) (blank : ∀ b ∈ blanks, isSpace b = true)
    (breaks : Breaks (blanks ++ [c])) (scans : Scans o ts) :
    Scans (b :: (o ++ (blanks ++ [c]))) (t :: (ts ++ [u])) :=
  scans_mark opens solid.1 (scans.append
    (scans_after_blanks blank (scans_mark closes solid.2 .nil)) breaks)

theorem scans_compact {v : Json} (plain : v.IsPlain) : Scans (compact v) (tokens v) := by
  induction plain with
  | null =>
    rw [compact, tokens]
    exact scans_null
  | bool b =>
    cases b with
    | true => exact scans_bool true
    | false => exact scans_bool false
  | natural n =>
    rw [natural, compact, tokens]
    exact scans_natural n
  | string o =>
    rw [compact, tokens]
    exact scans_literal o
  | array _ ih =>
    rw [compact, tokens]
    exact scans_between [] rfl rfl (by decide) (by simp) (breaks_cons (by decide) _)
      (scans_items [] (by simp) rfl (fun _ => rfl) (fun _ _ _ => rfl) ih)
  | object _ ih =>
    rw [compact, tokens]
    refine scans_between [] rfl rfl (by decide) (by simp) (breaks_cons (by decide) _)
      (scans_members [] [] (by simp) (by simp) rfl (fun _ _ => rfl)
        (fun _ _ _ _ => rfl) ih)

lemma isSpace_newLine (depth : Nat) : ∀ b ∈ newLine depth, isSpace b = true := by
  intro b mem
  rcases List.mem_cons.1 mem with rfl | mem
  · decide
  · rw [List.eq_of_mem_replicate mem]
    decide

lemma breaks_newLine (depth : Nat) (rest : Octets) : Breaks (newLine depth ++ rest) :=
  breaks_cons (by decide) _

theorem scans_indented {v : Json} (plain : v.IsPlain) (depth : Nat) :
    Scans (indented depth v) (tokens v) := by
  induction plain generalizing depth with
  | null =>
    rw [indented, tokens]
    exact scans_null
  | bool b =>
    cases b with
    | true => exact scans_bool true
    | false => exact scans_bool false
  | natural n =>
    rw [natural, indented, tokens]
    exact scans_natural n
  | string o =>
    rw [indented, tokens]
    exact scans_literal o
  | @array items _ ih =>
    cases items with
    | nil => exact scans_mark rfl (by decide) (scans_mark rfl (by decide) .nil)
    | cons v rest =>
      rw [indented, tokens, List.append_assoc]
      · exact scans_between _ rfl rfl (by decide) (isSpace_newLine depth) (breaks_newLine depth _)
          (scans_items _ (isSpace_newLine (depth + 1)) rfl (fun _ => rfl) (fun _ _ _ => rfl)
            fun w mem => ih w mem (depth + 1))
      · simp
  | @object members _ ih =>
    cases members with
    | nil => exact scans_mark rfl (by decide) (scans_mark rfl (by decide) .nil)
    | cons m rest =>
      rw [indented, tokens, List.append_assoc]
      · exact scans_between _ rfl rfl (by decide) (isSpace_newLine depth) (breaks_newLine depth _)
          (scans_members _ [32] (isSpace_newLine (depth + 1)) (by decide +kernel) rfl
            (fun _ _ => by simp [indentedMembers]) (fun _ _ _ _ => by simp [indentedMembers])
              fun w mem => ih w mem (depth + 1))
      · simp

namespace Expecting

lemma run_cons {e e' : Expecting} {t : Token} (h : e.step t = some e') (ts : List Token) :
    run e (t :: ts) = run e' ts := by
  rw [run, h]

lemma run_firstItem (v : Json) (stack : List Frame) (ts : List Token) :
    run (firstItem stack) (tokens v ++ ts) = run (value (.items [] :: stack)) (tokens v ++ ts) := by
  cases v with
  | null | bool | number | string => rfl
  | array | object =>
    rw [tokens]
    rfl

variable {stack : List Frame} {ts : List Token}

lemma run_items {v : Json} {rest : List Json} (each : ∀ w ∈ v :: rest, ∀ stack ts,
    run (value stack) (tokens w ++ ts) = run (after w stack) ts) (done : List Json) :
    run (value (.items done :: stack)) (itemTokens (v :: rest) ++ .closeBracket :: ts) =
      run (after (.array (done.reverse ++ v :: rest)) stack) ts := by
  induction rest generalizing v done with
  | nil =>
    rw [itemTokens, each v List.mem_cons_self, run_cons rfl, List.reverse_cons]
  | cons w rest ih =>
    rw [itemTokens, List.append_assoc, each v List.mem_cons_self, List.cons_append, run_cons rfl,
      ih fun u mem => each u (List.mem_cons_of_mem v mem)]
    · simp
    · simp

lemma run_members {m : Octets × Json} {rest : List (Octets × Json)}
    (each : ∀ w ∈ m :: rest, ∀ stack ts,
      run (value stack) (tokens w.2 ++ ts) = run (after w.2 stack) ts)
    (done : List (Octets × Json)) :
    run (key done stack) (memberTokens (m :: rest) ++ .closeBrace :: ts) =
      run (after (.object (done.reverse ++ m :: rest)) stack) ts := by
  induction rest generalizing m done with
  | nil =>
    obtain ⟨k, v⟩ := m
    rw [memberTokens, List.cons_append, run_cons rfl, List.cons_append, run_cons rfl,
      each (k, v) List.mem_cons_self, run_cons rfl, List.reverse_cons]
  | cons w rest ih =>
    obtain ⟨k, v⟩ := m
    rw [memberTokens, List.cons_append, run_cons rfl, List.cons_append, run_cons rfl,
      List.append_assoc, each (k, v) List.mem_cons_self, List.cons_append, run_cons rfl,
      ih fun u mem => each u (List.mem_cons_of_mem (k, v) mem)]
    · simp
    · simp

lemma run_firstKey (m : Octets × Json) (rest : List (Octets × Json)) :
    run (firstKey stack) (memberTokens (m :: rest) ++ ts) =
      run (key [] stack) (memberTokens (m :: rest) ++ ts) := by
  obtain ⟨k, v⟩ := m
  cases rest with
  | nil => rfl
  | cons w rest => 
    rw [memberTokens]
    · rfl
    · simp

theorem run_tokens {v : Json} (plain : v.IsPlain) (stack : List Frame) (ts : List Token) :
    run (value stack) (tokens v ++ ts) = run (after v stack) ts := by
  induction plain generalizing stack ts with
  | null | bool | natural | string => rfl
  | @array items _ ih =>
    rw [tokens, List.cons_append, run_cons rfl, List.append_assoc]
    cases items with
    | nil => rfl
    | cons v rest =>
      have first : run (firstItem stack) (itemTokens (v :: rest) ++ .closeBracket :: ts) =
          run (value (.items [] :: stack)) (itemTokens (v :: rest) ++ .closeBracket :: ts) := by
        cases rest with
        | nil => exact run_firstItem v stack _
        | cons w rest =>
          rw [itemTokens, List.append_assoc]
          · exact run_firstItem v stack _
          · simp
      exact first.trans (run_items ih [])
  | @object members _ ih =>
    rw [tokens, List.cons_append, run_cons rfl, List.append_assoc]
    cases members with
    | nil => rfl
    | cons m rest => exact (run_firstKey m rest).trans (run_members ih [])

end Expecting

theorem parse?_compact {v : Json} (plain : v.IsPlain) : parse? (compact v) = some v := by
  rw [parse?, scan_eq_some_iff.2 (scans_compact plain), Option.bind_some, ofTokens?,
    ← List.append_nil (tokens v), Expecting.run_tokens plain]
  rfl

theorem parse?_pretty {v : Json} (plain : v.IsPlain) : parse? (pretty v) = some v := by
  rw [parse?, pretty, scan_eq_some_iff.2 (scans_indented plain 0), Option.bind_some, ofTokens?,
    ← List.append_nil (tokens v), Expecting.run_tokens plain]
  rfl

end ImageRegistry.Json
