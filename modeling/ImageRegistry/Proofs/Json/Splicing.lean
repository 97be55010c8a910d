import ImageRegistry.Proofs.Json.Printing

/-! Putting a member in before the closing brace of an object, in the text of a document. -/

namespace ImageRegistry.Json

open Token

lemma eq_of_scanOne?_closeBrace {b : UInt8} {rest tail : Octets}
    (h : scanOne? b rest = some (.closeBrace, tail)) : b = 125 ∧ tail = rest := by
  unfold scanOne? at h
  split at h
  next t found =>
    cases h
    unfold punctuation? at found
    split_ifs at found with _ brace
    · cases found
    · exact ⟨brace, rfl⟩
    all_goals cases found
  next =>
    split_ifs at h <;> (obtain ⟨_, _, same⟩ := Option.map_eq_some_iff.1 h; cases same)

lemma scans_closeBrace {o : Octets} (h : Scans o [.closeBrace]) :
    ∃ p q, o = p ++ 125 :: q ∧ (∀ b ∈ p, isSpace b = true) ∧ ∀ b ∈ q, isSpace b = true := by
  generalize brace : [Token.closeBrace] = ts at h
  induction h with
  | nil => cases brace
  | @space b rest ts blank _ ih =>
    obtain ⟨p, q, rfl, before, behind⟩ := ih brace
    refine ⟨b :: p, q, rfl, fun c mem => ?_, behind⟩
    rcases List.mem_cons.1 mem with rfl | mem
    · exact blank
    · exact before c mem
  | @word b rest tail t ts _ found scans _ =>
    obtain ⟨rfl, rfl⟩ := List.cons.inj brace
    obtain ⟨rfl, rfl⟩ := eq_of_scanOne?_closeBrace found
    exact ⟨[], tail, rfl, by simp, scans.blank⟩

lemma breaks_of_isSpace {b : UInt8} (h : isSpace b = true) :
    isDigit b = false ∧ b ≠ 46 ∧ b ≠ 101 ∧ b ≠ 69 := by
  simp only [isSpace, Bool.or_eq_true, beq_iff_eq] at h
  rcases h with ((rfl | rfl) | rfl) | rfl <;> decide

namespace Expecting

lemma run_append (e : Expecting) (ts us : List Token) :
    run e (ts ++ us) = (run e ts).bind fun e' => run e' us := by
  induction ts generalizing e with
  | nil => rfl
  | cons t ts ih =>
    rw [List.cons_append, run, run]
    cases e.step t with
    | none => rfl
    | some e' => exact ih e'

lemma beginValue_ne_object {stack stack' : List Frame} {t : Token}
    {members : List (Octets × Json)} :
    beginValue stack t ≠ some (after (.object members) stack') := by
  cases t <;> simp [beginValue]

lemma eq_of_step_object {e : Expecting} {t : Token} {members : List (Octets × Json)}
    {stack : List Frame} (some' : members ≠ [])
    (h : e.step t = some (after (.object members) stack)) : t = .closeBrace ∧
      ∃ done k v, e = after v (.members done k :: stack) ∧ members = ((k, v) :: done).reverse := by
  unfold step at h
  split at h
  case h_1 => exact absurd h beginValue_ne_object
  case h_3 => exact absurd h beginValue_ne_object
  case h_4 => cases h; exact absurd rfl some'
  case h_11 => cases h; exact ⟨rfl, _, _, _, rfl, rfl⟩
  all_goals cases h

lemma eq_of_run_object {ts : List Token} {e : Expecting} {members : List (Octets × Json)}
    {stack : List Frame} (some' : members ≠ []) (other : e ≠ after (.object members) stack)
    (h : run e ts = some (after (.object members) stack)) : ∃ us done k v,
      ts = us ++ [.closeBrace] ∧ run e us = some (after v (.members done k :: stack)) ∧
        members = ((k, v) :: done).reverse := by
  rcases List.eq_nil_or_concat ts with rfl | ⟨us, t, rfl⟩
  · exact absurd (Option.some.inj h) other
  · rw [List.concat_eq_append, run_append] at h
    obtain ⟨e', before, last⟩ := Option.bind_eq_some_iff.1 h
    cases stepped : e'.step t with
    | none => rw [run, stepped] at last; cases last
    | some e'' =>
      rw [run, stepped] at last
      obtain rfl := Option.some.inj last
      obtain ⟨rfl, done, k, v, rfl, same⟩ := eq_of_step_object some' stepped
      exact ⟨us, done, k, v, List.concat_eq_append, before, same⟩

/-- The arrays and objects that are open, the one that is being read first. -/
def openFrames : Expecting → List Frame
  | value stack | firstItem stack | firstKey stack | after _ stack => stack
  | key done stack => .members done [] :: stack
  | colon done k stack => .members done k :: stack

/-- The outermost object has members already that were read first, the last one first. -/
def Keeps (first : List (Octets × Json)) (e : Expecting) : Prop :=
  (∃ done k, e.openFrames.getLast? = some (.members done k) ∧ first <:+ done) ∨
    ∃ more, e = after (.object (first.reverse ++ more)) []

lemma outermost_cases {f g : Frame} {stack : List Frame} (h : (f :: stack).getLast? = some g) :
    (stack = [] ∧ f = g) ∨
      stack.getLast? = some g ∧ ∀ f' : Frame, (f' :: stack).getLast? = some g := by
  cases stack with
  | nil => exact .inl ⟨rfl, Option.some.inj h⟩
  | cons f' stack =>
    rw [List.getLast?_cons_cons] at h
    exact .inr ⟨h, fun _ => List.getLast?_cons_cons.trans h⟩

section Keeps

variable {first : List (Octets × Json)} {stack : List Frame} {e e' : Expecting} {t : Token}

lemma keeps_of_beginValue {done : List (Octets × Json)} {k : Octets}
    (last : stack.getLast? = some (.members done k)) (suffix : first <:+ done)
    (h : beginValue stack t = some e) : Keeps first e := by
  cases t <;> cases h <;> exact .inl ⟨done, k, last, suffix⟩

lemma keeps_of_step (keeps : Keeps first e) (h : e.step t = some e') : Keeps first e' := by
  obtain ⟨done, k, last, suffix⟩ | ⟨more, rfl⟩ := keeps
  swap
  · cases t <;> cases h
  have under (f : Frame) {stack : List Frame} (last : stack.getLast? = some (.members done k)) :
      (f :: stack).getLast? = some (.members done k) := by
    rw [List.getLast?_cons, last]
    rfl
  -- a word changes the frame on top only, and that is the outermost one if it is alone
  unfold step at h
  split at h
  case h_1 => exact keeps_of_beginValue last suffix h
  case h_2 => cases h; exact .inl ⟨done, k, last, suffix⟩
  case h_3 => exact keeps_of_beginValue (under _ last) suffix h
  case h_4 => cases h; exact .inl ⟨done, k, last, suffix⟩
  case h_5 => cases h; exact .inl ⟨done, k, under _ last, suffix⟩
  case h_6 =>
    cases h
    obtain ⟨rfl, same⟩ | ⟨-, later⟩ := outermost_cases last
    · cases same
      exact .inl ⟨_, _, rfl, suffix⟩
    · exact .inl ⟨done, k, later _, suffix⟩
  case h_7 => cases h; exact .inl ⟨done, k, last, suffix⟩
  case h_8 =>
    cases h
    obtain ⟨-, same⟩ | ⟨-, later⟩ := outermost_cases last
    · cases same
    · exact .inl ⟨done, k, later _, suffix⟩
  case h_9 =>
    cases h
    obtain ⟨-, same⟩ | ⟨later, -⟩ := outermost_cases last
    · cases same
    · exact .inl ⟨done, k, later, suffix⟩
  case h_10 =>
    cases h
    obtain ⟨rfl, same⟩ | ⟨-, later⟩ := outermost_cases last
    · cases same
      exact .inl ⟨_, _, rfl, suffix.trans (List.suffix_cons _ _)⟩
    · exact .inl ⟨done, k, later _, suffix⟩
  case h_11 =>
    cases h
    obtain ⟨rfl, same⟩ | ⟨later, -⟩ := outermost_cases last
    · cases same
      obtain ⟨more, rfl⟩ := suffix
      exact .inr ⟨_, by rw [List.reverse_cons, List.reverse_append, List.append_assoc]⟩
    · exact .inl ⟨done, k, later, suffix⟩
  case h_12 => cases h

lemma keeps_of_run {ts : List Token} (keeps : Keeps first e) (h : run e ts = some e') :
    Keeps first e' := by
  induction ts generalizing e with
  | nil => exact Option.some.inj h ▸ keeps
  | cons t ts ih =>
    rw [run] at h
    cases stepped : e.step t with
    | none => rw [stepped] at h; cases h
    | some e'' =>
      rw [stepped] at h
      exact ih (keeps_of_step keeps stepped) h

end Keeps

end Expecting

/-- A text writes an object up to its last member; only the closing brace is missing. -/
def Opens (p : Octets) (members : List (Octets × Json)) : Prop :=
  ∃ ts done k v, Scans p ts ∧
    (Expecting.value []).run ts = some (.after v [.members done k]) ∧
    members = ((k, v) :: done).reverse

/-- A text writes members behind others. -/
def Adds (middle : Octets) (more : List (Octets × Json)) : Prop :=
  ∀ p members, Opens p members → Opens (p ++ middle) (members ++ more)

lemma adds_nil : Adds [] [] := fun p members opens => by
  rwa [List.append_nil, List.append_nil]

lemma Adds.append {a b : Octets} {more later : List (Octets × Json)} (first : Adds a more)
    (second : Adds b later) : Adds (a ++ b) (more ++ later) := fun p members opens => by
  rw [← List.append_assoc, ← List.append_assoc]
  exact second _ _ (first p members opens)

lemma adds_member {middle k : Octets} {v : Json} (plain : v.IsPlain) (breaks : Breaks middle)
    (scans : Scans middle (.comma :: .string k :: .colon :: tokens v)) : Adds middle [(k, v)] := by
  rintro p _ ⟨ts, done, k', v', first, before, rfl⟩
  refine ⟨_, (k', v') :: done, k, v, first.append scans breaks, ?_, by simp⟩
  rw [Expecting.run_append, before, Option.bind_some, Expecting.run_cons rfl,
    Expecting.run_cons rfl, Expecting.run_cons rfl]
  simpa [Expecting.run] using Expecting.run_tokens plain [.members ((k', v') :: done) k] []

theorem exists_opens {o : Octets} {members : List (Octets × Json)} (some' : members ≠ [])
    (h : parse? o = some (.object members)) :
    ∃ p q r, o = p ++ (q ++ 125 :: r) ∧ EndsSolid p ∧ (∀ b ∈ q, isSpace b = true) ∧
      (∀ b ∈ r, isSpace b = true) ∧ Opens p members := by
  obtain ⟨ts, scanned, read⟩ := Option.bind_eq_some_iff.1 h
  obtain ⟨e, ran, complete⟩ := Option.bind_eq_some_iff.1 read
  have isObject : e = .after (.object members) [] := by
    unfold Expecting.result? at complete
    split at complete
    · cases complete; rfl
    · cases complete
  rw [isObject] at ran
  have other : Expecting.value [] ≠ .after (.object members) [] := nofun
  obtain ⟨us, done, k, v, rfl, before, same⟩ := Expecting.eq_of_run_object some' other ran
  obtain ⟨p, tail, rfl, solid, first, last⟩ := (scan_eq_some_iff.1 scanned).split
  obtain ⟨q, r, rfl, blank, blank'⟩ := scans_closeBrace last
  exact ⟨p, q, r, rfl, solid, blank, blank', us, done, k, v, first, before, same⟩

namespace Opens

variable {p : Octets} {members : List (Octets × Json)}

lemma parse?_close (opens : Opens p members) {q r : Octets} (blank : ∀ b ∈ q, isSpace b = true)
    (blank' : ∀ b ∈ r, isSpace b = true) :
    parse? (p ++ (q ++ 125 :: r)) = some (.object members) := by
  obtain ⟨ts, done, k, v, first, before, rfl⟩ := opens
  have last : Scans (q ++ 125 :: r) [.closeBrace] := by
    have behind : Scans r [] := by
      simpa using scans_after_blanks blank' .nil
    exact scans_after_blanks blank (scans_mark rfl (by decide) behind)
  have breaks : Breaks (q ++ 125 :: r) := by
    cases q with
    | nil => exact breaks_cons (by decide) _
    | cons b q => exact breaks_cons (breaks_of_isSpace (blank b List.mem_cons_self)) _
  rw [parse?, scan_eq_some_iff.2 (first.append last breaks), Option.bind_some, ofTokens?,
    Expecting.run_append, before, Option.bind_some]
  rfl

/-- Whatever is written behind the last member, if a document comes of it, it is an object that
begins with these members. -/
theorem exists_more (opens : Opens p members) {rest : Octets} (breaks : Breaks rest) {doc : Json}
    (h : parse? (p ++ rest) = some doc) : ∃ more, doc = .object (members ++ more) := by
  obtain ⟨ts, done, k, v, first, before, rfl⟩ := opens
  obtain ⟨us, scanned, read⟩ := Option.bind_eq_some_iff.1 h
  obtain ⟨e, ran, complete⟩ := Option.bind_eq_some_iff.1 read
  obtain ⟨vs, rfl, -⟩ := first.of_append breaks (scan_eq_some_iff.1 scanned)
  rw [Expecting.run_append, before, Option.bind_some] at ran
  have keeps : e.Keeps ((k, v) :: done) := by
    cases vs with
    | nil => cases ran; cases complete
    | cons t vs =>
      -- the word behind the member is a comma or the closing brace
      have next (e' : Expecting) (step : (Expecting.after v [.members done k]).step t = some e') :
          e'.Keeps ((k, v) :: done) := by
        cases t <;> cases step
        case closeBrace => exact .inr ⟨[], by rw [List.append_nil]⟩
        case comma => exact .inl ⟨_, _, rfl, List.suffix_refl _⟩
      rw [Expecting.run] at ran
      cases step : (Expecting.after v [.members done k]).step t with
      | none => rw [step] at ran; cases ran
      | some e' =>
        rw [step] at ran
        exact Expecting.keeps_of_run (next e' step) ran
  obtain ⟨_, _, last, -⟩ | ⟨more, rfl⟩ := keeps
  · unfold Expecting.result? at complete
    split at complete
    · cases last
    · cases complete
  · exact ⟨more, (Option.some.inj complete).symm⟩

end Opens

end ImageRegistry.Json
