import ImageRegistry.Json.Value
import ImageRegistry.Text.Hex

/-! The words of a JSON text. Scanning passes over blanks between words and undoes the escapes
inside strings. -/

namespace ImageRegistry.Json

/-- A word of a JSON text. -/
inductive Token where
  | openBrace
  | closeBrace
  | openBracket
  | closeBracket
  | colon
  | comma
  | null
  | bool (value : Bool)
  | number (value : Number)
  | string (octets : Octets)
  deriving DecidableEq, Repr

namespace Token

/-- The octets that may stand between words. -/
def isSpace (b : UInt8) : Bool := b == 32 || b == 9 || b == 10 || b == 13

def isDigit (b : UInt8) : Bool := 48 ≤ b && b ≤ 57

/-- The number that decimal digits write. -/
def digitsValue (ds : Octets) : Nat := ds.foldl (fun n b => n * 10 + (b.toNat - 48)) 0

/-- The number that four hexadecimal digits write. -/
def hexValue? (a b c d : UInt8) : Option Nat := do
  let a ← Hex.digitValue? a
  let b ← Hex.digitValue? b
  let c ← Hex.digitValue? c
  let d ← Hex.digitValue? d
  some (((a * 16 + b) * 16 + c) * 16 + d)

/-- The octets of a code point. The halves of a surrogate pair get octets too, though no text
has them. -/
def codePointOctets (n : Nat) : Octets :=
  if n < 0x80 then [UInt8.ofNat n]
  else if n < 0x800 then [UInt8.ofNat (0xC0 + n / 64), UInt8.ofNat (0x80 + n % 64)]
  else if n < 0x10000 then
    [UInt8.ofNat (0xE0 + n / 4096), UInt8.ofNat (0x80 + n / 64 % 64), UInt8.ofNat (0x80 + n % 64)]
  else
    [UInt8.ofNat (0xF0 + n / 262144), UInt8.ofNat (0x80 + n / 4096 % 64),
      UInt8.ofNat (0x80 + n / 64 % 64), UInt8.ofNat (0x80 + n % 64)]

/-- The second half of a surrogate pair, if an escape for it stands here. -/
def lowSurrogate? : Octets → Option (Nat × Octets)
  | backslash :: letter :: a :: b :: c :: d :: rest =>
    if backslash = 92 ∧ letter = 117 then
      match hexValue? a b c d with
      | some n => if 0xDC00 ≤ n ∧ n ≤ 0xDFFF then some (n, rest) else none
      | none => none
    else none
  | _ => none

def letterEscape? (b : UInt8) : Option UInt8 :=
  if b = 34 ∨ b = 92 ∨ b = 47 then some b
  else if b = 98 then some 8
  else if b = 102 then some 12
  else if b = 110 then some 10
  else if b = 114 then some 13
  else if b = 116 then some 9
  else none

/-- What four hexadecimal digits stand for, together with the escape for the second half of a
surrogate pair if they are the first half. -/
def codeEscape? : Octets → Option (Octets × Octets)
  | a :: b :: c :: d :: rest =>
    match hexValue? a b c d with
    | none => none
    | some n =>
      if 0xD800 ≤ n ∧ n ≤ 0xDBFF then
        match lowSurrogate? rest with
        | some (low, rest) =>
          some (codePointOctets (0x10000 + (n - 0xD800) * 1024 + (low - 0xDC00)), rest)
        | none => some (codePointOctets n, rest)
      else some (codePointOctets n, rest)
  | _ => none

/-- What an escape stands for, read after its backslash. -/
def escape? : Octets → Option (Octets × Octets)
  | [] => none
  | b :: rest =>
    if b = 117 then codeEscape? rest else (letterEscape? b).map fun o => ([o], rest)

theorem length_lowSurrogate?_lt {o rest : Octets} {n : Nat}
    (h : lowSurrogate? o = some (n, rest)) : rest.length < o.length := by
  unfold lowSurrogate? at h
  split at h
  · split at h
    · split at h
      · split at h
        · cases h; simp only [List.length_cons]; omega
        · cases h
      · cases h
    · cases h
  · cases h

theorem length_codeEscape?_lt {o octets rest : Octets}
    (h : codeEscape? o = some (octets, rest)) : rest.length < o.length := by
  unfold codeEscape? at h
  split at h
  · split at h
    · cases h
    · split at h
      · split at h
        case h_1 found =>
          have := length_lowSurrogate?_lt found
          simp only [Option.some.injEq, Prod.mk.injEq] at h
          simp only [← h.2, List.length_cons]; omega
        case h_2 =>
          simp only [Option.some.injEq, Prod.mk.injEq] at h
          simp only [← h.2, List.length_cons]; omega
      · simp only [Option.some.injEq, Prod.mk.injEq] at h
        simp only [← h.2, List.length_cons]; omega
  · cases h

theorem length_escape?_lt {o octets rest : Octets} (h : escape? o = some (octets, rest)) :
    rest.length < o.length := by
  cases o with
  | nil => cases h
  | cons b tail =>
    simp only [escape?] at h
    split at h
    · exact Nat.lt_succ_of_lt (length_codeEscape?_lt h)
    · obtain ⟨c, _, h⟩ := Option.map_eq_some_iff.1 h
      cases h
      simp

/-- The rest of a string after its opening quote, with the octets that were read before it. -/
def scanString : Octets → Octets → Option (Octets × Octets)
  | [], _ => none
  | b :: rest, read =>
    if b = 34 then some (read.reverse, rest)
    else if b = 92 then
      match h : escape? rest with
      | none => none
      | some (octets, tail) =>
        have : tail.length < rest.length + 1 := Nat.lt_succ_of_lt (length_escape?_lt h)
        scanString tail (octets.reverse ++ read)
    else if b < 32 then none
    else scanString rest (b :: read)
termination_by o => o.length

theorem length_scanString_lt {o read octets rest : Octets}
    (h : scanString o read = some (octets, rest)) : rest.length < o.length := by
  fun_induction scanString o read with
  | case1 => cases h
  | case2 => cases h; simp
  | case3 => cases h
  | case4 _ _ _ _ _ _ _ ih => have := ih h; simp only [List.length_cons]; omega
  | case5 => cases h
  | case6 _ _ _ _ _ _ ih => have := ih h; simp only [List.length_cons]; omega

/-- The digits after a point, if a point stands here. -/
def scanFraction? : Octets → Option (Option (List Nat) × Octets)
  | 46 :: rest =>
    match rest.takeWhile isDigit with
    | [] => none
    | ds => some (some (ds.map fun b => b.toNat - 48), rest.dropWhile isDigit)
  | rest => some (none, rest)

/-- The value of an exponent after its letter and its sign. -/
def scanExponentDigits? (negative : Bool) (o : Octets) : Option (Option Int × Octets) :=
  match o.takeWhile isDigit with
  | [] => none
  | ds =>
    let n : Int := digitsValue ds
    some (some (if negative then -n else n), o.dropWhile isDigit)

/-- The exponent, if the letter of one stands here. -/
def scanExponent? : Octets → Option (Option Int × Octets)
  | b :: rest =>
    if b = 101 ∨ b = 69 then
      match rest with
      | 43 :: rest => scanExponentDigits? false rest
      | 45 :: rest => scanExponentDigits? true rest
      | rest => scanExponentDigits? false rest
    else some (none, b :: rest)
  | [] => some (none, [])

/-- The digits before a point: a zero alone, or digits that begin with another one. -/
def scanWhole? : Octets → Option (Nat × Octets)
  | 48 :: rest => some (0, rest)
  | o =>
    match o.takeWhile isDigit with
    | [] => none
    | ds => some (digitsValue ds, o.dropWhile isDigit)

/-- A number without its minus sign. -/
def scanNumber? (negative : Bool) (o : Octets) : Option (Number × Octets) := do
  let (whole, o) ← scanWhole? o
  let (fraction, o) ← scanFraction? o
  let (exponent, o) ← scanExponent? o
  some (⟨negative, whole, fraction, exponent⟩, o)

def punctuation? (b : UInt8) : Option Token :=
  if b = 123 then some openBrace
  else if b = 125 then some closeBrace
  else if b = 91 then some openBracket
  else if b = 93 then some closeBracket
  else if b = 58 then some colon
  else if b = 44 then some comma
  else none

/-- The word that begins with the octet `b`, and what follows it. -/
def scanOne? (b : UInt8) (rest : Octets) : Option (Token × Octets) :=
  match punctuation? b with
  | some t => some (t, rest)
  | none =>
    if b = 34 then (scanString rest []).map fun r => (string r.1, r.2)
    else if b = 110 then ((Octets.ofText "ull").isPrefixOf? rest).map (null, ·)
    else if b = 116 then ((Octets.ofText "rue").isPrefixOf? rest).map (bool true, ·)
    else if b = 102 then ((Octets.ofText "alse").isPrefixOf? rest).map (bool false, ·)
    else if b = 45 then (scanNumber? true rest).map fun r => (number r.1, r.2)
    else (scanNumber? false (b :: rest)).map fun r => (number r.1, r.2)

theorem length_isPrefixOf?_le {xs o rest : Octets} (h : xs.isPrefixOf? o = some rest) :
    rest.length ≤ o.length := by
  induction xs generalizing o with
  | nil => cases h; exact Nat.le_refl _
  | cons x xs ih =>
    cases o with
    | nil => cases h
    | cons b o =>
      change (if x == b then xs.isPrefixOf? o else none) = some rest at h
      split at h
      · exact Nat.le_succ_of_le (ih h)
      · cases h

theorem length_scanWhole?_lt {o rest : Octets} {n : Nat} (h : scanWhole? o = some (n, rest)) :
    rest.length < o.length := by
  unfold scanWhole? at h
  split at h
  · cases h; simp
  · have := congrArg List.length (List.takeWhile_append_dropWhile (p := isDigit) (l := o))
    split at h
    · cases h
    · next nonempty =>
      cases h
      rw [List.length_append] at this
      have : (o.takeWhile isDigit).length ≠ 0 := fun h => nonempty (List.length_eq_zero_iff.1 h)
      omega

theorem length_scanFraction?_le {o rest : Octets} {f : Option (List Nat)}
    (h : scanFraction? o = some (f, rest)) : rest.length ≤ o.length := by
  unfold scanFraction? at h
  split at h
  · split at h
    · cases h
    · cases h
      exact Nat.le_succ_of_le ((List.dropWhile_sublist _).length_le)
  · cases h; exact Nat.le_refl _

theorem length_scanExponentDigits?_le {o rest : Octets} {negative : Bool} {e : Option Int}
    (h : scanExponentDigits? negative o = some (e, rest)) : rest.length ≤ o.length := by
  unfold scanExponentDigits? at h
  split at h
  · cases h
  · cases h
    exact (List.dropWhile_sublist _).length_le

theorem length_scanExponent?_le {o rest : Octets} {e : Option Int}
    (h : scanExponent? o = some (e, rest)) : rest.length ≤ o.length := by
  unfold scanExponent? at h
  split at h
  · split at h
    · split at h
      all_goals
        have := length_scanExponentDigits?_le h
        simp only [List.length_cons]
        omega
    · cases h; exact Nat.le_refl _
  · cases h; exact Nat.le_refl _

theorem length_scanNumber?_lt {o rest : Octets} {negative : Bool} {n : Number}
    (h : scanNumber? negative o = some (n, rest)) : rest.length < o.length := by
  simp only [scanNumber?, Option.bind_eq_bind, Option.bind_eq_some_iff, Prod.exists] at h
  obtain ⟨_, _, h₁, _, _, h₂, _, _, h₃, h⟩ := h
  cases h
  have := length_scanWhole?_lt h₁
  have := length_scanFraction?_le h₂
  have := length_scanExponent?_le h₃
  omega

theorem length_scanOne?_le {b : UInt8} {rest tail : Octets} {t : Token}
    (h : scanOne? b rest = some (t, tail)) : tail.length ≤ rest.length := by
  unfold scanOne? at h
  split at h
  · cases h; exact Nat.le_refl _
  · repeat' split at h
    all_goals
      obtain ⟨r, hr, h⟩ := Option.map_eq_some_iff.1 h
      cases h
    · exact Nat.le_of_lt (length_scanString_lt hr)
    · exact length_isPrefixOf?_le hr
    · exact length_isPrefixOf?_le hr
    · exact length_isPrefixOf?_le hr
    · exact Nat.le_of_lt (length_scanNumber?_lt hr)
    · exact Nat.le_of_lt_succ (length_scanNumber?_lt hr)

/-- The words of a text after those already read. -/
def scanFrom : Octets → List Token → Option (List Token)
  | [], read => some read.reverse
  | b :: rest, read =>
    if isSpace b then scanFrom rest read
    else
      match h : scanOne? b rest with
      | none => none
      | some (t, tail) =>
        have : tail.length < rest.length + 1 := Nat.lt_succ_of_le (length_scanOne?_le h)
        scanFrom tail (t :: read)
termination_by o => o.length

def scan (o : Octets) : Option (List Token) := scanFrom o []

end Token
end ImageRegistry.Json
