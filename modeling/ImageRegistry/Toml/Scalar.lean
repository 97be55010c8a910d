import ImageRegistry.Json.Value
import ImageRegistry.Text.Split
import ImageRegistry.Toml.Moment

/-! Values without quotes in configuration texts: truth values, numbers, dates and times. Dates
and times stand for their texts; what is no finite number stands for null. -/

namespace ImageRegistry.Toml.Scalar

/-- The digits of a base below sixteen, between which single underscores may stand. -/
def digits? (isDigit : Char → Bool) (cs : List Char) : Option (List Char) :=
  let groups := pieces '_' cs
  if groups.all fun group => !group.isEmpty && group.all isDigit then some groups.flatten
  else none

def digitValue (c : Char) : Nat :=
  if c.isDigit then c.toNat - 48 else c.toLower.toNat - 87

def number (base : Nat) (ds : List Char) : Nat :=
  ds.foldl (fun n c => n * base + digitValue c) 0

def splitSign (cs : List Char) : Bool × List Char :=
  match cs with
  | '-' :: rest => (true, rest)
  | '+' :: rest => (false, rest)
  | cs => (false, cs)

def integer? (negative : Bool) (n : Nat) : Option Json :=
  if n < 1 <<< 63 ∨ (negative ∧ n = 1 <<< 63) then
    some (.number ⟨negative && n != 0, n, none, none⟩)
  else none

/-- An integer of another base than ten. -/
def based? (base : Nat) (isDigit : Char → Bool) (cs : List Char) : Option Json := do
  integer? false (number base (← digits? isDigit cs))

/-- The digits before a point: a zero alone, or digits that begin with another one. -/
def whole? (cs : List Char) : Option Nat := do
  let ds ← digits? Char.isDigit cs
  if ds.head? = some '0' ∧ ds.length ≠ 1 then none else some (number 10 ds)

def exponent? (cs : List Char) : Option Int := do
  let (negative, cs) := splitSign cs
  let n : Int := number 10 (← digits? Char.isDigit cs)
  some (if negative then -n else n)

def fraction? (cs : List Char) : Option (List Nat) :=
  (digits? Char.isDigit cs).map fun ds => ds.map digitValue

def float? (n : Json.Number) : Option Json := if n.isFinite then some (.number n) else none

def decimal? (cs : List Char) : Option Json := do
  let (negative, cs) := splitSign cs
  let (mantissa, exponent) :=
    match splitFirst? 'e' (cs.map Char.toLower) with
    | some (before, after) => (before, some after)
    | none => (cs, none)
  match splitFirst? '.' mantissa, exponent with
  | none, none => integer? negative (← whole? mantissa)
  | none, some e => float? ⟨negative, ← whole? mantissa, none, some (← exponent? e)⟩
  | some (before, after), e =>
    float? ⟨negative, ← whole? before, some (← fraction? after), ← e.mapM exponent?⟩

def isHexDigit (c : Char) : Bool :=
  c.isDigit || ('a' ≤ c && c ≤ 'f') || ('A' ≤ c && c ≤ 'F')

/-- The value that characters without quotes are. -/
def read? (cs : List Char) : Option Json :=
  if cs = "true".toList then some (.bool true)
  else if cs = "false".toList then some (.bool false)
  else if ["inf".toList, "nan".toList].contains (splitSign cs).2 then some .null
  else
    match cs with
    | '0' :: 'x' :: rest => based? 16 isHexDigit rest
    | '0' :: 'o' :: rest => based? 8 (fun c => '0' ≤ c && c ≤ '7') rest
    | '0' :: 'b' :: rest => based? 2 (fun c => c = '0' || c = '1') rest
    | cs =>
      match Moment.text? cs with
      | some s => some (.text s)
      | none => decimal? cs

end ImageRegistry.Toml.Scalar
