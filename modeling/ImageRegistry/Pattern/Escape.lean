import ImageRegistry.Pattern.Pattern
import ImageRegistry.Pattern.PatternFault
import ImageRegistry.Text.Hex

/-! Escapes in patterns: what follows a backslash. -/

namespace ImageRegistry.Pattern

/-- How the text of a pattern is read. -/
structure Flags where
  ignoreCase : Bool := false
  multiLine : Bool := false
  dotAll : Bool := false
  /-- Whether blanks do not count, and comments may stand. -/
  verbose : Bool := false
  /-- Whether classes are those of ASCII. -/
  ascii : Bool := false
  swapGreed : Bool := false
  /-- Whether carriage returns end lines too. -/
  carriageReturns : Bool := false
  deriving DecidableEq, Repr

/-- What an escape stands for. -/
inductive Escape where
  | literal (c : Char)
  | set (s : CharSet)
  | place (what : Place)

def asciiWord : CharSet := .ofRanges [('0', '9'), ('A', 'Z'), ('_', '_'), ('a', 'z')]

def asciiBlank : CharSet := .ofRanges [('\t', '\r'), (' ', ' ')]

def wordSet (flags : Flags) : CharSet := if flags.ascii then asciiWord else .word

def digitSet (flags : Flags) : CharSet := if flags.ascii then .range '0' '9' else .digit

def blankSet (flags : Flags) : CharSet := if flags.ascii then asciiBlank else .blank

def letterSet : CharSet := .minus (.minus .word .digit) (.single '_')

def propertySet? (name : String) : Option CharSet :=
  match name with
  | "L" | "Letter" | "Alphabetic" | "alpha" => some letterSet
  | "N" | "Nd" | "Number" | "Decimal_Number" => some .digit
  | "White_Space" | "space" => some .blank
  | "Any" => some (.complement .empty)
  | "ASCII" => some .ascii
  | "Lu" | "Uppercase_Letter" | "Uppercase" =>
    some (.ofRanges [('A', 'Z'), ('À', 'Ö'), ('Ø', 'Þ'), ('Α', 'Ρ'), ('Σ', 'Ϋ'), ('Ѐ', 'Я')])
  | "Ll" | "Lowercase_Letter" | "Lowercase" =>
    some (.ofRanges [('a', 'z'), ('ß', 'ö'), ('ø', 'ÿ'), ('α', 'ω'), ('а', 'џ')])
  | _ => none

/-- The characters that pattern syntax gives a meaning, or may give one: they stand for
themselves after a backslash. -/
def isEscapable (c : Char) : Bool := c.toNat < 128 && !c.isAlphanum && c != '<' && c != '>'

def hexNumber? (cs : List Char) : Option Nat :=
  if cs.isEmpty then none
  else
    cs.foldlM (fun n c => do
      if c.toNat < 128 then return n * 16 + (← Hex.digitValue? (UInt8.ofNat c.toNat))
      else none) 0

def charOfPoint? (n : Nat) : Option Char := if n.isValidChar then some (Char.ofNat n) else none

/-- Reads a code point of some digits, or of any number of digits in braces. -/
def readPoint (digits : Nat) (cs : List Char) : Except PatternFault (Char × List Char) :=
  let (spelled, rest) :=
    match cs with
    | '\x7b' :: inner =>
      (inner.takeWhile (· != '\x7d'), (inner.dropWhile (· != '\x7d')).tail?)
    | cs => (cs.take digits, if cs.length < digits then none else some (cs.drop digits))
  match (hexNumber? spelled).bind charOfPoint?, rest with
  | some c, some rest => .ok (c, rest)
  | _, _ => .error .badEscape

/-- Reads a code point of two digits, or in braces. Two digits stand for an octet where classes
are those of ASCII, and only the lower half of the octets are characters. -/
def readOctet (flags : Flags) (cs : List Char) : Except PatternFault (Char × List Char) := do
  let (c, rest) ← readPoint 2 cs
  if flags.ascii && cs.head? != some '\x7b' && 128 ≤ c.toNat then throw .notText
  else return (c, rest)

/-- The complement of a set. Where classes are those of ASCII it has octets that are no text. -/
def complement (flags : Flags) (s : CharSet) : Except PatternFault CharSet :=
  if flags.ascii then .error .notText else .ok (.complement s)

def readProperty (flags : Flags) (negated : Bool) (cs : List Char) :
    Except PatternFault (Escape × List Char) :=
  let (name, rest) :=
    match cs with
    | '\x7b' :: inner =>
      (inner.takeWhile (· != '\x7d'), (inner.dropWhile (· != '\x7d')).tail?)
    | cs => (cs.take 1, cs.tail?)
  let (name, negated) :=
    match name with
    | '^' :: name => (name, !negated)
    | name => (name, negated)
  match (if flags.ascii then none else propertySet? (String.ofList name)), rest with
  | some s, some rest => .ok (.set (if negated then .complement s else s), rest)
  | _, _ => .error .badEscape

/-- Reads the kind of a word boundary, in braces after its letter. -/
def readBoundary (cs : List Char) : Except PatternFault (Escape × List Char) :=
  match cs with
  | '\x7b' :: c :: inner =>
    if c.isAlpha || c == '-' then
      let name := (c :: inner).takeWhile (· != '\x7d')
      let rest := ((c :: inner).dropWhile (· != '\x7d')).drop 1
      match String.ofList name with
      | "start" => .ok (.place .wordStart, rest)
      | "end" => .ok (.place .wordEnd, rest)
      | "start-half" => .ok (.place .wordStartHalf, rest)
      | "end-half" => .ok (.place .wordEndHalf, rest)
      | _ => .error .badEscape
    else .ok (.place .wordBoundary, cs)
  | cs => .ok (.place .wordBoundary, cs)

def readEscape (flags : Flags) : List Char → Except PatternFault (Escape × List Char)
  | [] => .error .badEscape
  | c :: rest =>
    let literal (n : Nat) : Except PatternFault (Escape × List Char) :=
      .ok (.literal (Char.ofNat n), rest)
    let set (s : CharSet) : Except PatternFault (Escape × List Char) := .ok (.set s, rest)
    let place (p : Place) : Except PatternFault (Escape × List Char) := .ok (.place p, rest)
    let outside (s : CharSet) : Except PatternFault (Escape × List Char) := do
      return (.set (← complement flags s), rest)
    let point (read : Except PatternFault (Char × List Char)) :
        Except PatternFault (Escape × List Char) := read.map fun (c, rest) => (.literal c, rest)
    if c.isDigit then .error .backReference
    else
      match c with
      | 'x' => point (readOctet flags rest)
      | 'u' => point (readPoint 4 rest)
      | 'U' => point (readPoint 8 rest)
      | 'p' => readProperty flags false rest
      | 'P' => readProperty flags true rest
      | 'd' => set (digitSet flags)
      | 'D' => outside (digitSet flags)
      | 's' => set (blankSet flags)
      | 'S' => outside (blankSet flags)
      | 'w' => set (wordSet flags)
      | 'W' => outside (wordSet flags)
      | 'a' => literal 7
      | 'f' => literal 12
      | 't' => literal 9
      | 'n' => literal 10
      | 'r' => literal 13
      | 'v' => literal 11
      | 'A' => place .textStart
      | 'z' => place .textEnd
      | 'b' => readBoundary rest
      | 'B' => place .noWordBoundary
      | '<' => place .wordStart
      | '>' => place .wordEnd
      | c => if isEscapable c then literal c.toNat else .error .badEscape

end ImageRegistry.Pattern
