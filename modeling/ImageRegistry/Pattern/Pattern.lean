import ImageRegistry.Pattern.CharSet

/-! Patterns of text, and where they match. A pattern is followed from all places at once that
it can have reached; it matches a text if it can be followed from anywhere in it. -/

namespace ImageRegistry

/-- What can be asked about a place in a text. -/
inductive Place where
  | textStart
  | textEnd
  | lineStart
  | lineEnd
  /-- The start of a line, where a carriage return ends lines too. -/
  | returnLineStart
  /-- The end of a line, where a carriage return ends lines too. -/
  | returnLineEnd
  /-- Exactly one of the neighbours is a word character. -/
  | wordBoundary
  | noWordBoundary
  | wordStart
  | wordEnd
  /-- There is no word character before. -/
  | wordStartHalf
  /-- There is no word character after. -/
  | wordEndHalf
  deriving DecidableEq, Repr

/-- A pattern. -/
inductive Pattern where
  | empty
  | char (set : CharSet)
  /-- A place; the word characters may be those of ASCII only. -/
  | place (what : Place) (asciiWords : Bool)
  | seq (p q : Pattern)
  | alt (p q : Pattern)
  /-- Between `least` and `most` times, or without a limit. -/
  | times (p : Pattern) (least : Nat) (most : Option Nat)
  deriving Repr

/-- Whether a place lies between these neighbours. -/
def Place.holds (what : Place) (asciiWords : Bool) (before after : Option Char) : Bool :=
  let isWord (c : Char) : Bool :=
    if asciiWords then c.isAlphanum || c == '_' else isWordChar c
  let wordBefore := before.any isWord
  let wordAfter := after.any isWord
  match what with
  | .textStart => before.isNone
  | .textEnd => after.isNone
  | .lineStart => before.isNone || before == some '\n'
  | .lineEnd => after.isNone || after == some '\n'
  | .returnLineStart =>
    before.isNone || before == some '\n' || (before == some '\r' && after != some '\n')
  | .returnLineEnd =>
    after.isNone || after == some '\r' || (after == some '\n' && before != some '\r')
  | .wordBoundary => wordBefore != wordAfter
  | .noWordBoundary => wordBefore == wordAfter
  | .wordStart => !wordBefore && wordAfter
  | .wordEnd => wordBefore && !wordAfter
  | .wordStartHalf => !wordBefore
  | .wordEndHalf => !wordAfter

namespace Pattern

def charBefore (text : Array Char) (i : Nat) : Option Char :=
  if i = 0 then none else text[i - 1]?

/-- The members of two lists of indices, each once. -/
def merge (is js : List Nat) : List Nat := is ++ js.filter fun j => !is.contains j

/-- Follows a step from the indices that were reached last, as often as allowed, and keeps all
indices on the way. -/
def follow (step : List Nat → List Nat) : Nat → (reached last : List Nat) → List Nat
  | 0, reached, _ => reached
  | n + 1, reached, last =>
    let new := (step last).filter fun i => !reached.contains i
    if new.isEmpty then reached else follow step n (reached ++ new) new

/-- Follows a step from some indices a number of times. -/
def repeated (step : List Nat → List Nat) : Nat → List Nat → List Nat
  | 0, is => is
  | n + 1, is => if is.isEmpty then [] else repeated step n (step is)

/-- The indices at which a pattern can end when it begins at one of some indices. -/
def ends (text : Array Char) : Pattern → List Nat → List Nat
  | empty, is => is
  | char set, is => is.filterMap fun i => if text[i]?.any set.contains then some (i + 1) else none
  | place what asciiWords, is =>
    is.filter fun i => what.holds asciiWords (charBefore text i) text[i]?
  | seq p q, is => q.ends text (p.ends text is)
  | alt p q, is => merge (p.ends text is) (q.ends text is)
  | times p least most, is =>
    let reached := repeated (p.ends text) least is
    let limit := most.elim (text.size + 1) fun most => min (most - least) (text.size + 1)
    follow (p.ends text) limit reached reached

def occursIn (p : Pattern) (s : String) : Bool :=
  let text := s.toList.toArray
  !(p.ends text (List.range (text.size + 1))).isEmpty

end Pattern
end ImageRegistry
