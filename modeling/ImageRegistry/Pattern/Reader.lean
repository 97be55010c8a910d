import ImageRegistry.Pattern.ClassReader

/-! Reading patterns. The text is read from left to right; groups that are open wait on a
stack. -/

namespace ImageRegistry.Pattern

/-- What was read of a group. -/
structure Frame where
  /-- The flags that hold again after the group. -/
  outer : Flags
  /-- The alternatives before the last bar. -/
  alternatives : List Pattern := []
  /-- What was read after it, the last first; nothing stands where flags were set. -/
  items : List (Option Pattern) := []

namespace Frame

def sequence (f : Frame) : Pattern :=
  match f.items.reverse.filterMap id with
  | [] => .empty
  | p :: ps => ps.foldl .seq p

def pattern (f : Frame) : Pattern := f.alternatives.foldl (fun p q => .alt q p) f.sequence

def push (f : Frame) (p : Option Pattern) : Frame := { f with items := p :: f.items }

def bar (f : Frame) : Frame :=
  { f with alternatives := f.sequence :: f.alternatives, items := [] }

def repeatLast (f : Frame) (least : Nat) (most : Option Nat) : Except PatternFault Frame :=
  match f.items with
  | some p :: rest => .ok { f with items := some (.times p least most) :: rest }
  | _ => .error .nothingToRepeat

end Frame

/-- What was read of a pattern. -/
structure State where
  flags : Flags := {}
  frame : Frame := { outer := {} }
  /-- The groups around the open one. -/
  around : List Frame := []
  /-- The names of groups. -/
  names : List String := []

/-- How deep groups may be nested. -/
def maxDepth : Nat := 250

/-- How many steps a pattern may stand for. -/
def maxWeight : Nat := 400000

/-- The number of steps that a pattern stands for. -/
def weight : Pattern → Nat
  | empty | place _ _ => 0
  | char set => set.weight
  | seq p q | alt p q => p.weight + q.weight
  | times p least most => p.weight * max 1 (max least (most.getD 1))

namespace State

def push (st : State) (p : Option Pattern) : State := { st with frame := st.frame.push p }

def openGroup (st : State) (flags : Flags) : Except PatternFault State :=
  if maxDepth ≤ st.around.length then .error .tooDeep
  else .ok { st with flags, frame := { outer := st.flags }, around := st.frame :: st.around }

def closeGroup (st : State) : Except PatternFault State :=
  match st.around with
  | [] => .error .unopenedGroup
  | f :: around =>
    .ok { st with flags := st.frame.outer, frame := f.push (some st.frame.pattern), around }

def finish (st : State) : Except PatternFault Pattern :=
  if !st.around.isEmpty then .error .unclosedGroup
  else if maxWeight < st.frame.pattern.weight then .error .tooLarge
  else .ok st.frame.pattern

end State

def setFlag? (flags : Flags) (c : Char) (value : Bool) : Option Flags :=
  match c with
  | 'i' => some { flags with ignoreCase := value }
  | 'm' => some { flags with multiLine := value }
  | 's' => some { flags with dotAll := value }
  | 'x' => some { flags with verbose := value }
  | 'u' => some { flags with ascii := !value }
  | 'U' => some { flags with swapGreed := value }
  | 'R' => some { flags with carriageReturns := value }
  | _ => none

/-- Reads flags up to the colon or the parenthesis that ends them. Each may stand once, those
after a hyphen are cleared, and a hyphen needs a flag after it. -/
def readFlags (flags : Flags) (value : Bool) (seen : List Char) :
    List Char → Except PatternFault (Flags × List Char)
  | [] => .error .badFlags
  | c :: rest =>
    if c = ':' ∨ c = ')' then
      if seen.head? = some '-' then .error .badFlags else .ok (flags, c :: rest)
    else if seen.contains c then .error .badFlags
    else if c = '-' then readFlags flags false ('-' :: seen) rest
    else
      match setFlag? flags c value with
      | some flags => readFlags flags value (c :: seen) rest
      | none => .error .badFlags

def isGroupName (cs : List Char) : Bool :=
  match cs with
  | [] => false
  | c :: rest =>
    (isWordChar c && !isDecimalDigit c) &&
      rest.all fun c => isWordChar c || c == '.' || c == '[' || c == ']'

/-- Reads the name of a group, after the angle bracket. -/
def readName (st : State) (cs : List Char) : Except PatternFault (State × List Char) :=
  let name := cs.takeWhile (· != '>')
  match cs.dropWhile (· != '>') with
  | _ :: rest =>
    if isGroupName name && !st.names.contains (String.ofList name) then do
      let st ← { st with names := String.ofList name :: st.names }.openGroup st.flags
      return (st, rest)
    else .error .badGroupName
  | [] => .error .badGroupName

/-- Reads the start of a group, or flags, after the parenthesis. -/
def readGroup (st : State) (cs : List Char) : Except PatternFault (State × List Char) :=
  match cs with
  | '?' :: '=' :: _ | '?' :: '!' :: _ | '?' :: '<' :: '=' :: _ | '?' :: '<' :: '!' :: _ =>
    .error .lookAround
  | '?' :: 'P' :: '<' :: rest | '?' :: '<' :: rest => readName st rest
  | '?' :: rest => do
    let (flags, after) ← readFlags st.flags true [] rest
    match after with
    | ':' :: rest => return (← st.openGroup flags, rest)
    | _ :: after =>
      if rest.head? = some ')' then throw .nothingToRepeat
      else return ({ st with flags }.push none, after)
    | [] => throw .badFlags
  | rest => do return (← st.openGroup st.flags, rest)

/-- Reads a decimal number among blanks. -/
def readCount (cs : List Char) : Except PatternFault (Nat × List Char) :=
  let cs := cs.dropWhile isBlank
  let digits := cs.takeWhile Char.isDigit
  let n := digits.foldl (fun n c => n * 10 + (c.toNat - 48)) 0
  if digits.isEmpty || UInt32.size ≤ n then .error .badCount
  else .ok (n, (cs.dropWhile Char.isDigit).dropWhile isBlank)

def readCounts (flags : Flags) (cs : List Char) :
    Except PatternFault (Nat × Option Nat × List Char) := do
  let (least, rest) ← readCount (skipIdle flags cs)
  match skipIdle flags rest with
  | '\x7d' :: rest => return (least, some least, rest)
  | ',' :: rest =>
    match skipIdle flags rest with
    | '\x7d' :: rest => return (least, none, rest)
    | rest =>
      let (most, rest) ← readCount rest
      match skipIdle flags rest with
      | '\x7d' :: rest => if most < least then throw .badCount else return (least, some most, rest)
      | _ => throw .badCount
  | _ => throw .badCount

/-- What follows the mark of a repetition that need not be greedy. -/
def dropLazyMark (flags : Flags) (cs : List Char) : List Char :=
  match skipIdle flags cs with
  | '?' :: rest => rest
  | _ => cs

def lineBreaks (flags : Flags) : CharSet :=
  if flags.dotAll then .empty
  else if flags.carriageReturns then .ofRanges [('\n', '\n'), ('\r', '\r')]
  else .single '\n'

def startPlace (flags : Flags) : Place :=
  if !flags.multiLine then .textStart
  else if flags.carriageReturns then .returnLineStart
  else .lineStart

/-- The place that a dollar sign stands for. -/
def endPlace (flags : Flags) : Place :=
  if !flags.multiLine then .textEnd
  else if flags.carriageReturns then .returnLineEnd
  else .lineEnd

def repeatLast (st : State) (least : Nat) (most : Option Nat) : Except PatternFault State := do
  return { st with frame := ← st.frame.repeatLast least most }

def readPiece (st : State) (c : Char) (rest : List Char) :
    Except PatternFault (State × List Char) :=
  let repeated (least : Nat) (most : Option Nat) : Except PatternFault (State × List Char) := do
    return (← repeatLast st least most, dropLazyMark st.flags rest)
  let place (what : Place) : Pattern := .place what st.flags.ascii
  match c with
  | '(' => readGroup st rest
  | ')' => do return (← st.closeGroup, rest)
  | '|' => .ok ({ st with frame := st.frame.bar }, rest)
  | '*' => repeated 0 none
  | '+' => repeated 1 none
  | '?' => repeated 0 (some 1)
  | '\x7b' => do
    let _ ← repeatLast st 0 none
    let (least, most, rest) ← readCounts st.flags rest
    return (← repeatLast st least most, dropLazyMark st.flags rest)
  | '[' => do
    let (s, rest) ← readClass st.flags (2 * rest.length + 2) rest
    return (st.push (some (.char s)), rest)
  | '.' => do return (st.push (some (.char (← complement st.flags (lineBreaks st.flags)))), rest)
  | '^' => .ok (st.push (some (place (startPlace st.flags))), rest)
  | '$' => .ok (st.push (some (place (endPlace st.flags))), rest)
  | '\\' => do
    match ← readEscape st.flags rest with
    | (.literal c, rest) => return (st.push (some (.char (folded st.flags (.single c)))), rest)
    | (.set s, rest) => return (st.push (some (.char s)), rest)
    | (.place what, rest) => return (st.push (some (place what)), rest)
  | c => .ok (st.push (some (.char (folded st.flags (.single c)))), rest)

/-- Reads the rest of a pattern. Each piece is at least one character long. -/
def readRest : Nat → State → List Char → Except PatternFault Pattern
  | 0, _, _ => .error .tooLarge
  | fuel + 1, st, cs =>
    match skipIdle st.flags cs with
    | [] => st.finish
    | c :: rest => do
      let (st, rest) ← readPiece st c rest
      readRest fuel st rest

def read (s : String) : Except PatternFault Pattern :=
  readRest (s.toList.length + 1) {} s.toList

end ImageRegistry.Pattern
