import ImageRegistry.Pattern.Escape

/-! Character classes in brackets: unions of characters, ranges and classes inside, and the
intersections and differences of such unions. -/

namespace ImageRegistry.Pattern

def namedSet? (name : String) : Option CharSet :=
  match name with
  | "alnum" => some (.ofRanges [('0', '9'), ('A', 'Z'), ('a', 'z')])
  | "alpha" => some (.ofRanges [('A', 'Z'), ('a', 'z')])
  | "ascii" => some .ascii
  | "blank" => some (.ofRanges [('\t', '\t'), (' ', ' ')])
  | "cntrl" => some (.ofRanges [(Char.ofNat 0, Char.ofNat 31), (Char.ofNat 127, Char.ofNat 127)])
  | "digit" => some (.range '0' '9')
  | "graph" => some (.range '!' '~')
  | "lower" => some (.range 'a' 'z')
  | "print" => some (.range ' ' '~')
  | "punct" => some (.ofRanges [('!', '/'), (':', '@'), ('[', Char.ofNat 96), ('\x7b', '~')])
  | "space" => some asciiBlank
  | "upper" => some (.range 'A' 'Z')
  | "word" => some asciiWord
  | "xdigit" => some (.ofRanges [('0', '9'), ('A', 'F'), ('a', 'f')])
  | _ => none

/-- Reads a named set, of which the opening bracket was read, and whether its complement is
meant. -/
def readNamed? (cs : List Char) : Option (CharSet × Bool × List Char) :=
  match cs with
  | ':' :: rest =>
    let (rest, negated) := match rest with
      | '^' :: rest => (rest, true)
      | rest => (rest, false)
    match rest.dropWhile (· != ':') with
    | ':' :: ']' :: after =>
      (namedSet? (String.ofList (rest.takeWhile (· != ':')))).map fun s => (s, negated, after)
    | _ => none
  | _ => none

/-- How two unions are combined. -/
inductive SetOperation where
  | inter
  | minus
  | symmetricDifference
  deriving DecidableEq

def SetOperation.apply : SetOperation → CharSet → CharSet → CharSet
  | inter, s, t => .inter s t
  | minus, s, t => .minus s t
  | symmetricDifference, s, t => .symmetricDifference s t

/-- The set without regard to case, where case does not count. Where classes are those of ASCII,
only the case of its letters is disregarded. -/
def folded (flags : Flags) (s : CharSet) : CharSet :=
  if !flags.ignoreCase then s
  else if flags.ascii then .union s (.inter (.anyCase s) .ascii)
  else .anyCase s

def complementIf (flags : Flags) (negated : Bool) (s : CharSet) : Except PatternFault CharSet :=
  if negated then complement flags s else .ok s

/-- What was read of a class: the unions before the last operator, and the members after it. -/
structure ClassState where
  earlier : Option (CharSet × SetOperation) := none
  members : List CharSet := []

def ClassState.set (flags : Flags) (st : ClassState) : CharSet :=
  let last := folded flags (.unionAll st.members.reverse)
  match st.earlier with
  | none => last
  | some (s, op) => op.apply s last

def ClassState.add (st : ClassState) (s : CharSet) : ClassState :=
  { st with members := s :: st.members }

def ClassState.operator (flags : Flags) (st : ClassState) (op : SetOperation) : ClassState where
  earlier := some (st.set flags, op)

/-- What counts of some characters: without leading blanks and comments, where these do not
count. -/
def skipIdle (flags : Flags) (cs : List Char) : List Char :=
  if flags.verbose then go (cs.length + 1) cs else cs
where
  /-- Skips blanks and comments. -/
  go : Nat → List Char → List Char
    | 0, cs => cs
    | n + 1, cs =>
      match cs.dropWhile isBlank with
      | '#' :: rest => go n (rest.dropWhile (· != '\n'))
      | cs => cs

/-- Reads a character, or a set that an escape stands for. A class of octets has only
characters of ASCII. -/
def readMember (flags : Flags) (cs : List Char) : Except PatternFault (Escape × List Char) := do
  let (member, rest) ←
    match cs with
    | [] => throw .unclosedClass
    | '\\' :: rest => readEscape flags rest
    | c :: rest => pure (.literal c, rest)
  match member with
  | .literal c => if flags.ascii && 128 ≤ c.toNat then throw .notText else return (member, rest)
  | _ => return (member, rest)

/-- Whether a hyphen makes a range: it does not before a closing bracket or another hyphen. -/
def rangeEnd? (flags : Flags) (cs : List Char) : Option (List Char) :=
  match cs with
  | '-' :: rest =>
    match skipIdle flags rest with
    | ']' :: _ | '-' :: _ => none
    | rest => some rest
  | _ => none

def readRange (flags : Flags) (cs : List Char) : Except PatternFault (CharSet × List Char) := do
  let (first, rest) ← readMember flags cs
  match rangeEnd? flags (skipIdle flags rest) with
  | none =>
    match first with
    | .literal c => return (.single c, rest)
    | .set s => return (s, rest)
    | .place _ => throw .badClass
  | some rest =>
    let (last, rest) ← readMember flags rest
    match first, last with
    | .literal a, .literal b => if a ≤ b then return (.range a b, rest) else throw .badClass
    | _, _ => throw .badClass

mutual

def readClass (flags : Flags) : Nat → List Char → Except PatternFault (CharSet × List Char)
  | 0, _ => .error .unclosedClass
  | fuel + 1, cs => do
    let cs := skipIdle flags cs
    let (cs, negated) := match cs with
      | '^' :: rest => (skipIdle flags rest, true)
      | cs => (cs, false)
    let hyphens := cs.takeWhile (· == '-')
    let rest := skipIdle flags (cs.dropWhile (· == '-'))
    let st : ClassState := { members := hyphens.map CharSet.single }
    let (st, rest) := match hyphens, rest with
      | [], ']' :: rest => (st.add (.single ']'), rest)
      | _, rest => (st, rest)
    let (s, rest) ← readMembers flags fuel st rest
    return (← complementIf flags negated s, rest)

def readMembers (flags : Flags) :
    Nat → ClassState → List Char → Except PatternFault (CharSet × List Char)
  | 0, _, _ => .error .unclosedClass
  | fuel + 1, st, cs =>
    match skipIdle flags cs with
    | [] => .error .unclosedClass
    | ']' :: rest => .ok (st.set flags, rest)
    | '[' :: rest =>
      match readNamed? rest with
      | some (s, negated, rest) => do
        readMembers flags fuel (st.add (← complementIf flags negated s)) rest
      | none => do
        let (s, rest) ← readClass flags fuel rest
        readMembers flags fuel (st.add s) rest
    | '&' :: '&' :: rest => readMembers flags fuel (st.operator flags .inter) rest
    | '-' :: '-' :: rest => readMembers flags fuel (st.operator flags .minus) rest
    | '~' :: '~' :: rest =>
      readMembers flags fuel (st.operator flags .symmetricDifference) rest
    | cs => do
      let (s, rest) ← readRange flags cs
      readMembers flags fuel (st.add s) rest

end

end ImageRegistry.Pattern
