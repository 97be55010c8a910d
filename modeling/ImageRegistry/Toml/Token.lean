import ImageRegistry.Text.Hex

/-! The words of a configuration text. They are scanned one character at a time; comments are
passed over, and quoted texts are one word each. -/

namespace ImageRegistry.Toml

/-- A word of a configuration text. -/
inductive Token where
  | dot
  | equals
  | comma
  | openBracket
  | closeBracket
  | openBrace
  | closeBrace
  | newline
  /-- Blanks and tabs. -/
  | blank (chars : List Char)
  /-- What a quoted text stands for, and whether its quotes may hold several lines. -/
  | text (content : String) (lines : Bool)
  /-- Characters without quotes: a key, a number, a date or the like. -/
  | atom (chars : List Char)
  deriving DecidableEq, Repr

/-- A quoted text that is being read. -/
structure Quoted where
  /-- The mark around it: a double one, or a single one, inside which nothing is escaped. -/
  mark : Char
  lines : Bool
  /-- What was read, backwards. -/
  read : List Char := []
  /-- How many marks were read last. -/
  marks : Nat := 0

/-- Where a scanner is. -/
inductive Mode where
  | between
  | comment
  /-- After the first mark of a quoted text. -/
  | oneMark (mark : Char)
  /-- After two marks: an empty text, or the start of one with several lines. -/
  | twoMarks (mark : Char)
  /-- At the start of a text with several lines, where a line end does not count. -/
  | firstLine (mark : Char)
  | inside (q : Quoted)
  /-- After a backslash. -/
  | escape (q : Quoted)
  /-- Inside the number of a character, of which some digits are left. -/
  | code (q : Quoted) (left value : Nat)
  /-- After a backslash at the end of a line: blanks and line ends do not count. -/
  | fold (q : Quoted) (ended : Bool)

/-- A scanner: the words that were read, backwards, and where it is. -/
structure Scanner where
  words : List Token := []
  mode : Mode := .between

namespace Scanner

def punctuation? (c : Char) : Option Token :=
  if c = '.' then some .dot
  else if c = '=' then some .equals
  else if c = ',' then some .comma
  else if c = '[' then some .openBracket
  else if c = ']' then some .closeBracket
  else if c = '\x7b' then some .openBrace
  else if c = '\x7d' then some .closeBrace
  else if c = '\n' then some .newline
  else none

/-- Whether a character may stand in a comment or between quotes. -/
def isPlain (c : Char) : Bool := c = '\t' || (32 ≤ c.toNat && c.toNat ≠ 127)

/-- Adds a character to a blank that was read last, or begins one. -/
def addBlank (c : Char) : List Token → List Token
  | .blank cs :: words => .blank (cs ++ [c]) :: words
  | words => .blank [c] :: words

/-- Adds a character to an atom that was read last, or begins one. -/
def addAtom (c : Char) : List Token → List Token
  | .atom cs :: words => .atom (cs ++ [c]) :: words
  | words => .atom [c] :: words

def stepBetween (words : List Token) (c : Char) : Scanner :=
  match punctuation? c with
  | some t => ⟨t :: words, .between⟩
  | none =>
    if c = '"' ∨ c = '\'' then ⟨words, .oneMark c⟩
    else if c = '#' then ⟨words, .comment⟩
    else if c = ' ' ∨ c = '\t' then ⟨addBlank c words, .between⟩
    else ⟨addAtom c words, .between⟩

/-- The word that a quoted text is after some closing marks, of which the last three count as
such. -/
def close (q : Quoted) (extra : Nat) : Token :=
  .text (String.ofList (List.replicate extra q.mark ++ q.read).reverse) q.lines

/-- Reads a character of a quoted text, no mark. -/
def stepPlain (words : List Token) (q : Quoted) (c : Char) : Option Scanner :=
  if c = '\\' ∧ q.mark = '"' then some ⟨words, .escape q⟩
  else if isPlain c || (c = '\n' && q.lines) then
    some ⟨words, .inside { q with read := c :: q.read }⟩
  else none

/-- Reads a character inside quotes. Of marks in a row inside several lines, one or two stand
for themselves, three to five end the text. -/
def stepInside (words : List Token) (q : Quoted) (c : Char) : Option Scanner :=
  if q.lines then
    if c = q.mark then
      if q.marks < 5 then some ⟨words, .inside { q with marks := q.marks + 1 }⟩ else none
    else if 3 ≤ q.marks then some (stepBetween (close q (q.marks - 3) :: words) c)
    else
      stepPlain words { q with read := List.replicate q.marks q.mark ++ q.read, marks := 0 } c
  else if c = q.mark then some ⟨close q 0 :: words, .between⟩
  else stepPlain words q c

def letter? (c : Char) : Option Char :=
  if c = '"' ∨ c = '\\' then some c
  else if c = 'b' then some '\x08'
  else if c = 'e' then some '\x1b'
  else if c = 'f' then some '\x0c'
  else if c = 'n' then some '\n'
  else if c = 'r' then some '\r'
  else if c = 't' then some '\t'
  else none

/-- How many digits follow a letter that begins the number of a character. -/
def codeLength? (c : Char) : Option Nat :=
  if c = 'x' then some 2 else if c = 'u' then some 4 else if c = 'U' then some 8 else none

def stepEscape (words : List Token) (q : Quoted) (c : Char) : Option Scanner :=
  let q := { q with read := List.replicate q.marks q.mark ++ q.read, marks := 0 }
  match letter? c, codeLength? c with
  | some d, _ => some ⟨words, .inside { q with read := d :: q.read }⟩
  | none, some n => some ⟨words, .code q n 0⟩
  | none, none =>
    if q.lines && (c = ' ' || c = '\t') then some ⟨words, .fold q false⟩
    else if q.lines && c = '\n' then some ⟨words, .fold q true⟩
    else none

/-- Reads a digit of the number of a character. -/
def stepCode (words : List Token) (q : Quoted) (left value : Nat) (c : Char) : Option Scanner :=
  match if c.toNat < 128 then Hex.digitValue? (UInt8.ofNat c.toNat) else none with
  | none => none
  | some d =>
    let value := value * 16 + d
    if 1 < left then some ⟨words, .code q (left - 1) value⟩
    else if value.isValidChar then
      some ⟨words, .inside { q with read := Char.ofNat value :: q.read }⟩
    else none

/-- Reads a character after a backslash at the end of a line. -/
def stepFold (words : List Token) (q : Quoted) (ended : Bool) (c : Char) : Option Scanner :=
  if c = ' ' ∨ c = '\t' then some ⟨words, .fold q ended⟩
  else if c = '\n' then some ⟨words, .fold q true⟩
  else if ended then stepInside words q c
  else none

def step (s : Scanner) (c : Char) : Option Scanner :=
  match s.mode with
  | .between => some (stepBetween s.words c)
  | .comment =>
    if c = '\n' then some (stepBetween s.words c) else if isPlain c then some s else none
  | .oneMark mark =>
    if c = mark then some ⟨s.words, .twoMarks mark⟩
    else stepPlain s.words { mark, lines := false } c
  | .twoMarks mark =>
    if c = mark then some ⟨s.words, .firstLine mark⟩
    else some (stepBetween (.text "" false :: s.words) c)
  | .firstLine mark =>
    let q : Quoted := { mark, lines := true }
    if c = '\n' then some ⟨s.words, .inside q⟩ else stepInside s.words q c
  | .inside q => stepInside s.words q c
  | .escape q => stepEscape s.words q c
  | .code q left value => stepCode s.words q left value c
  | .fold q ended => stepFold s.words q ended c

end Scanner

/-- The characters with line feeds alone for line ends; a carriage return has to stand before
a line feed. -/
def unifyLines (read : List Char) : List Char → Option (List Char)
  | [] => some read.reverse
  | '\r' :: '\n' :: rest => unifyLines ('\n' :: read) rest
  | c :: rest => if c = '\r' then none else unifyLines (c :: read) rest

/-- The words of a text. The last line is ended if it is not. -/
def Token.scan (cs : List Char) : Option (List Token) := do
  let s ← ((← unifyLines [] cs) ++ ['\n']).foldlM Scanner.step {}
  match s.mode with
  | .between => some s.words.reverse
  | _ => none

end ImageRegistry.Toml
