import ImageRegistry.Toml.Scalar
import ImageRegistry.Toml.Table
import ImageRegistry.Toml.Token

/-! Reading configuration texts: lines with a key and its value, and headers of tables to which
the lines after them belong. Each reader takes at least one word at each step, so that the number
of words bounds its steps. -/

namespace ImageRegistry.Toml

def skipBlanks : List Token → List Token
  | .blank _ :: rest => skipBlanks rest
  | words => words

/-- The words after blanks and line ends. -/
def skipGaps : List Token → List Token
  | .blank _ :: rest => skipGaps rest
  | .newline :: rest => skipGaps rest
  | words => words

/-- Whether a character may stand in a key without quotes. -/
def isKeyChar (c : Char) : Bool := c.isAlphanum || c == '_' || c == '-'

def simpleKey? : List Token → Option (String × List Token)
  | .text s false :: rest => some (s, rest)
  | .atom cs :: rest => if cs.all isKeyChar then some (String.ofList cs, rest) else none
  | _ => none

def key? : Nat → List Token → Option ((List String × String) × List Token)
  | 0, _ => none
  | steps + 1, words =>
    match simpleKey? (skipBlanks words) with
    | none => none
    | some (first, rest) =>
      match skipBlanks rest with
      | .dot :: rest =>
        (key? steps rest).map fun ((path, last), rest) => ((first :: path, last), rest)
      | rest => some (([], first), rest)

/-- The characters of a value without quotes: atoms and dots, and a blank between a date and a
time. -/
def scalarChars : List Token → List Char × List Token
  | .atom date :: .blank [' '] :: .atom (c :: cs) :: rest =>
    if (Moment.date? date).any (·.2.isEmpty) && c.isDigit then
      let (more, rest) := scalarChars rest
      (date ++ ' ' :: c :: cs ++ more, rest)
    else (date, .blank [' '] :: .atom (c :: cs) :: rest)
  | .atom cs :: rest =>
    let (more, rest) := scalarChars rest
    (cs ++ more, rest)
  | .dot :: rest =>
    let (more, rest) := scalarChars rest
    ('.' :: more, rest)
  | words => ([], words)

mutual

def value? : Nat → List Token → Option (Json × List Token)
  | 0, _ => none
  | steps + 1, words =>
    match words with
    | .text s _ :: rest => some (.text s, rest)
    | .openBracket :: rest => items? steps rest []
    | .openBrace :: rest => members? steps rest []
    | words =>
      let (cs, rest) := scalarChars words
      (Scalar.read? cs).map (·, rest)

/-- Reads the rest of an array, after the items that were read, backwards. -/
def items? : Nat → List Token → List Json → Option (Json × List Token)
  | 0, _, _ => none
  | steps + 1, words, read =>
    match skipGaps words with
    | .closeBracket :: rest => some (.array read.reverse, rest)
    | words =>
      match value? steps words with
      | none => none
      | some (v, rest) =>
        match skipGaps rest with
        | .comma :: rest => items? steps rest (v :: read)
        | .closeBracket :: rest => some (.array (v :: read).reverse, rest)
        | _ => none

/-- Reads the rest of a table between braces. -/
def members? : Nat → List Token → Table → Option (Json × List Token)
  | 0, _, _ => none
  | steps + 1, words, table =>
    match skipGaps words with
    | .closeBrace :: rest => some (table.toJson, rest)
    | words =>
      match key? steps words with
      | some ((path, key), .equals :: rest) =>
        match value? steps (skipBlanks rest) with
        | none => none
        | some (v, rest) =>
          match table.add path key v, skipGaps rest with
          | some table, .comma :: rest => members? steps rest table
          | some table, .closeBrace :: rest => some (table.toJson, rest)
          | _, _ => none
      | _ => none

end

/-- A line that says something. -/
inductive Line where
  /-- A key and its value. -/
  | pair (path : List String) (key : String) (value : Json)
  /-- The header of a table. -/
  | header (path : List String) (key : String)
  /-- The header of one more table among those under a key. -/
  | itemHeader (path : List String) (key : String)

def line? (words : List Token) : Option (Line × List Token) :=
  match words with
  | .openBracket :: .openBracket :: rest =>
    match key? words.length rest with
    | some ((path, key), .closeBracket :: .closeBracket :: rest) =>
      some (.itemHeader path key, rest)
    | _ => none
  | .openBracket :: rest =>
    match key? words.length rest with
    | some ((path, key), .closeBracket :: rest) => some (.header path key, rest)
    | _ => none
  | words =>
    match key? words.length words with
    | some ((path, key), .equals :: rest) =>
      (value? words.length (skipBlanks rest)).map fun (v, rest) => (.pair path key v, rest)
    | _ => none

/-- Reads lines after those already read, which stand backwards. -/
def lines? : Nat → List Token → List Line → Option (List Line)
  | 0, _, _ => none
  | steps + 1, words, read =>
    match skipGaps words with
    | [] => some read.reverse
    | words =>
      match line? words with
      | none => none
      | some (line, rest) =>
        match skipBlanks rest with
        | .newline :: rest => lines? steps rest (line :: read)
        | _ => none

/-- The table that is open, and the header under which it will stand. -/
structure Section where
  header : Option Line
  table : Table

def Section.close (s : Section) (whole : Table) : Option Table :=
  match s.header with
  | some (.header path key) => whole.atHeader path key fun
    | none => some (.table .opened s.table)
    | some (.table .implied _) => some (.table .opened s.table)
    | some _ => none
  | some (.itemHeader path key) => whole.atHeader path key fun
    | none => some (.tables [s.table])
    | some (.tables items) => some (.tables (s.table :: items))
    | some _ => none
  | _ => some s.table

/-- The entries with which a table is opened: those of an implied one. -/
def openWith (whole : Table) (path : List String) (key : String) : Table :=
  match path with
  | [] =>
    match whole.lookup key with
    | some (.table .implied entries) => entries
    | _ => []
  | k :: path =>
    match whole.lookup k with
    | some (.table _ entries) => openWith entries path key
    | some (.tables (last :: _)) => openWith last path key
    | _ => []

def assemble? : List Line → Section → Table → Option Table
  | [], s, whole => s.close whole
  | line :: rest, s, whole =>
    match line with
    | .pair path key v =>
      match s.table.add path key v with
      | some table => assemble? rest { s with table } whole
      | none => none
    | .header path key =>
      match s.close whole with
      | some whole => assemble? rest ⟨some line, openWith whole path key⟩ whole
      | none => none
    | .itemHeader _ _ =>
      match s.close whole with
      | some whole => assemble? rest ⟨some line, []⟩ whole
      | none => none

/-- The document that a configuration text stands for. A mark of the encoding at its start does
not count. -/
def parse? (o : Octets) : Option Json := do
  let cs := (← o.toText?).toList
  let cs := if cs.head? = some '\uFEFF' then cs.drop 1 else cs
  let words ← Token.scan cs
  let lines ← lines? (words.length + 1) words []
  return (← assemble? lines ⟨none, []⟩ []).toJson

end ImageRegistry.Toml
