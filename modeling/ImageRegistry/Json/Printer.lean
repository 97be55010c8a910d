import ImageRegistry.Json.Value
import ImageRegistry.Text.Hex

/-! JSON text of documents: in one piece, or with each item and member on a line of its own,
indented by two blanks for each open array or object. -/

namespace ImageRegistry.Json

/-- The octet as it is written inside a string. -/
def escaped (b : UInt8) : Octets :=
  if b = 34 then [92, 34]
  else if b = 92 then [92, 92]
  else if b = 8 then [92, 98]
  else if b = 9 then [92, 116]
  else if b = 10 then [92, 110]
  else if b = 12 then [92, 102]
  else if b = 13 then [92, 114]
  else if b < 32 then
    Octets.ofText "\\u00" ++ (Hex.octetDigits b).map fun c => UInt8.ofNat c.toNat
  else [b]

def literal (o : Octets) : Octets := 34 :: (o.flatMap escaped ++ [34])

namespace Number

def digitText (ds : List Nat) : Octets := ds.map fun d => UInt8.ofNat (48 + d)

def render (n : Number) : Octets :=
  let sign : Octets := if n.negative then [45] else []
  let fraction := n.fraction.elim [] fun ds => 46 :: digitText ds
  let exponent := n.exponent.elim [] fun e => 101 :: Octets.ofText (toString e)
  sign ++ digitText (digits n.whole) ++ fraction ++ exponent

end Number

mutual

/-- The text of a document without blanks. -/
def compact : Json → Octets
  | null => Octets.ofText "null"
  | bool true => Octets.ofText "true"
  | bool false => Octets.ofText "false"
  | number n => n.render
  | string o => literal o
  | array items => 91 :: (compactItems items ++ [93])
  | object members => 123 :: (compactMembers members ++ [125])

/-- The items of an array, with commas between them. -/
def compactItems : List Json → Octets
  | [] => []
  | [v] => compact v
  | v :: rest => compact v ++ 44 :: compactItems rest

/-- The members of an object, with commas between them. -/
def compactMembers : List (Octets × Json) → Octets
  | [] => []
  | [(k, v)] => literal k ++ 58 :: compact v
  | (k, v) :: rest => literal k ++ 58 :: (compact v ++ 44 :: compactMembers rest)

end

/-- The start of a line inside `depth` arrays and objects. -/
def newLine (depth : Nat) : Octets := 10 :: List.replicate (2 * depth) 32

mutual

/-- The text of a document that stands inside `depth` arrays and objects. -/
def indented (depth : Nat) : Json → Octets
  | array [] => [91, 93]
  | array items => 91 :: (indentedItems (depth + 1) items ++ newLine depth ++ [93])
  | object [] => [123, 125]
  | object members => 123 :: (indentedMembers (depth + 1) members ++ newLine depth ++ [125])
  | null => Octets.ofText "null"
  | bool true => Octets.ofText "true"
  | bool false => Octets.ofText "false"
  | number n => n.render
  | string o => literal o

def indentedItems (depth : Nat) : List Json → Octets
  | [] => []
  | [v] => newLine depth ++ indented depth v
  | v :: rest => newLine depth ++ indented depth v ++ 44 :: indentedItems depth rest

def indentedMembers (depth : Nat) : List (Octets × Json) → Octets
  | [] => []
  | [(k, v)] => newLine depth ++ literal k ++ [58, 32] ++ indented depth v
  | (k, v) :: rest =>
    newLine depth ++ literal k ++ [58, 32] ++ indented depth v ++ 44 :: indentedMembers depth rest

end

/-- The text of a document with one item or member on each line. -/
def pretty (v : Json) : Octets := indented 0 v

end ImageRegistry.Json
