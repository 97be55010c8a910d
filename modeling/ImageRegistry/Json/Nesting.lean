import ImageRegistry.Json.Token

/-! From the words of a text to the document: a machine whose stack holds the arrays and
objects that are still open, so that the depth of a document is not limited. -/

namespace ImageRegistry.Json

/-- An array or object that is still open, with the parts it already has, the last one first. -/
inductive Frame where
  | items (done : List Json)
  | members (done : List (Octets × Json)) (key : Octets)

/-- What may stand next, and the open arrays and objects around it. -/
inductive Expecting where
  /-- A value. -/
  | value (stack : List Frame)
  /-- The first item of an array, or its end. -/
  | firstItem (stack : List Frame)
  /-- The first key of an object, or its end. -/
  | firstKey (stack : List Frame)
  /-- The key after a comma. -/
  | key (done : List (Octets × Json)) (stack : List Frame)
  /-- The colon after a key. -/
  | colon (done : List (Octets × Json)) (key : Octets) (stack : List Frame)
  /-- What follows a complete value. -/
  | after (value : Json) (stack : List Frame)

namespace Expecting

def beginValue (stack : List Frame) : Token → Option Expecting
  | .openBracket => some (firstItem stack)
  | .openBrace => some (firstKey stack)
  | .null => some (after .null stack)
  | .bool b => some (after (.bool b) stack)
  | .number n => some (after (.number n) stack)
  | .string o => some (after (.string o) stack)
  | _ => none

def step : Expecting → Token → Option Expecting
  | value stack, t => beginValue stack t
  | firstItem stack, .closeBracket => some (after (.array []) stack)
  | firstItem stack, t => beginValue (.items [] :: stack) t
  | firstKey stack, .closeBrace => some (after (.object []) stack)
  | firstKey stack, .string k => some (colon [] k stack)
  | key done stack, .string k => some (colon done k stack)
  | colon done k stack, .colon => some (value (.members done k :: stack))
  | after v (.items done :: stack), .comma => some (value (.items (v :: done) :: stack))
  | after v (.items done :: stack), .closeBracket =>
    some (after (.array (v :: done).reverse) stack)
  | after v (.members done k :: stack), .comma => some (key ((k, v) :: done) stack)
  | after v (.members done k :: stack), .closeBrace =>
    some (after (.object ((k, v) :: done).reverse) stack)
  | _, _ => none

def run : Expecting → List Token → Option Expecting
  | e, [] => some e
  | e, t :: ts =>
    match e.step t with
    | some e => run e ts
    | none => none

def result? : Expecting → Option Json
  | after v [] => some v
  | _ => none

end Expecting

/-- The document that words write. -/
def ofTokens? (ts : List Token) : Option Json :=
  ((Expecting.value []).run ts).bind Expecting.result?

/-- The document that a text writes. -/
def parse? (o : Octets) : Option Json := (Token.scan o).bind ofTokens?

end ImageRegistry.Json
