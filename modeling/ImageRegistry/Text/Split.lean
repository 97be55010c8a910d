/-! Cutting characters into the pieces between separators, and finding a piece among them. -/

namespace ImageRegistry

def consPiece (separator c : Char) (pieces : List (List Char)) : List (List Char) :=
  if c = separator then [] :: pieces
  else
    match pieces with
    | [] => [[c]]
    | piece :: rest => (c :: piece) :: rest

def pieces (separator : Char) (cs : List Char) : List (List Char) :=
  cs.foldr (consPiece separator) [[]]

def splitText (separator : Char) (s : String) : List String :=
  (pieces separator s.toList).map String.ofList

def splitFirst? (separator : Char) (cs : List Char) : Option (List Char × List Char) :=
  match cs.dropWhile (· != separator) with
  | [] => none
  | _ :: rest => some (cs.takeWhile (· != separator), rest)

def splitLast? (separator : Char) (cs : List Char) : Option (List Char × List Char) :=
  (splitFirst? separator cs.reverse).map fun (last, before) => (before.reverse, last.reverse)

/-- Looks for `part` in some characters, after others that stand before it in reverse. -/
def cutAfter? (part before : List Char) : List Char → Option (List Char × List Char)
  | [] => if part.isEmpty then some (before.reverse, []) else none
  | c :: cs =>
    match part.isPrefixOf? (c :: cs) with
    | some rest => some (before.reverse, rest)
    | none => cutAfter? part (c :: before) cs

/-- What stands before and after the first place at which `part` occurs. -/
def cutAt? (part cs : List Char) : Option (List Char × List Char) := cutAfter? part [] cs

def occurs (part cs : List Char) : Bool := (cutAt? part cs).isSome

@[simp] theorem pieces_nil (separator : Char) : pieces separator [] = [[]] := rfl

@[simp] theorem pieces_cons (separator c : Char) (cs : List Char) :
    pieces separator (c :: cs) = consPiece separator c (pieces separator cs) := rfl

theorem pieces_ne_nil (separator : Char) (cs : List Char) : pieces separator cs ≠ [] := by
  cases cs with
  | nil => simp
  | cons c cs =>
    simp only [pieces_cons, consPiece]
    split
    · simp
    · split <;> simp

end ImageRegistry
