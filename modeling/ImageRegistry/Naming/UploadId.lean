import ImageRegistry.Text.Hex
import ImageRegistry.Text.Split

/-! Identifiers of upload sessions: universally unique identifiers. They are written in five
groups of lower case digits, and may be given in one piece, in braces or as a URN. -/

namespace ImageRegistry

/-- The identifier of an upload session. -/
structure UploadId where
  /-- The hexadecimal digits. -/
  digits : List Char
  length_digits : digits.length = 32
  isLower : digits.all Hex.isLowerDigit = true
  deriving DecidableEq

namespace UploadId

/-- Writes digits in groups of eight, three times four, and twelve. -/
def grouped (ds : List Char) : List Char :=
  ds.take 8 ++ '-' :: ((ds.drop 8).take 4 ++ '-' :: ((ds.drop 12).take 4 ++
    '-' :: ((ds.drop 16).take 4 ++ '-' :: ds.drop 20)))

def text (id : UploadId) : String := String.ofList (grouped id.digits)

instance : ToString UploadId := ⟨text⟩

/-- The digits of an identifier that is written in groups. -/
def ungrouped? (cs : List Char) : Option (List Char) :=
  let groups := pieces '-' cs
  if groups.map List.length = [8, 4, 4, 4, 12] then some groups.flatten else none

def betweenBraces? (cs : List Char) : Option (List Char) :=
  match cs with
  | '\x7b' :: rest => if rest.getLast? = some '\x7d' then some rest.dropLast else none
  | _ => none

/-- What a URN of an identifier begins with, in lower case; the case does not matter. -/
def urnStart : List Char := "urn:uuid:".toList

/-- The digits, of either case, of an identifier in one of its forms. -/
def anyDigits? (cs : List Char) : Option (List Char) :=
  if cs.length = 32 then some cs
  else if (cs.take urnStart.length).map Char.toLower = urnStart then
    ungrouped? (cs.drop urnStart.length)
  else
    match betweenBraces? cs with
    | some inner => ungrouped? inner
    | none => ungrouped? cs

def ofDigits? (ds : List Char) : Option UploadId :=
  if h : ds.length = 32 ∧ ds.all Hex.isLowerDigit = true then some ⟨ds, h.1, h.2⟩ else none

/-- Reads an identifier in any of its forms. -/
def ofText? (s : String) : Option UploadId :=
  (anyDigits? s.toList).bind fun ds => ofDigits? (ds.map Char.toLower)

end UploadId
end ImageRegistry
