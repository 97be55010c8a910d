import ImageRegistry.Text.Percent
import ImageRegistry.Text.Split

/-! Form fields, as queries hold them: names and values between ampersands, in which a plus sign
stands for a blank and percent signs for octets. -/

namespace ImageRegistry.Form

/-- What a written name or value stands for. -/
def decode (cs : List Char) : String :=
  let spaced := cs.map fun c => if c = '+' then ' ' else c
  (Percent.decode (Octets.ofText (String.ofList spaced))).toTextLenient

/-- The name and the value of a field. Without an equals sign the value is empty. -/
def field (cs : List Char) : String × String :=
  match splitFirst? '=' cs with
  | some (name, value) => (decode name, decode value)
  | none => (decode cs, "")

def fields (query : List Char) : List (String × String) :=
  ((pieces '&' query).filter fun cs => !cs.isEmpty).map field

def value? (name : String) (fields : List (String × String)) : Option String :=
  fields.reverse.lookup name

end ImageRegistry.Form
