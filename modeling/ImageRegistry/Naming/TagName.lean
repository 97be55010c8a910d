import ImageRegistry.Text.Word

/-! Tag names: a word character, then word characters, dots and hyphens. -/

namespace ImageRegistry.TagName

def maxLength : Nat := 128

def isRestChar (c : Char) : Bool := isWordChar c || c == '.' || c == '-'

def accepts (s : String) : Bool :=
  match s.toList with
  | [] => false
  | c :: cs => isWordChar c && cs.all isRestChar && cs.length < maxLength

end ImageRegistry.TagName
