/-! Why a text is not a pattern. -/

namespace ImageRegistry

/-- Why a text is not a pattern. -/
inductive PatternFault where
  | unclosedGroup
  | unopenedGroup
  | unclosedClass
  /-- The class is no set, or no set of characters. -/
  | badClass
  /-- A repetition without anything to repeat. -/
  | nothingToRepeat
  /-- A count that is no number, or is greater than the one after it. -/
  | badCount
  | badEscape
  | badFlags
  | badGroupName
  /-- Something that is no text could match. -/
  | notText
  /-- Looking ahead or back is not supported. -/
  | lookAround
  /-- Matching again what a group matched is not supported. -/
  | backReference
  | tooDeep
  | tooLarge
  deriving DecidableEq, Repr

def PatternFault.message : PatternFault → String
  | unclosedGroup => "unclosed group"
  | unopenedGroup => "unopened group"
  | unclosedClass => "unclosed character class"
  | badClass => "invalid character class"
  | nothingToRepeat => "repetition operator missing expression"
  | badCount => "invalid repetition count"
  | badEscape => "unrecognized escape sequence"
  | badFlags => "unrecognized flag"
  | badGroupName => "invalid group name"
  | notText => "pattern can match what is no text"
  | lookAround => "look-around is not supported"
  | backReference => "backreferences are not supported"
  | tooDeep => "groups are nested too deeply"
  | tooLarge => "the pattern is too large"

end ImageRegistry
