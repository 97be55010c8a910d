import ImageRegistry.Text.Split

/-! Options of a command line: words that begin with hyphens, some of which take a value. The
value stands after an equals sign or is the next word. -/

namespace ImageRegistry.CommandLine

/-- An option that a command takes. -/
structure OptionSpec where
  /-- The name after two hyphens. -/
  long : String
  /-- The letter after one hyphen. -/
  short : Option Char := none
  /-- What stands for the value in help texts, if the option takes one. -/
  placeholder : Option String := none
  purpose : String

def OptionSpec.help : OptionSpec where
  long := "help"
  short := some 'h'
  purpose := "Print help"

/-- Why the words of a command line are not taken. -/
inductive UsageFault where
  | unexpected (word : String)
  | missingValue (option : String)
  | needlessValue (option : String)
  | repeated (option : String)
  | missingCommand
  deriving DecidableEq, Repr

def UsageFault.message : UsageFault → String
  | unexpected word => s!"unexpected argument '{word}'"
  | missingValue option => s!"a value is required for '--{option}'"
  | needlessValue option => s!"no value is taken by '--{option}'"
  | repeated option => s!"the argument '--{option}' cannot be used multiple times"
  | missingCommand => "a command is required"

/-- Why reading words ends early. -/
inductive Stop where
  | help
  | fault (fault : UsageFault)

/-- The options that were given, with their values. -/
structure Given where
  values : List (String × String) := []

namespace Given

def has (given : Given) (long : String) : Bool := (given.values.lookup long).isSome

def value? (given : Given) (long : String) : Option String := given.values.lookup long

def add (given : Given) (long value : String) : Except Stop Given :=
  if given.has long then .error (.fault (.repeated long))
  else .ok ⟨(long, value) :: given.values⟩

end Given

def looksLikeOption (word : String) : Bool :=
  match word.toList with
  | '-' :: _ :: _ => true
  | _ => false

/-- Reads an option with the value that is attached to it, if there is one, and gives the words
after it. -/
def readOption (spec : OptionSpec) (attached : Option String) (given : Given)
    (rest : List String) : Except Stop (Given × List String) :=
  match spec.placeholder, attached, rest with
  | none, some _, _ => .error (.fault (.needlessValue spec.long))
  | none, none, _ =>
    if spec.long = OptionSpec.help.long then .error .help
    else (·, rest) <$> given.add spec.long ""
  | some _, some value, _ => (·, rest) <$> given.add spec.long value
  | some _, none, value :: rest =>
    if looksLikeOption value then .error (.fault (.missingValue spec.long))
    else (·, rest) <$> given.add spec.long value
  | some _, none, [] => .error (.fault (.missingValue spec.long))

/-- The option that a word names, with the value that is attached to it. -/
def findOption? (specs : List OptionSpec) (word : String) : Option (OptionSpec × Option String) :=
  match word.toList with
  | '-' :: '-' :: cs =>
    let (name, attached) :=
      match splitFirst? '=' cs with
      | some (name, value) => (name, some (String.ofList value))
      | none => (cs, none)
    (specs.find? fun spec => spec.long == String.ofList name).map (·, attached)
  | '-' :: letter :: cs =>
    (specs.find? fun spec => spec.short == some letter).map fun spec =>
      let value := if cs.head? = some '=' then cs.drop 1 else cs
      (spec, if cs.isEmpty || spec.placeholder.isNone then none else some (String.ofList value))
  | _ => none

/-- Reads options up to the first word that is none. After two hyphens nothing may follow. Each
step takes a word. -/
def readOptions (specs : List OptionSpec) :
    Nat → List String → Given → Except Stop (Given × List String)
  | 0, words, given => .ok (given, words)
  | _ + 1, [], given => .ok (given, [])
  | steps + 1, word :: rest, given =>
    if word = "--" then
      match rest with
      | [] => .ok (given, [])
      | word :: _ => .error (.fault (.unexpected word))
    else if looksLikeOption word then
      match findOption? specs word with
      | none => .error (.fault (.unexpected word))
      | some (spec, attached) => do
        let (given, rest) ← readOption spec attached given rest
        readOptions specs steps rest given
    else .ok (given, word :: rest)

end ImageRegistry.CommandLine
