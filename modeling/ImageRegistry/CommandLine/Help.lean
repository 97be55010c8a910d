import ImageRegistry.CommandLine.Command

/-! Help texts: what a command is for, how it is written, and its options in two columns. -/

namespace ImageRegistry.CommandLine

/-- A text with blanks after it up to a width. -/
def padTo (width : Nat) (s : String) : String :=
  s ++ String.ofList (List.replicate (width - s.length) ' ')

def columns (rows : List (String × String)) : List String :=
  let width := (rows.map fun row => row.1.length).foldl max 0
  rows.map fun (left, right) => s!"  {padTo width left}  {right}"

def OptionSpec.label (spec : OptionSpec) : String :=
  let short := spec.short.elim "    " fun letter => s!"-{letter}, "
  let value := spec.placeholder.elim "" fun placeholder => s!" <{placeholder}>"
  s!"{short}--{spec.long}{value}"

namespace Topic

def optionLines (topic : Topic) : List String :=
  ["Options:"] ++ columns (topic.options.map fun spec => (spec.label, spec.purpose))

def lines (topic : Topic) : List String :=
  let program := Topic.name .program
  match topic with
  | .program =>
    [topic.purpose, "", s!"Usage: {program} [OPTIONS] <COMMAND>", "", "Commands:"] ++
      columns (commands.map fun command => (command.name, command.purpose)) ++
      [""] ++ topic.optionLines
  | .help =>
    [topic.purpose, "", s!"Usage: {program} {topic.name} [COMMAND]...", "", "Arguments:"] ++
      columns [("[COMMAND]...", "Print help for the subcommand(s)")]
  | topic =>
    [topic.purpose, "", s!"Usage: {program} {topic.name} [OPTIONS]", ""] ++ topic.optionLines

end Topic
end ImageRegistry.CommandLine
