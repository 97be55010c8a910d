import ImageRegistry.CommandLine.Outcome

/-! The registry server as a program. A directory is read before a command runs, and what the
command removed is then removed from it. -/

namespace ImageRegistry.CommandLine

/-- The files below a directory, with the names that lead to them after a key. -/
partial def filesBelow (directory key : String) : IO (List (Path × Octets)) := do
  let entries ← try (← IO.FS.realPath directory).readDir catch _ => pure #[]
  entries.toList.flatMapM fun entry => do
    let path := s!"{directory}/{entry.fileName}"
    let key := if key.isEmpty then entry.fileName else s!"{key}/{entry.fileName}"
    if ← (← IO.FS.realPath path).isDir then filesBelow path key
    else return [(⟨key⟩, (← IO.FS.readBinFile path).toList)]

def readConfig : Option String → IO (Option ServerConfig)
  | none => return some {}
  | some path => do
    try return ServerConfig.ofFile? (← IO.FS.readBinFile path).toList
    catch _ => return none

/-- Runs a command over a directory. -/
def performIn (config : ServerConfig) (fresh : Octets) (path : String) (command : Command) :
    IO Outcome := do
  let base := (Disk.empty Disk.engine ⟨path⟩).base config.bucket
  let files ← filesBelow base.text ""
  let before := Disk.holding Disk.engine ⟨path⟩ config.bucket files
  let (outcome, after) := perform config fresh (.disk before) command
  let kept := (after.list config.bucket none).toOption.getD []
  for (key, _) in files do
    unless kept.contains key do
      IO.FS.removeFile (base.join key.text).text
  return outcome

/-- Runs what a command line gives. -/
def run (words : List String) : IO Outcome := do
  match parse words with
  | .error topic => return .ofTopic topic
  | .ok invocation =>
    let some config ← readConfig invocation.config
      | return .failure "the configuration cannot be read"
    let fresh := (← IO.getRandomBytes 32).toList
    match config.storage with
    | .directory path => performIn config fresh path invocation.command
    | choice => return (perform config fresh choice.backend invocation.command).1

end ImageRegistry.CommandLine

open ImageRegistry in
/-- Runs the command line, prints what it comes to, and exits with its code. -/
def main (words : List String) : IO UInt32 := do
  let outcome ← CommandLine.run words
  outcome.output.forM IO.println
  outcome.complaint.forM IO.eprintln
  return UInt32.ofNat outcome.exitCode
