import ImageRegistry.Collection.Marking
import ImageRegistry.CommandLine.Options

/-! Commands of the registry server, and the command lines that give them. -/

namespace ImageRegistry.CommandLine

/-- A command. -/
inductive Command where
  /-- Serves requests, at an address that takes the place of the configured one. -/
  | serve (listen : Option String)
  /-- Collects garbage in the whole registry, or in one repository. -/
  | collect (options : CollectionOptions) (repository : Option String)

/-- What a command line gives. -/
structure Invocation where
  /-- The path of a configuration file. -/
  config : Option String
  command : Command

/-- What a help text is about. -/
inductive Topic where
  | program
  | serve
  | collect
  | help
  deriving DecidableEq, Repr

def OptionSpec.config : OptionSpec where
  long := "config"
  short := some 'c'
  placeholder := some "CONFIG"
  purpose := "TOML configuration file"

def OptionSpec.listen : OptionSpec where
  long := "listen"
  placeholder := some "LISTEN"
  purpose := "Address to listen on, overriding the configuration file"

def OptionSpec.dryRun : OptionSpec where
  long := "dry-run"
  purpose := "Report what would be deleted without deleting anything"

/-- The option to keep manifests without tags. -/
def OptionSpec.keepUntagged : OptionSpec where
  long := "keep-untagged"
  purpose := "Keep manifests that no tag points at"

def OptionSpec.repository : OptionSpec where
  long := "repository"
  placeholder := some "REPOSITORY"
  purpose := "Only collect this repository"

namespace Topic

/-- The options of a command, in the order of its help text. -/
def options : Topic → List OptionSpec
  | program => [.config, .help]
  | serve => [.config, .listen, .help]
  | collect => [.config, .dryRun, .keepUntagged, .repository, .help]
  | help => []

def name : Topic → String
  | program => "registry-server"
  | serve => "serve"
  | collect => "garbage-collect"
  | help => "help"

def purpose : Topic → String
  | program => "Container registry storage engine"
  | serve => "Serve the registry API"
  | collect => "Delete manifests and blobs that are no longer reachable"
  | help => "Print this message or the help of the given subcommand(s)"

/-- The commands, in the order of the help text. -/
def commands : List Topic := [serve, collect, help]

def ofName? (s : String) : Option Topic := commands.find? fun topic => topic.name == s

end Topic

/-- Ends reading as help on a topic, or with a fault. -/
def atTopic {α : Type} (topic : Topic) : Except Stop α → Except (Topic ⊕ UsageFault) α
  | .ok a => .ok a
  | .error .help => .error (.inl topic)
  | .error (.fault fault) => .error (.inr fault)

def helpTopic : List String → Topic ⊕ UsageFault
  | [] => .inl .program
  | name :: rest =>
    match Topic.ofName? name, rest with
    | none, _ => .inr (.unexpected name)
    | some topic, [] => .inl topic
    | some _, word :: _ => .inr (.unexpected word)

def commandOf (topic : Topic) (given : Given) : Command :=
  match topic with
  | .collect =>
    .collect { removeUntagged := !given.has "keep-untagged", dryRun := given.has "dry-run" }
      (given.value? "repository")
  | _ => .serve (given.value? "listen")

/-- Reads the words after the name of the program. The result is an invocation, a topic of which
help is to be printed, or a fault. -/
def parse (words : List String) : Except (Topic ⊕ UsageFault) Invocation := do
  let (before, rest) ←
    atTopic .program (readOptions (Topic.options .program) (words.length + 1) words {})
  let name :: rest := rest | throw (.inr .missingCommand)
  match Topic.ofName? name with
  | none | some .program => throw (.inr (.unexpected name))
  | some .help => throw (helpTopic rest)
  | some topic =>
    let (given, rest) ← atTopic topic (readOptions topic.options (rest.length + 1) rest {})
    match rest with
    | [] =>
      return {
        config := (given.value? "config").or (before.value? "config")
        command := commandOf topic given }
    | word :: _ => throw (.inr (.unexpected word))

end ImageRegistry.CommandLine
