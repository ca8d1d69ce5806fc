/-!
The commands of the program, and the help on each.

A command has either commands below it or arguments.  Every command takes the same options, except
the one that only shows help.
-/

namespace PushBuild.CommandLine

/-- The commands, with the program itself as the one that all others are below. -/
inductive CommandName where
  | program
  | run
  | config
  | version
  | configGet
  | configSet
  | configList
  | configPath
  | configValidate
  | help
deriving Repr, DecidableEq

/-- An argument without a name before it. -/
structure Argument where
  name : String
  required : Bool
  about : String
deriving Repr, DecidableEq

namespace CommandName

/-- The word for a command. -/
def word : CommandName → String
  | program => "buildwright"
  | run => "run"
  | config => "config"
  | version => "version"
  | configGet => "get"
  | configSet => "set"
  | configList => "list"
  | configPath => "path"
  | configValidate => "validate"
  | help => "help"

/-- What a command does. -/
def about : CommandName → String
  | program => "Builds container images from BuildRequests and rebuilds them on push"
  | run => "Run the controller and webhook server (default)"
  | config => "Configuration management"
  | version => "Show version information"
  | configGet => "Get configuration value, or the whole configuration without a key"
  | configSet => "Set configuration value in the config file"
  | configList => "List all configuration"
  | configPath => "Show configuration file path"
  | configValidate => "Validate configuration"
  | help => "Print this message or the help of the given subcommand(s)"

/-- The commands below a command. -/
def below : CommandName → List CommandName
  | program => [run, config, version, help]
  | config => [configGet, configSet, configList, configPath, configValidate, help]
  | _ => []

/-- The command of that word below a command. -/
def find? (c : CommandName) (word : String) : Option CommandName :=
  c.below.find? (·.word == word)

/-- What a setting is named by. -/
def keyAbout : String :=
  "Configuration key (e.g., \"trigger.debounceSeconds\", \"webhook.path\")"

/-- The arguments of a command. -/
def arguments : CommandName → List Argument
  | configGet => [⟨"KEY", false, keyAbout⟩]
  | configSet => [⟨"KEY", true, keyAbout⟩, ⟨"VALUE", true, "Configuration value"⟩]
  | _ => []

/-! ## Help -/

/-- Entries one below the other, what they do in one column. -/
def table (entries : List (String × String)) : String :=
  let width := entries.foldl (fun w e => max w e.1.length) 0
  let gap (name : String) : String := String.ofList (List.replicate (width + 2 - name.length) ' ')
  String.join (entries.map fun (name, about) => "  " ++ name ++ gap name ++ about ++ "\n")

/-- The options of every command. -/
def optionsHelp : String :=
  "\nOptions:\n" ++ table [("-d, --debug", "Enable debug logging"),
    ("    --log-json", "Emit logs as JSON"),
    ("-c, --config <CONFIG>", "Configuration file (defaults to the platform config directory)"),
    ("-h, --help", "Print help")]

/-- An argument as the usage of a command shows it. -/
def shown (a : Argument) : String :=
  if a.required then "<" ++ a.name ++ ">" else "[" ++ a.name ++ "]"

/-- The help on a command that is reached by these words. -/
def helpText (c : CommandName) (words : List String) : String :=
  let usage := c.about ++ "\n\nUsage: " ++ " ".intercalate words
  match c with
  | help =>
    usage ++ " [COMMAND]...\n\nArguments:\n" ++
      table [("[COMMAND]...", "Print help for the subcommand(s)")]
  | _ =>
    let below := match c with
      | program => " [COMMAND]"
      | config => " <COMMAND>"
      | _ => ""
    let commands :=
      if c.below.isEmpty then ""
      else "\nCommands:\n" ++ table (c.below.map fun b => (b.word, b.about))
    let arguments :=
      if c.arguments.isEmpty then ""
      else "\nArguments:\n" ++ table (c.arguments.map fun a => (shown a, a.about))
    let placed := String.join (c.arguments.map fun a => " " ++ shown a)
    usage ++ " [OPTIONS]" ++ below ++ placed ++ "\n" ++ commands ++ arguments ++ optionsHelp

end CommandName

/-- What the command for it says about the version. -/
def versionText : String :=
  "buildwright 0.1.0\n" ++
  "  A Kubernetes controller that turns BuildRequests into container image builds and " ++
  "rebuilds them on every push\n" ++
  "  License: Apache-2.0\n"

end PushBuild.CommandLine
