import PushBuild.CommandLine.Command

/-!
Reading the arguments of the program.

Options may stand before and after the word of a command; of one that is given at several commands
the innermost counts, and at one command it may be given once.  After two dashes everything is an
argument as it stands.
-/

namespace PushBuild.CommandLine

/-- What is to be done. -/
inductive Task where
  | run
  | version
  | configGet (key : Option String)
  | configSet (key value : String)
  | configList
  | configPath
  | configValidate
deriving Repr, DecidableEq

/-- What the options say. -/
structure Options where
  debug : Bool := false
  logJson : Bool := false
  config : Option String := none
deriving Repr, DecidableEq

/-- The options given at a command and at one below it. -/
def Options.under (outer inner : Options) : Options where
  debug := outer.debug || inner.debug
  logJson := outer.logJson || inner.logJson
  config := inner.config <|> outer.config

/-- What the arguments ask for. -/
structure Invocation where
  task : Task
  options : Options
deriving Repr, DecidableEq

/-- Why the arguments do not say what is to be done. -/
inductive UsageError where
  /-- help was asked for -/
  | helpWanted (command : CommandName) (words : List String)
  /-- nothing was said where a command is needed -/
  | helpNeeded (command : CommandName) (words : List String)
  | commandMissing (words : List String)
  | unknownCommand (word : String)
  | unexpectedArgument (text : String)
  | argumentsMissing (arguments : List Argument)
  | valueMissing (option : String)
  | valueUnexpected (value option : String)
  | optionRepeated (option : String)
deriving Repr, DecidableEq

/-- What is known at a command. -/
structure ArgumentState where
  command : CommandName := .program
  words : List String := [CommandName.program.word]
  /-- the options at the commands above -/
  outer : Options := {}
  /-- the options here -/
  options : Options := {}
  /-- the option with a file, if it was given last: its value, if that was given too -/
  pending : Option (Option String) := none
  arguments : List String := []

namespace ArgumentState

def configOption : String := "--config <CONFIG>"

/-- The state in which no option is left without its value taken. -/
def settle (s : ArgumentState) : Except UsageError ArgumentState :=
  match s.pending with
  | none => .ok s
  | some none => .error (.valueMissing configOption)
  | some (some value) =>
    if s.options.config.isSome then .error (.optionRepeated configOption)
    else if value.isEmpty then .error (.valueMissing configOption)
    else .ok { s with pending := none, options := { s.options with config := some value } }

/-- The state with the option for more logs. -/
def setDebug (s : ArgumentState) : Except UsageError ArgumentState := do
  let s ← s.settle
  if s.options.debug then .error (.optionRepeated "--debug")
  else return { s with options := { s.options with debug := true } }

/-- The state with the option for logs as JSON. -/
def setLogJson (s : ArgumentState) : Except UsageError ArgumentState := do
  let s ← s.settle
  if s.options.logJson then .error (.optionRepeated "--log-json")
  else return { s with options := { s.options with logJson := true } }

/-- The state with the option for the file, and its value if that is part of the same argument. -/
def setConfig (s : ArgumentState) (value : Option String) : Except UsageError ArgumentState := do
  let s ← s.settle
  let s := { s with pending := some value }
  if value.isSome then s.settle else return s

/-- The help on the command. -/
def showHelp (s : ArgumentState) : Except UsageError ArgumentState := do
  let s ← s.settle
  .error (.helpWanted s.command s.words)

/-- The state after an option with its whole name. -/
def readLong (s : ArgumentState) (name : String) (value : Option String) :
    Except UsageError ArgumentState :=
  match name, value with
  | "config", value => s.setConfig value
  | "debug", none => s.setDebug
  | "log-json", none => s.setLogJson
  | "help", none => s.showHelp
  | "debug", some value | "log-json", some value | "help", some value =>
    .error (.valueUnexpected value ("--" ++ name))
  | name, _ => .error (.unexpectedArgument ("--" ++ name))

/-- The state after options of one letter each; what follows the one for a file is its value. -/
def readShort (s : ArgumentState) : List Char → Except UsageError ArgumentState
  | [] => .ok s
  | 'd' :: rest => do (← s.setDebug).readShort rest
  | 'h' :: _ => s.showHelp
  | ['c'] => s.setConfig none
  | 'c' :: '=' :: value => s.setConfig (some (String.ofList value))
  | 'c' :: value => s.setConfig (some (String.ofList value))
  | letter :: _ => .error (.unexpectedArgument (String.ofList ['-', letter]))

/-- The state after an argument without a name; `literally` after two dashes. -/
def readArgument (s : ArgumentState) (literally : Bool) (text : String) :
    Except UsageError ArgumentState := do
  let s ← s.settle
  if s.arguments.length < s.command.arguments.length then
    return { s with arguments := s.arguments ++ [text] }
  else if s.command.below.isEmpty || (literally && (s.command.find? text).isSome) then
    .error (.unexpectedArgument text)
  else .error (.unknownCommand text)

/-- The help that words after the one for help ask for. -/
def helpOn (command : CommandName) (words : List String) : List String → UsageError
  | [] => .helpWanted command words
  | word :: rest =>
    match command.find? word with
    | some below => helpOn below (words ++ [word]) rest
    | none => .unknownCommand word

/-- The state at a command below. -/
def enter (s : ArgumentState) (command : CommandName) : Except UsageError ArgumentState := do
  let s ← s.settle
  return {
    command, words := s.words ++ [command.word], outer := s.outer.under s.options }

/-- The name and the value of an option with its whole name. -/
def splitLong (cs : List Char) : String × Option String :=
  let name := cs.takeWhile (· != '=')
  let value := match cs.drop name.length with
    | _ :: value => some (String.ofList value)
    | [] => none
  (String.ofList name, value)

/-- The state after all arguments. -/
def readAll (s : ArgumentState) (literally : Bool) : List String → Except UsageError ArgumentState
  | [] => s.settle
  | text :: rest => do
    if literally then (← s.readArgument true text).readAll true rest
    else
      let waiting := s.pending == some none
      match (if waiting then none else s.command.find? text) with
      | some .help => .error (helpOn s.command s.words rest)
      | some command => (← s.enter command).readAll false rest
      | none =>
        match text.toList with
        | ['-', '-'] => s.readAll true rest
        | '-' :: '-' :: option =>
          let (name, value) := splitLong option
          (← s.readLong name value).readAll false rest
        | '-' :: letter :: letters => (← s.readShort (letter :: letters)).readAll false rest
        | _ =>
          let next ←
            if waiting then .ok { s with pending := some (some text) }
            else s.readArgument false text
          next.readAll false rest

/-- What the arguments ask for, once all are read. -/
def invocation (s : ArgumentState) : Except UsageError Invocation := do
  let task : Task ← match s.command, s.arguments with
    | .program, _ | .run, _ => .ok .run
    | .version, _ => .ok .version
    | .configGet, key => .ok (.configGet key.head?)
    | .configSet, [key, value] => .ok (.configSet key value)
    | .configSet, given => .error (.argumentsMissing (s.command.arguments.drop given.length))
    | .configList, _ => .ok .configList
    | .configPath, _ => .ok .configPath
    | .configValidate, _ => .ok .configValidate
    | .config, _ | .help, _ =>
      if s.options == {} then .error (.helpNeeded s.command s.words)
      else .error (.commandMissing s.words)
  return { task, options := s.outer.under s.options }

end ArgumentState

/-- What the arguments ask for. -/
def Invocation.ofArguments (arguments : List String) : Except UsageError Invocation := do
  (← ({} : ArgumentState).readAll false arguments).invocation

/-- The first line on an error; the help has no line of its own. -/
def UsageError.message : UsageError → String
  | helpWanted command words | helpNeeded command words => command.helpText words
  | commandMissing words =>
    "error: '" ++ " ".intercalate words ++ "' requires a subcommand but one was not provided\n"
  | unknownCommand word => "error: unrecognized subcommand '" ++ word ++ "'\n"
  | unexpectedArgument text => "error: unexpected argument '" ++ text ++ "' found\n"
  | argumentsMissing missing =>
    "error: the following required arguments were not provided:\n" ++
      String.join (missing.map fun a => "  " ++ CommandName.shown a ++ "\n")
  | valueMissing option =>
    "error: a value is required for '" ++ option ++ "' but none was supplied\n"
  | valueUnexpected value option =>
    "error: unexpected value '" ++ value ++ "' for '" ++ option ++
      "' found; no more were expected\n"
  | optionRepeated option =>
    "error: the argument '" ++ option ++ "' cannot be used multiple times\n"

end PushBuild.CommandLine
