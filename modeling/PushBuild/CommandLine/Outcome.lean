import PushBuild.CommandLine.Arguments
import PushBuild.Config.Source

/-!
What the program does, as a function of its arguments, its environment and the files it finds: what
it prints, the code it ends with, and the file it writes.
-/

namespace PushBuild.CommandLine

/-- What the program did. -/
structure Outcome where
  code : Nat := 0
  output : String := ""
  errors : String := ""
  /-- the file written, with its text -/
  saved : Option (String × String) := none
deriving Repr, DecidableEq

namespace Outcome

/-- The outcome of a successful command. -/
def printed (text : String) : Outcome := { output := text }

/-- The causes of a failure, the outermost first: those after it one below the other. -/
def failed (chain : List String) : Outcome :=
  let numbered := ((List.range chain.length).zip (chain.drop 1)).map fun (n, cause) =>
    (if chain.length = 2 then "    " else "    " ++ toString n ++ ": ") ++ cause ++ "\n"
  let causes := if numbered.isEmpty then "" else "\nCaused by:\n" ++ String.join numbered
  { code := 1, errors := "Error: " ++ chain.headD "" ++ "\n" ++ causes }

/-- The outcome of arguments that do not say what is to be done. -/
def misused (e : UsageError) : Outcome :=
  match e with
  | .helpWanted .. => printed e.message
  | .helpNeeded .. => { code := 2, errors := e.message }
  | e => { code := 2, errors := e.message ++ "\nFor more information, try '--help'.\n" }

end Outcome

/-- The directories above a path, the nearest first. -/
def directoriesAbove (path : String) : List String :=
  let rec go : List Char → List String
    | [] => []
    | c :: rest => (if c == '/' then [String.ofList rest.reverse] else []) ++ go rest
  go path.toList.reverse

/-- Whether a file can be written: there is no directory in its place and no file where a directory
has to be. -/
def isWritable (files : Files) (path : String) : Bool :=
  files path != .directory && (directoriesAbove path).all fun above =>
    match files above with
    | .text _ => false
    | _ => true

/-- The cause of a failure to write the configuration. -/
def notSaved : List String := ["Failed to save configuration"]

/-- Changes one setting in the file; the environment does not count. -/
def setInFile (env : Environment) (files : Files) (path : Option String) (key value : String) :
    Except (List String) Outcome := do
  let file := env.resolve path
  let c ← (Config.loadFileOrDefault files file).mapError LoadError.chain
  let c ← (c.setByName key value).mapError fun cause =>
    ("Failed to set " ++ key ++ " = " ++ value) :: cause.chain
  if isWritable files file then
    return {
      output := "Configuration saved to " ++ file ++ "\n"
      saved := some (file, c.toYaml) }
  else .error notSaved

/-- The configuration with the changes of the environment, to be shown. -/
def loadToShow (env : Environment) (files : Files) (path : Option String) :
    Except (List String) Config :=
  (Config.load env files path).mapError fun cause => (ConfigError.notLoaded cause).chain

/-- What a task does; a failure is told by its causes. -/
def Task.perform (env : Environment) (files : Files) (path : Option String) :
    Task → Except (List String) Outcome
  | version => .ok (.printed versionText)
  | configGet none | configList => do
    return .printed (← loadToShow env files path).toYaml
  | configGet (some key) => do
    let c ← loadToShow env files path
    let value ← (c.getByName key).mapError SettingError.chain
    return .printed (value ++ "\n")
  | configSet key value => setInFile env files path key value
  | configPath => .ok (.printed (env.resolve path ++ "\n"))
  | configValidate =>
    match Config.validate env files path with
    | .ok _ => .ok (.printed "Configuration is valid\n")
    | .error cause =>
      .ok { code := 1
            errors := "Configuration validation failed: " ++ joinCauses cause.chain ++ "\n" }
  | run => do
    let _ ← (Config.validate env files path).mapError ConfigError.chain
    -- without a cluster to talk to there is nothing to run on
    .error ["Failed to initialize Kubernetes client"]

/-- What the program does. -/
def perform (env : Environment) (files : Files) (arguments : List String) : Outcome :=
  match Invocation.ofArguments arguments with
  | .error e => .misused e
  | .ok invocation =>
    match invocation.task.perform env files invocation.options.config with
    | .ok outcome => outcome
    | .error chain => .failed chain

end PushBuild.CommandLine
