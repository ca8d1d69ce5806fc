import PushBuild.Config.Key
import PushBuild.Text.Quoted

/-!
Where a configuration comes from.

A file is read first, the one that was named or the one in the configuration directory, and then
variables of the environment change single settings.  Whether the settings make sense together is
checked only when the controller is to use them.
-/

namespace PushBuild

/-- The variables of the environment. -/
abbrev Environment := String → Option String

/-- What is found at a path. -/
inductive FileState where
  | missing
  | directory
  | text (content : String)
deriving Repr, DecidableEq

/-- What is found at each path. -/
abbrev Files := String → FileState

/-! ## Paths -/

/-- A path below a directory. -/
def joinPath (directory name : String) : String :=
  if directory.isEmpty || directory.endsWith "/" then directory ++ name
  else directory ++ "/" ++ name

namespace Environment

/-- A variable that is set and not empty. -/
def nonempty? (env : Environment) (name : String) : Option String :=
  (env name).filter (!·.isEmpty)

/-- The directory of the configuration: the one that is set, that of a pod inside a cluster, or the
user's own. -/
def configDirectory (env : Environment) : String :=
  match env.nonempty? "BUILDWRIGHT_CONFIG_DIR", env.nonempty? "KUBERNETES_SERVICE_HOST",
      env.nonempty? "XDG_CONFIG_HOME" with
  | some directory, _, _ => directory
  | none, some _, _ => "/etc/buildwright"
  | none, none, some base => joinPath base "buildwright"
  | none, none, none =>
    joinPath (joinPath ((env.nonempty? "HOME").getD "") ".config") "buildwright"

/-- The file that is used when none is named. -/
def configFile (env : Environment) : String :=
  joinPath env.configDirectory "config.yaml"

/-- The file that is used. -/
def resolve (env : Environment) (path : Option String) : String :=
  path.getD env.configFile

end Environment

/-! ## Loading -/

/-- Why a configuration cannot be loaded. -/
inductive LoadError where
  | notFound (path : String)
  | notReadable (path : String)
  | notParsed (path : String)
  | invalidVariable (name : String) (cause : SettingError)
deriving Repr, DecidableEq

/-- What stands for the reason why a text is not the configuration it should be. -/
def unparsedReason : String := "<yaml>"

/-- The causes of an error, from the outermost on. -/
def LoadError.chain : LoadError → List String
  | notFound path => ["Config file not found: " ++ path]
  | notReadable path => ["Failed to read config file: " ++ path, "Is a directory (os error 21)"]
  | notParsed path => ["Failed to parse config file: " ++ path, unparsedReason]
  | invalidVariable name cause => ("Invalid value in " ++ name) :: cause.chain

namespace Config

/-- The configuration in a file. -/
def loadFile (files : Files) (path : String) : Except LoadError Config :=
  match files path with
  | .missing => .error (.notFound path)
  | .directory => .error (.notReadable path)
  | .text content =>
    match ofYaml? content with
    | some c => .ok c
    | none => .error (.notParsed path)

/-- The configuration in a file that may be missing. -/
def loadFileOrDefault (files : Files) (path : String) : Except LoadError Config :=
  match files path with
  | .missing => .ok {}
  | _ => loadFile files path

/-- The variables that change settings. -/
def overrides : List (String × ConfigKey) :=
  [("BUILDWRIGHT_NAMESPACE", .watched), ("BUILDWRIGHT_LISTEN_ADDR", .listenAddress),
    ("BUILDWRIGHT_WEBHOOK_PATH", .webhookPath), ("BUILDWRIGHT_DEBOUNCE_SECONDS", .debounceSeconds),
    ("BUILDWRIGHT_MIN_INTERVAL_SECONDS", .minIntervalSeconds),
    ("BUILDWRIGHT_ERROR_REQUEUE_SECONDS", .errorRequeueSeconds),
    ("BUILDWRIGHT_POLICY_CONFIGMAP", .policyName),
    ("BUILDWRIGHT_POLICY_NAMESPACE", .policyNamespace)]

/-- The configuration with one setting changed, if the variable for it is set. -/
def override (env : Environment) (c : Config) (rule : String × ConfigKey) :
    Except LoadError Config :=
  match env rule.1 with
  | none => .ok c
  | some value => (c.set rule.2 value).mapError (.invalidVariable rule.1)

/-- The configuration with the settings changed that the environment changes. -/
def applyOverrides (env : Environment) (c : Config) : Except LoadError Config :=
  overrides.foldlM (override env) c

/-- The configuration: that of the named file, which has to be there, or else of the file in the
configuration directory, with the changes of the environment. -/
def load (env : Environment) (files : Files) (path : Option String) : Except LoadError Config := do
  let c ← match path with
    | some path => loadFile files path
    | none => loadFileOrDefault files env.configFile
  applyOverrides env c

end Config

/-! ## Checking -/

/-- Why a configuration cannot be used. -/
inductive ConfigError where
  | notLoaded (cause : LoadError)
  | notAnAddress (text : String)
  | relativePath (path : String)
  | reservedPath
  | windowTooLong (key : ConfigKey) (seconds : UInt64)
  | noAttempts
  | backoffsInverted (initial max : UInt64)
deriving Repr, DecidableEq

namespace Config

/-- The longest window, in seconds: a day. -/
def maxWindowSeconds : UInt64 := 86400

/-- The path that answers whether the server is well. -/
def healthPath : String := "/healthz"

/-- Everything wrong with a configuration, in the order it is looked for. -/
def problems (c : Config) : List ConfigError :=
  (if c.socketAddress?.isNone then [.notAnAddress c.listenAddress] else []) ++
  (if !c.webhookPath.startsWith "/" then [.relativePath c.webhookPath] else []) ++
  (if c.webhookPath == healthPath then [.reservedPath] else []) ++
  (if maxWindowSeconds < c.debounceSeconds then
    [.windowTooLong .debounceSeconds c.debounceSeconds] else []) ++
  (if maxWindowSeconds < c.minIntervalSeconds then
    [.windowTooLong .minIntervalSeconds c.minIntervalSeconds] else []) ++
  (if c.maxAttempts = 0 then [.noAttempts] else []) ++
  (if c.maxBackoffMillis < c.initialBackoffMillis then
    [.backoffsInverted c.initialBackoffMillis c.maxBackoffMillis] else [])

/-- The configuration, loaded and checked; the first problem counts. -/
def validate (env : Environment) (files : Files) (path : Option String) :
    Except ConfigError Config := do
  let c ← (load env files path).mapError .notLoaded
  match c.problems with
  | [] => .ok c
  | problem :: _ => .error problem

end Config

/-- The causes of an error, from the outermost on. -/
def ConfigError.chain : ConfigError → List String
  | notLoaded cause => "Failed to load configuration" :: cause.chain
  | notAnAddress text =>
    ["webhook.listenAddr " ++ Text.quoted text ++
      " is not a socket address: invalid socket address syntax"]
  | relativePath path => ["webhook.path must start with '/', got " ++ Text.quoted path]
  | reservedPath => ["webhook.path must not be " ++ Config.healthPath]
  | windowTooLong key seconds =>
    [key.name ++ " must be at most " ++ toString Config.maxWindowSeconds.toNat ++
      " seconds, got " ++ toString seconds.toNat]
  | noAttempts => ["retry.maxAttempts must be at least 1"]
  | backoffsInverted initial max =>
    ["retry.initialBackoffMillis (" ++ toString initial.toNat ++
      ") exceeds retry.maxBackoffMillis (" ++ toString max.toNat ++ ")"]

/-- The causes of an error in one line. -/
def joinCauses (chain : List String) : String := ": ".intercalate chain

end PushBuild
