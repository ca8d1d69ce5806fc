import PushBuild.Config.Basic
import PushBuild.Text.Number

/-!
Single settings by name.

A setting is named by its section and its name there, and its value is a text: `get` gives it and
`set` takes it.  Only numbers can be refused.
-/

namespace PushBuild

/-- A setting. -/
inductive ConfigKey where
  | watched
  | listenAddress
  | webhookPath
  | debounceSeconds
  | minIntervalSeconds
  | errorRequeueSeconds
  | maxAttempts
  | initialBackoffMillis
  | maxBackoffMillis
  | policyName
  | policyNamespace
deriving Repr, DecidableEq

/-- Why a setting cannot be given or changed. -/
inductive SettingError where
  | unknownKey (name : String)
  | notANumber (key : ConfigKey) (cause : Text.NumberError)
deriving Repr, DecidableEq

namespace ConfigKey

/-- All settings, in the order of their sections. -/
def all : List ConfigKey :=
  [watched, listenAddress, webhookPath, debounceSeconds, minIntervalSeconds, errorRequeueSeconds,
    maxAttempts, initialBackoffMillis, maxBackoffMillis, policyName, policyNamespace]

/-- The name of a setting. -/
def name : ConfigKey → String
  | watched => "namespace"
  | listenAddress => "webhook.listenAddr"
  | webhookPath => "webhook.path"
  | debounceSeconds => "trigger.debounceSeconds"
  | minIntervalSeconds => "trigger.minIntervalSeconds"
  | errorRequeueSeconds => "reconcile.errorRequeueSeconds"
  | maxAttempts => "retry.maxAttempts"
  | initialBackoffMillis => "retry.initialBackoffMillis"
  | maxBackoffMillis => "retry.maxBackoffMillis"
  | policyName => "policy.configMapName"
  | policyNamespace => "policy.configMapNamespace"

/-- The setting of that name. -/
def ofName (name : String) : Except SettingError ConfigKey :=
  match all.find? (·.name == name) with
  | some key => .ok key
  | none => .error (.unknownKey name)

/-- A setting is found by its name. -/
theorem ofName_name (key : ConfigKey) : ofName key.name = .ok key := by cases key <;> rfl

end ConfigKey

/-- The causes of an error, from the outermost on. -/
def SettingError.chain : SettingError → List String
  | unknownKey name => ["Unknown configuration key: " ++ name]
  | notANumber key cause => [key.name ++ " must be a number", cause.message]

namespace Config

/-- The value of a setting; that of the namespace is empty if there is none. -/
def get (key : ConfigKey) (c : Config) : String :=
  match key with
  | .watched => c.watched.getD ""
  | .listenAddress => c.listenAddress
  | .webhookPath => c.webhookPath
  | .debounceSeconds => toString c.debounceSeconds.toNat
  | .minIntervalSeconds => toString c.minIntervalSeconds.toNat
  | .errorRequeueSeconds => toString c.errorRequeueSeconds.toNat
  | .maxAttempts => toString c.maxAttempts.toNat
  | .initialBackoffMillis => toString c.initialBackoffMillis.toNat
  | .maxBackoffMillis => toString c.maxBackoffMillis.toNat
  | .policyName => c.policyName
  | .policyNamespace => c.policyNamespace

/-- A number of 64 bits as the value of a setting. -/
def readUInt64 (key : ConfigKey) (value : String) : Except SettingError UInt64 :=
  match Text.readNat (UInt64.size - 1) value with
  | .ok n => .ok (UInt64.ofNat n)
  | .error cause => .error (.notANumber key cause)

/-- A number of 32 bits as the value of a setting. -/
def readUInt32 (key : ConfigKey) (value : String) : Except SettingError UInt32 :=
  match Text.readNat (UInt32.size - 1) value with
  | .ok n => .ok (UInt32.ofNat n)
  | .error cause => .error (.notANumber key cause)

/-- The configuration with another value of a setting; the empty namespace stands for all of them.
-/
def set (key : ConfigKey) (value : String) (c : Config) : Except SettingError Config :=
  match key with
  | .watched => .ok { c with watched := if value.isEmpty then none else some value }
  | .listenAddress => .ok { c with listenAddress := value }
  | .webhookPath => .ok { c with webhookPath := value }
  | .debounceSeconds => do return { c with debounceSeconds := ← readUInt64 key value }
  | .minIntervalSeconds => do return { c with minIntervalSeconds := ← readUInt64 key value }
  | .errorRequeueSeconds => do return { c with errorRequeueSeconds := ← readUInt64 key value }
  | .maxAttempts => do return { c with maxAttempts := ← readUInt32 key value }
  | .initialBackoffMillis => do return { c with initialBackoffMillis := ← readUInt64 key value }
  | .maxBackoffMillis => do return { c with maxBackoffMillis := ← readUInt64 key value }
  | .policyName => .ok { c with policyName := value }
  | .policyNamespace => .ok { c with policyNamespace := value }

/-- The value of the setting of that name. -/
def getByName (name : String) (c : Config) : Except SettingError String := do
  return c.get (← ConfigKey.ofName name)

/-- The configuration with another value of the setting of that name. -/
def setByName (name value : String) (c : Config) : Except SettingError Config := do
  c.set (← ConfigKey.ofName name) value

end Config

end PushBuild
