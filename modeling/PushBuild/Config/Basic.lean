import PushBuild.Controller.Reconcile
import PushBuild.Document
import PushBuild.Network.Address
import PushBuild.Yaml.Printer

/-!
The configuration.

Every setting has a default, so a file has to name only what it changes; what it names has to be a
setting.  In a file the settings stand in sections, and a section may be left out.
-/

namespace PushBuild

/-- All settings. -/
structure Config where
  /-- the namespace whose requests are watched; all of them if there is none -/
  watched : Option String := none
  listenAddress : String := "0.0.0.0:8080"
  webhookPath : String := "/webhooks/push"
  debounceSeconds : UInt64 := 10
  minIntervalSeconds : UInt64 := 30
  errorRequeueSeconds : UInt64 := 30
  maxAttempts : UInt32 := 5
  initialBackoffMillis : UInt64 := 10
  maxBackoffMillis : UInt64 := 1000
  policyName : String := "buildwright-policy"
  policyNamespace : String := "buildwright-system"
deriving Repr, DecidableEq, Inhabited

namespace Config

/-! ## Reading -/

section

variable {ν : Type} [Document ν]

/-- The configuration with the section on the webhook read. -/
def readWebhook? (c : Config) (d : ν) : Option Config := do
  let r ← Record.closed? ["listenAddr", "path"] d
  return { c with
    listenAddress := ← r.withDefault "listenAddr" c.listenAddress Document.text?
    webhookPath := ← r.withDefault "path" c.webhookPath Document.text? }

/-- The configuration with the section on the trigger read. -/
def readTrigger? (c : Config) (d : ν) : Option Config := do
  let r ← Record.closed? ["debounceSeconds", "minIntervalSeconds"] d
  return { c with
    debounceSeconds := ← r.withDefault "debounceSeconds" c.debounceSeconds Document.uint64?
    minIntervalSeconds :=
      ← r.withDefault "minIntervalSeconds" c.minIntervalSeconds Document.uint64? }

/-- The configuration with the section on passes read. -/
def readReconcile? (c : Config) (d : ν) : Option Config := do
  let r ← Record.closed? ["errorRequeueSeconds"] d
  return { c with
    errorRequeueSeconds :=
      ← r.withDefault "errorRequeueSeconds" c.errorRequeueSeconds Document.uint64? }

/-- The configuration with the section on retries read. -/
def readRetries? (c : Config) (d : ν) : Option Config := do
  let r ← Record.closed? ["maxAttempts", "initialBackoffMillis", "maxBackoffMillis"] d
  return { c with
    maxAttempts := ← r.withDefault "maxAttempts" c.maxAttempts Document.uint32?
    initialBackoffMillis :=
      ← r.withDefault "initialBackoffMillis" c.initialBackoffMillis Document.uint64?
    maxBackoffMillis := ← r.withDefault "maxBackoffMillis" c.maxBackoffMillis Document.uint64? }

/-- The configuration with the section on the cluster's policy read. -/
def readPolicy? (c : Config) (d : ν) : Option Config := do
  let r ← Record.closed? ["configMapName", "configMapNamespace"] d
  return { c with
    policyName := ← r.withDefault "configMapName" c.policyName Document.text?
    policyNamespace := ← r.withDefault "configMapNamespace" c.policyNamespace Document.text? }

/-- Reads a configuration; what is missing has its default. -/
def read? (d : ν) : Option Config := do
  let r ← Record.closed? ["namespace", "webhook", "trigger", "reconcile", "retry", "policy"] d
  let c : Config := { watched := ← r.optional "namespace" Document.text? }
  let c ← r.withDefault "webhook" c (readWebhook? c)
  let c ← r.withDefault "trigger" c (readTrigger? c)
  let c ← r.withDefault "reconcile" c (readReconcile? c)
  let c ← r.withDefault "retry" c (readRetries? c)
  r.withDefault "policy" c (readPolicy? c)

end

/-- Reads the text of a file. -/
def ofYaml? (text : String) : Option Config := do
  read? (← Yaml.ofText? text)

/-! ## Writing -/

/-- The settings in their sections, each made by the function for its kind. -/
def sections {α : Type} (text : String → α) (number : Nat → α) (group : List (String × α) → α)
    (c : Config) : List (String × α) :=
  (match c.watched with
    | some name => [("namespace", text name)]
    | none => []) ++
  [("webhook", group [("listenAddr", text c.listenAddress), ("path", text c.webhookPath)]),
    ("trigger", group [("debounceSeconds", number c.debounceSeconds.toNat),
      ("minIntervalSeconds", number c.minIntervalSeconds.toNat)]),
    ("reconcile", group [("errorRequeueSeconds", number c.errorRequeueSeconds.toNat)]),
    ("retry", group [("maxAttempts", number c.maxAttempts.toNat),
      ("initialBackoffMillis", number c.initialBackoffMillis.toNat),
      ("maxBackoffMillis", number c.maxBackoffMillis.toNat)]),
    ("policy", group [("configMapName", text c.policyName),
      ("configMapNamespace", text c.policyNamespace)])]

/-- The configuration as JSON. -/
def toJson (c : Config) : Json :=
  .obj (c.sections Json.str (fun n => .int n) Json.obj)

/-- The text of a file with all settings. -/
def toYaml (c : Config) : String :=
  Yaml.printDocument (c.sections .text (fun n => .value (toString n)) .group)

/-! ## What the settings are for -/

/-- How often and how fast a conflicting write is repeated. -/
def retryPolicy (c : Config) : RetryPolicy where
  maxAttempts := c.maxAttempts.toNat
  initialBackoff := .ofMillis c.initialBackoffMillis.toNat
  maxBackoff := .ofMillis c.maxBackoffMillis.toNat

/-- What the passes go by; a window too long to be told is the longest one. -/
def controllerSettings (c : Config) : ControllerSettings where
  trigger :=
    { debounce := .ofSeconds c.debounceSeconds.toNat
      minInterval := .ofSeconds c.minIntervalSeconds.toNat }
  errorRequeue := .ofSeconds c.errorRequeueSeconds.toNat
  retry := c.retryPolicy

/-- The address to listen at, if the setting is one. -/
def socketAddress? (c : Config) : Option SocketAddress :=
  SocketAddress.ofText? c.listenAddress

end Config

end PushBuild
