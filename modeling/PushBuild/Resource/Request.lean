import PushBuild.Resource.Condition
import PushBuild.Resource.Metadata

/-!
Build requests: what a user asks for, and what is known about it.

A request names a source, an image to push and the occasions to rebuild.  Its status holds the
references to what was made for it, a counter for each of the two ways of starting a build, and the
push that waits.  Optional fields of a status are written as null and not left out, because a status
is written as a merge patch, in which null is what clears a field.
-/

namespace PushBuild

/-- Whether the repository carries its own build file. -/
inductive BuildFileMode where
  | present
  | absent
deriving Repr, DecidableEq, Inhabited

/-- When a request is rebuilt: when its specification changes, or on pushes too. -/
inductive RebuildMode where
  | initial
  | onCommit
deriving Repr, DecidableEq, Inhabited

/-- A repository and the branch to build. -/
structure GitSource where
  url : String := ""
  revision : String := ""
  /-- the secret to clone with -/
  cloneSecret : Option String := none
deriving Repr, DecidableEq, Inhabited

/-- Where the source is. -/
structure Source where
  git : GitSource := {}
  /-- the directory of the repository to build from -/
  contextDir : Option String := none
deriving Repr, DecidableEq, Inhabited

/-- Where the image goes. -/
structure Output where
  image : String := ""
  /-- the secret to push with -/
  pushSecret : Option String := none
deriving Repr, DecidableEq, Inhabited

/-- One value of a secret. -/
structure SecretKeyRef where
  name : String
  key : String
deriving Repr, DecidableEq, Inhabited

/-- What a user asks for. -/
structure BuildRequestSpec where
  source : Source := {}
  buildFile : BuildFileMode := .absent
  output : Output := {}
  /-- the rebuild section, which may leave the mode at its default -/
  rebuild : Option RebuildMode := none
  /-- the secret that authenticates pushes, of the section about commits -/
  onCommit : Option SecretKeyRef := none
deriving Repr, DecidableEq, Inhabited

/-- The part of a specification that a build depends on. -/
structure BuildSnapshot where
  url : String
  revision : String
  image : String
deriving Repr, DecidableEq

/-- A push that was received. -/
structure PushRecord where
  ref : String
  commit : String
  receivedAt : Instant
deriving Repr, DecidableEq

/-- An execution that a push started. -/
structure TriggeredExecution where
  name : String
  triggeredAt : Instant
deriving Repr, DecidableEq

/-- What is known about the pushes of a request. -/
structure OnCommitStatus where
  /-- the latest push, acted upon or not -/
  lastReceived : Option PushRecord := none
  /-- the push that waits to start a build -/
  pending : Option PushRecord := none
  lastTriggeredExecution : Option TriggeredExecution := none
  /-- the number of the latest execution started by a push -/
  triggerCounter : Int := 0
deriving Repr, DecidableEq, Inhabited

/-- What is known about a request. -/
structure BuildRequestStatus where
  observedGeneration : Option Int := none
  /-- namespace and name of the template -/
  buildRef : Option String := none
  conditions : List Condition := []
  latestImage : Option String := none
  /-- the name of the latest execution -/
  lastBuildRunRef : Option String := none
  /-- the number of the latest execution started by a change of the specification -/
  buildRunCounter : Int := 0
  /-- what that execution was to build -/
  lastBuildSpec : Option BuildSnapshot := none
  onCommit : Option OnCommitStatus := none
deriving Repr, DecidableEq, Inhabited

/-- A build request. -/
structure BuildRequest where
  metadata : Metadata := {}
  spec : BuildRequestSpec := {}
  status : Option BuildRequestStatus := none
deriving Repr, DecidableEq, Inhabited

namespace BuildRequestSpec

/-- The rebuild mode; without a rebuild section it is the initial one. -/
def rebuildMode (s : BuildRequestSpec) : RebuildMode :=
  s.rebuild.getD .initial

/-- The part that a build depends on. -/
def snapshot (s : BuildRequestSpec) : BuildSnapshot :=
  ⟨s.source.git.url, s.source.git.revision, s.output.image⟩

/-- The ref a push has to carry to concern this request. -/
def watchedRef (s : BuildRequestSpec) : String :=
  "refs/heads/" ++ s.source.git.revision

/-- Whether a build is due, given what was built last: only address, revision and image count. -/
def needsBuild (s : BuildRequestSpec) (recorded : Option BuildSnapshot) : Bool :=
  recorded != some s.snapshot

end BuildRequestSpec

namespace BuildRequest

def name (r : BuildRequest) : String := r.metadata.anyName

def «namespace» (r : BuildRequest) : String := r.metadata.namespaceOrEmpty

def key (r : BuildRequest) : ObjectKey := r.metadata.key

/-- Whether pushes rebuild the request. -/
def isOnCommit (r : BuildRequest) : Bool :=
  r.spec.rebuildMode == .onCommit

/-- The name of the request's template. -/
def templateName (r : BuildRequest) : String :=
  r.name ++ "-build"

/-- The status, or the one of a request about which nothing is known. -/
def statusOrDefault (r : BuildRequest) : BuildRequestStatus :=
  r.status.getD {}

end BuildRequest

/-! ## Reading -/

/-- The mode of that name. -/
def BuildFileMode.ofName? : String → Option BuildFileMode
  | "Present" => some .present
  | "Absent" => some .absent
  | _ => none

/-- The mode of that name. -/
def RebuildMode.ofName? : String → Option RebuildMode
  | "Initial" => some .initial
  | "OnCommit" => some .onCommit
  | _ => none

variable {ν : Type} [Document ν]

def GitSource.read? (d : ν) : Option GitSource := do
  let r ← Record.at? ["url", "revision", "cloneSecret"] d
  return {
    url := ← r.required "url" Document.text?
    revision := ← r.required "revision" Document.text?
    cloneSecret := ← r.optional "cloneSecret" Document.text? }

def Source.read? (d : ν) : Option Source := do
  let r ← Record.at? ["git", "contextDir"] d
  return {
    git := ← r.required "git" GitSource.read?
    contextDir := ← r.optional "contextDir" Document.text? }

def Output.read? (d : ν) : Option Output := do
  let r ← Record.at? ["image", "pushSecret"] d
  return {
    image := ← r.required "image" Document.text?
    pushSecret := ← r.optional "pushSecret" Document.text? }

def SecretKeyRef.read? (d : ν) : Option SecretKeyRef := do
  let r ← Record.at? ["name", "key"] d
  return {
    name := ← r.required "name" Document.text?
    key := ← r.required "key" Document.text? }

/-- Reads the rebuild section. -/
def RebuildMode.readSection? (d : ν) : Option RebuildMode := do
  let r ← Record.at? ["mode"] d
  r.withDefault "mode" .initial (fun d => Document.choice? d >>= RebuildMode.ofName?)

/-- Reads the section about commits. -/
def SecretKeyRef.readSection? (d : ν) : Option SecretKeyRef := do
  let r ← Record.at? ["webhookSecret"] d
  r.required "webhookSecret" SecretKeyRef.read?

def BuildRequestSpec.read? (d : ν) : Option BuildRequestSpec := do
  let r ← Record.at? ["source", "buildFile", "output", "rebuild", "onCommit"] d
  return {
    source := ← r.required "source" Source.read?
    buildFile := ← r.withDefault "buildFile" .absent
      (fun d => Document.choice? d >>= BuildFileMode.ofName?)
    output := ← r.required "output" Output.read?
    rebuild := ← r.optional "rebuild" RebuildMode.readSection?
    onCommit := ← r.optional "onCommit" SecretKeyRef.readSection? }

def BuildSnapshot.read? (d : ν) : Option BuildSnapshot := do
  let r ← Record.at? ["url", "revision", "image"] d
  return {
    url := ← r.required "url" Document.text?
    revision := ← r.required "revision" Document.text?
    image := ← r.required "image" Document.text? }

def PushRecord.read? (d : ν) : Option PushRecord := do
  let r ← Record.at? ["ref", "commit", "receivedAt"] d
  return {
    ref := ← r.required "ref" Document.text?
    commit := ← r.required "commit" Document.text?
    receivedAt := ← r.required "receivedAt" Document.instant? }

def TriggeredExecution.read? (d : ν) : Option TriggeredExecution := do
  let r ← Record.at? ["name", "triggeredAt"] d
  return {
    name := ← r.required "name" Document.text?
    triggeredAt := ← r.required "triggeredAt" Document.instant? }

def OnCommitStatus.read? (d : ν) : Option OnCommitStatus := do
  let r ← Record.at? ["lastReceived", "pending", "lastTriggeredExecution", "triggerCounter"] d
  return {
    lastReceived := ← r.optional "lastReceived" PushRecord.read?
    pending := ← r.optional "pending" PushRecord.read?
    lastTriggeredExecution := ← r.optional "lastTriggeredExecution" TriggeredExecution.read?
    triggerCounter := ← r.withDefault "triggerCounter" 0 Document.int64? }

def BuildRequestStatus.read? (d : ν) : Option BuildRequestStatus := do
  let r ← Record.at? ["observedGeneration", "buildRef", "conditions", "latestImage",
    "lastBuildRunRef", "buildRunCounter", "lastBuildSpec", "onCommit"] d
  return {
    observedGeneration := ← r.optional "observedGeneration" Document.int64?
    buildRef := ← r.optional "buildRef" Document.text?
    conditions := ← r.withDefault "conditions" [] (Document.list? Condition.read?)
    latestImage := ← r.optional "latestImage" Document.text?
    lastBuildRunRef := ← r.optional "lastBuildRunRef" Document.text?
    buildRunCounter := ← r.withDefault "buildRunCounter" 0 Document.int64?
    lastBuildSpec := ← r.optional "lastBuildSpec" BuildSnapshot.read?
    onCommit := ← r.optional "onCommit" OnCommitStatus.read? }

def BuildRequest.read? (d : ν) : Option BuildRequest := do
  let r ← Record.at? ["metadata", "spec", "status"] d
  return {
    metadata := ← r.required "metadata" Metadata.read?
    spec := ← r.required "spec" BuildRequestSpec.read?
    status := ← r.optional "status" BuildRequestStatus.read? }

/-! ## Writing -/

def BuildFileMode.name : BuildFileMode → String
  | .present => "Present"
  | .absent => "Absent"

def RebuildMode.name : RebuildMode → String
  | .initial => "Initial"
  | .onCommit => "OnCommit"

def GitSource.toJson (g : GitSource) : Json :=
  .obj ([("url", .str g.url), ("revision", .str g.revision)] ++
    Json.member? "cloneSecret" .str g.cloneSecret)

def Source.toJson (s : Source) : Json :=
  .obj (("git", s.git.toJson) :: Json.member? "contextDir" .str s.contextDir)

def Output.toJson (o : Output) : Json :=
  .obj (("image", .str o.image) :: Json.member? "pushSecret" .str o.pushSecret)

def SecretKeyRef.toJson (s : SecretKeyRef) : Json :=
  .obj [("name", .str s.name), ("key", .str s.key)]

def BuildRequestSpec.toJson (s : BuildRequestSpec) : Json :=
  .obj ([("source", s.source.toJson), ("buildFile", .str s.buildFile.name),
      ("output", s.output.toJson)] ++
    Json.member? "rebuild" (fun mode => .obj [("mode", .str mode.name)]) s.rebuild ++
    Json.member? "onCommit" (fun secret => .obj [("webhookSecret", secret.toJson)]) s.onCommit)

def BuildSnapshot.toJson (s : BuildSnapshot) : Json :=
  .obj [("url", .str s.url), ("revision", .str s.revision), ("image", .str s.image)]

def PushRecord.toJson (p : PushRecord) : Json :=
  .obj [("ref", .str p.ref), ("commit", .str p.commit), ("receivedAt", .ofInstant p.receivedAt)]

def TriggeredExecution.toJson (e : TriggeredExecution) : Json :=
  .obj [("name", .str e.name), ("triggeredAt", .ofInstant e.triggeredAt)]

def OnCommitStatus.toJson (s : OnCommitStatus) : Json :=
  .obj [("lastReceived", .ofOption PushRecord.toJson s.lastReceived),
    ("pending", .ofOption PushRecord.toJson s.pending),
    ("lastTriggeredExecution", .ofOption TriggeredExecution.toJson s.lastTriggeredExecution),
    ("triggerCounter", .int s.triggerCounter)]

def BuildRequestStatus.toJson (s : BuildRequestStatus) : Json :=
  .obj [("observedGeneration", .ofOption .int s.observedGeneration),
    ("buildRef", .ofOption .str s.buildRef),
    ("conditions", .ofList Condition.toJson s.conditions),
    ("latestImage", .ofOption .str s.latestImage),
    ("lastBuildRunRef", .ofOption .str s.lastBuildRunRef),
    ("buildRunCounter", .int s.buildRunCounter),
    ("lastBuildSpec", .ofOption BuildSnapshot.toJson s.lastBuildSpec),
    ("onCommit", .ofOption OnCommitStatus.toJson s.onCommit)]

def BuildRequest.toJson (r : BuildRequest) : Json :=
  .obj ([("apiVersion", .str apiVersion), ("kind", .str "BuildRequest"),
      ("metadata", r.metadata.toJson), ("spec", r.spec.toJson)] ++
    Json.member? "status" BuildRequestStatus.toJson r.status)

end PushBuild
