import PushBuild.Program
import PushBuild.Resource.Metadata
import PushBuild.Text.Blank
import PushBuild.Text.Cut

/-!
A store that keeps everything in memory.

Every write gives the resource a version that was never given before, and a write on the basis of an
older version is refused.  A number may be used up by a write that is refused; what is stored
changes only with a write that is not.

Resources are listed by a label selector: `key=value` terms between commas, all of which have to
hold.  Blanks around a key, a value or a term do not count, and what is no such term does not
either.
-/

namespace PushBuild

/-! ## Selectors -/

/-- The terms of a selector. -/
def selectorTerms (selector : String) : List (String × String) :=
  (Text.split ',' selector.toList).filterMap fun term =>
    (Text.cut? '=' (Text.trimBlanks term)).map fun (key, value) =>
      (String.ofList (Text.trimBlanks key), String.ofList (Text.trimBlanks value))

/-- Whether a resource has the labels that a selector asks for. -/
def Metadata.isSelectedBy (m : Metadata) (selector : String) : Bool :=
  (selectorTerms selector).all fun (key, value) => m.label? key == some value

/-! ## The store -/

/-- What is stored. -/
structure MemoryStore where
  /-- the version that was given last -/
  lastVersion : Nat := 0
  /-- the number of the uid that was given last -/
  lastUid : Nat := 0
  requests : SortedMap ObjectKey BuildRequest := SortedMap.empty
  templates : SortedMap ObjectKey BuildTemplate := SortedMap.empty
  executions : SortedMap ObjectKey BuildExecution := SortedMap.empty
  strategies : SortedMap String BuildStrategy := SortedMap.empty
  policy : Option ClusterPolicy := none
  secrets : SortedMap ObjectKey SecretData := SortedMap.empty
  /-- how many of the next status writes are to be refused as if another writer were faster -/
  conflicts : Nat := 0
  /-- whether every call fails -/
  unavailable : Bool := false
deriving Inhabited

namespace MemoryStore

/-- A new version, and the store that has given it. -/
def takeVersion (s : MemoryStore) : String × MemoryStore :=
  (toString (s.lastVersion + 1), { s with lastVersion := s.lastVersion + 1 })

/-- A new uid, and the store that has given it. -/
def takeUid (s : MemoryStore) : String × MemoryStore :=
  ("uid-" ++ toString (s.lastUid + 1), { s with lastUid := s.lastUid + 1 })

/-! ## Calls -/

/-- The answer to a call, and the store after it. -/
abbrev Answer (α : Type) := Except StoreError α × MemoryStore

/-- Refuses a call. -/
def refuse {α : Type} (s : MemoryStore) (e : StoreError) : Answer α := (.error e, s)

/-- The refusal of a write to something that is not there. -/
def notFound (kind : ResourceKind) (name : String) : StoreError :=
  .backend (kind.name ++ " " ++ name ++ " not found")

/-- Writes the status of a request. -/
def updateRequestStatus (s : MemoryStore) (request : BuildRequest) : Answer BuildRequest :=
  if 0 < s.conflicts then
    { s with conflicts := s.conflicts - 1 }.refuse (.conflict .request request.name)
  else
    let (version, s) := s.takeVersion
    match s.requests.get? request.key with
    | none => s.refuse (notFound .request request.name)
    | some stored =>
      if stored.metadata.resourceVersion = request.metadata.resourceVersion then
        let written : BuildRequest := { stored with
          metadata := { stored.metadata with resourceVersion := some version }
          status := request.status }
        (.ok written, { s with requests := s.requests.insert request.key written })
      else s.refuse (.conflict .request request.name)

/-- Sets a label of a request, or takes it away. -/
def setRequestLabel (s : MemoryStore) (key : ObjectKey) (label : String) (value : Option String) :
    Answer Unit :=
  let (version, s) := s.takeVersion
  match s.requests.get? key with
  | none => s.refuse (notFound .request key.name)
  | some stored =>
    let written : BuildRequest := { stored with
      metadata := { stored.metadata.setLabel label value with resourceVersion := some version } }
    (.ok (), { s with requests := s.requests.insert key written })

/-- Metadata with a new uid and a new version, in this order. -/
def created (s : MemoryStore) (m : Metadata) : Metadata × MemoryStore :=
  let (uid, s) := s.takeUid
  let (version, s) := s.takeVersion
  ({ m with uid := some uid, resourceVersion := some version }, s)

/-- Stores a new template. -/
def createTemplate (s : MemoryStore) (template : BuildTemplate) : Answer BuildTemplate :=
  if s.templates.contains template.key then
    s.refuse (.alreadyExists .template template.name)
  else
    let (metadata, s) := s.created template.metadata
    let written := { template with metadata }
    (.ok written, { s with templates := s.templates.insert template.key written })

/-- Replaces the labels, the owners and the specification of a template. -/
def replaceTemplate (s : MemoryStore) (template : BuildTemplate) : Answer BuildTemplate :=
  let (version, s) := s.takeVersion
  match s.templates.get? template.key with
  | none => s.refuse (notFound .template template.name)
  | some stored =>
    if stored.metadata.resourceVersion = template.metadata.resourceVersion then
      let written : BuildTemplate := {
        metadata := { stored.metadata with
          labels := template.metadata.labels
          ownerReferences := template.metadata.ownerReferences
          resourceVersion := some version }
        spec := template.spec }
      (.ok written, { s with templates := s.templates.insert template.key written })
    else s.refuse (.conflict .template template.name)

/-- Stores a new execution. -/
def createExecution (s : MemoryStore) (execution : BuildExecution) : Answer BuildExecution :=
  if s.executions.contains execution.key then
    s.refuse (.alreadyExists .execution execution.name)
  else
    let (metadata, s) := s.created execution.metadata
    let written := { execution with metadata }
    (.ok written, { s with executions := s.executions.insert execution.key written })

/-- Answers a call when the store is available. -/
def answer {α : Type} (s : MemoryStore) : StoreCall α → Answer α
  | .getRequest key => (.ok (s.requests.get? key), s)
  | .listRequests selector =>
    (.ok (s.requests.values.filter fun r => r.metadata.isSelectedBy selector), s)
  | .updateRequestStatus request => s.updateRequestStatus request
  | .setRequestLabel key label value => s.setRequestLabel key label value
  | .getTemplate key => (.ok (s.templates.get? key), s)
  | .createTemplate template => s.createTemplate template
  | .replaceTemplate template => s.replaceTemplate template
  | .getExecution key => (.ok (s.executions.get? key), s)
  | .createExecution execution => s.createExecution execution
  | .getStrategy name => (.ok (s.strategies.get? name), s)
  | .getPolicy => (.ok s.policy, s)
  | .getSecret key => (.ok (s.secrets.get? key), s)

/-- Answers a call. -/
def call {α : Type} (s : MemoryStore) (c : StoreCall α) : Answer α :=
  if s.unavailable then s.refuse (.backend "store unavailable") else s.answer c

/-! ## What users and the build system do -/

/-- Stores a request as a user does, with a uid and the first generation. -/
def insertRequest (s : MemoryStore) (request : BuildRequest) : MemoryStore :=
  let (metadata, s) := s.created { request.metadata with
    «namespace» := some (request.metadata.namespace.getD "default")
    generation := some 1 }
  let written := { request with metadata }
  { s with requests := s.requests.insert written.key written }

/-- Changes the specification of a request as a user does.  Gives the new generation, and none if
there is no such request. -/
def updateSpec (s : MemoryStore) (key : ObjectKey) (spec : BuildRequestSpec) :
    Option Int × MemoryStore :=
  let (version, s) := s.takeVersion
  match s.requests.get? key with
  | none => (none, s)
  | some stored =>
    let generation := stored.metadata.generation.getD 0 + 1
    let written : BuildRequest := { stored with
      metadata := { stored.metadata with
        generation := some generation, resourceVersion := some version }
      spec }
    (some generation, { s with requests := s.requests.insert key written })

/-- Metadata with a new version, and a new uid if they have none, in this order. -/
def placed (s : MemoryStore) (m : Metadata) : Metadata × MemoryStore :=
  let (version, s) := s.takeVersion
  let m := { m with resourceVersion := some version }
  match m.uid with
  | some _ => (m, s)
  | none =>
    let (uid, s) := s.takeUid
    ({ m with uid := some uid }, s)

/-- Stores a template, whatever was there. -/
def putTemplate (s : MemoryStore) (template : BuildTemplate) : MemoryStore :=
  let (metadata, s) := s.placed template.metadata
  { s with templates := s.templates.insert template.key { template with metadata } }

/-- Stores an execution, whatever was there. -/
def putExecution (s : MemoryStore) (execution : BuildExecution) : MemoryStore :=
  let (metadata, s) := s.placed execution.metadata
  { s with executions := s.executions.insert execution.key { execution with metadata } }

/-- Reports on an execution, as the build system does. -/
def setExecutionStatus (s : MemoryStore) (key : ObjectKey) (status : BuildExecutionStatus) :
    MemoryStore :=
  let (version, s) := s.takeVersion
  match s.executions.get? key with
  | none => s
  | some stored =>
    let written : BuildExecution := { stored with
      metadata := { stored.metadata with resourceVersion := some version }
      status := some status }
    { s with executions := s.executions.insert key written }

/-- Installs a strategy. -/
def insertStrategy (s : MemoryStore) (name : String) : MemoryStore :=
  { s with strategies := s.strategies.insert name { metadata := { name := some name } } }

/-- Sets one value of a secret. -/
def insertSecret (s : MemoryStore) (key : ObjectKey) (dataKey : String) (value : Bytes) :
    MemoryStore :=
  let data := (s.secrets.get? key).getD SortedMap.empty
  { s with secrets := s.secrets.insert key (data.insert dataKey value) }

/-- The executions of a namespace, by name. -/
def executionsIn (s : MemoryStore) («namespace» : String) : List BuildExecution :=
  (s.executions.entries.filter (·.1.namespace == «namespace»)).map (·.2)

end MemoryStore

end PushBuild
