import PushBuild.Controller.Coordinate
import PushBuild.Controller.Template
import PushBuild.Image

/-!
A pass over one request.

The pass makes the world as the request says: the label by which pushes find it, the template, an
execution when what is to be built has changed, an execution when a push is due, and in the end the
status that tells how things stand.  What blocks a pass and can be removed by someone else is
recorded on the request; a failing store is reported to the caller.
-/

namespace PushBuild

/-- What the passes go by. -/
structure ControllerSettings where
  trigger : TriggerPolicy := {}
  /-- when to look again after a recorded failure -/
  errorRequeue : Duration := .ofSeconds 30
  retry : RetryPolicy := {}
deriving Repr, DecidableEq, Inhabited

/-- What a pass asks of the caller: to look again after a time, or to wait for a change. -/
structure ReconcileOutcome where
  requeueAfter : Option Duration := none
deriving Repr, DecidableEq

/-- The name of the strategy that the policy has for a specification, which has to be installed. -/
def resolveStrategy (spec : BuildRequestSpec) : Pass String := do
  let some policy ← StoreCall.pass .getPolicy | throw .missingPolicy
  let some name := policy.strategyFor? spec.buildFile
    | throw (.strategyNotFound ("no strategy configured for buildFile=" ++ spec.buildFile.name))
  let some _ ← StoreCall.pass (.getStrategy name) | throw (.strategyNotFound name)
  return name

/-- The label of requests that pushes build. -/
def onCommitLabel : String := "buildwright.dev/on-commit"

namespace ExecutionOutcome

/-- What a request says about its latest execution, given how that stands. -/
def condition : ExecutionOutcome → Condition
  | pending =>
    { type := Condition.buildSucceeded, status := .unknown, reason := "Pending"
      message := "build execution has not reported an outcome" }
  | running message =>
    { type := Condition.buildSucceeded, status := .unknown, reason := "Running"
      message := message.getD "" }
  | succeeded =>
    { type := Condition.buildSucceeded, status := .true, reason := "Succeeded"
      message := "build execution succeeded" }
  | failed message =>
    { type := Condition.buildSucceeded, status := .false, reason := "Failed"
      message := message.getD "" }

end ExecutionOutcome

/-- What is to be said about the latest execution, computed for the execution it names. -/
structure Projection where
  execution : String
  condition : Condition
  image : Option String
deriving Repr, DecidableEq

namespace Projection

/-- What is to be said about the execution of that name, which may be missing. -/
def of (request : BuildRequest) (name : String) (execution : Option BuildExecution) :
    Projection where
  execution := name
  condition := ((execution.map BuildExecution.outcome).getD .pending).condition
  image := resolveImage request.spec.output.image (execution.bind BuildExecution.digest?)

/-- The status with what is to be said, if it is still about the same execution. -/
def apply (p : Projection) (generation : Option Int) (now : Instant) (status : BuildRequestStatus) :
    BuildRequestStatus :=
  if status.lastBuildRunRef = some p.execution then
    { status with
      conditions := Condition.set { p.condition with observedGeneration := generation } now
        status.conditions
      latestImage := p.image <|> status.latestImage }
  else status

end Projection

/-- A change that is none if it changes nothing. -/
def StatusChange.ofFunction (f : BuildRequest → BuildRequestStatus → BuildRequestStatus) :
    StatusChange := fun request status =>
  let new := f request status
  if new = status then none else some new

/-- The status of a request whose template is in place. -/
def projectedStatus (reference : String) (projection : Option Projection) (now : Instant)
    (request : BuildRequest) (status : BuildRequestStatus) : BuildRequestStatus :=
  let generation := request.metadata.generation
  let status := { status with buildRef := some reference, observedGeneration := generation }
  let status := (projection.map fun p => p.apply generation now status).getD status
  { status with
    conditions := Condition.set {
        type := Condition.ready
        status := .true
        reason := "Reconciled"
        message := "build template " ++ reference ++ " is up to date"
        observedGeneration := generation } now status.conditions }

/-- The status of a request whose pass was blocked. -/
def failedStatus (error : BuildError) (now : Instant) (request : BuildRequest)
    (status : BuildRequestStatus) : BuildRequestStatus :=
  { status with
    conditions := Condition.set {
        type := Condition.ready
        status := .false
        reason := error.reason
        message := error.message
        observedGeneration := request.metadata.generation } now status.conditions }

/-- Gives the request the label of its rebuild mode, and returns it as it is then. -/
def syncSelectionLabel (request : BuildRequest) : Pass BuildRequest := do
  let desired := if request.isOnCommit then some "true" else none
  if request.metadata.label? onCommitLabel = desired then return request
  else
    StoreCall.pass (.setRequestLabel request.key onCommitLabel desired)
    return (← StoreCall.pass (.getRequest request.key)).getD request

/-- Drops what is left of pushes on a request that they no longer build. -/
def retirePushes (current : BuildRequest) (status : BuildRequestStatus) :
    Option BuildRequestStatus :=
  match status.onCommit with
  | none => none
  | some state =>
    if current.isOnCommit || state.retired = some state then none
    else some { status with onCommit := state.retired }

/-- Drops what is left of pushes, if the request as it was read has anything left. -/
def retireOnCommitState (retry : RetryPolicy) (request : BuildRequest) : Pass Unit := do
  match request.status.bind (·.onCommit) with
  | none => return ()
  | some state =>
    if state.retired = some state then return ()
    else let _ ← (BuildRequest.modifyStatus retry request.key retirePushes).pass

/-- Records that `execution` was started to build `snapshot`. -/
def recordBuild (execution : String) (counter : Int) (snapshot : BuildSnapshot) : StatusChange :=
  fun _ status => some { status with
    buildRunCounter := max status.buildRunCounter counter
    lastBuildRunRef := some execution
    lastBuildSpec := some snapshot }

/-- Starts the next execution for a change of the specification, and records what it builds. -/
def startBuild (retry : RetryPolicy) (request : BuildRequest) : Pass Unit := do
  let counter := request.statusOrDefault.buildRunCounter + 1
  let execution := plainExecutionName request.name counter
  let _ ← BuildExecution.create request execution BuildTrigger.initial.label
  let _ ← (BuildRequest.modifyStatus retry request.key
    (recordBuild execution counter request.spec.snapshot)).pass

/-- Writes how things stand with a request whose template is in place. -/
def projectStatus (retry : RetryPolicy) (key : ObjectKey) (reference : String) : Pass Unit := do
  let some request ← StoreCall.pass (.getRequest key) | return ()
  let projection ← match request.statusOrDefault.lastBuildRunRef with
    | none => pure none
    | some name => do
      let execution ← StoreCall.pass (.getExecution ⟨key.namespace, name⟩)
      pure (some (Projection.of request name execution))
  let now ← Pass.now
  let _ ← (BuildRequest.modifyStatus retry key
    (.ofFunction (projectedStatus reference projection now))).pass

/-- Records what blocked a pass. -/
def recordFailure (retry : RetryPolicy) (key : ObjectKey) (error : BuildError) : Pass Unit := do
  let now ← Pass.now
  let _ ← (BuildRequest.modifyStatus retry key (.ofFunction (failedStatus error now))).pass

/-- Makes the world as `request` says. -/
def reconcileRequest (settings : ControllerSettings) (request : BuildRequest) :
    Pass ReconcileOutcome := do
  let strategy ← resolveStrategy request.spec
  let template ← BuildTemplate.reconcile request strategy settings.retry
  if request.spec.needsBuild (request.status.bind (·.lastBuildSpec)) then
    startBuild settings.retry request
  let requeueAfter ←
    if request.isOnCommit then
      pure (← coordinate settings.trigger settings.retry request.key).requeueAfter
    else do
      retireOnCommitState settings.retry request
      pure none
  projectStatus settings.retry request.key template.reference
  return { requeueAfter }

/-- A pass over the request under `key`. -/
def reconcile (settings : ControllerSettings) (key : ObjectKey) : Pass ReconcileOutcome := do
  let some request ← StoreCall.pass (.getRequest key) | return {}
  let request ← syncSelectionLabel request
  tryCatch (reconcileRequest settings request) fun e => do
    if e.isRecordable then
      recordFailure settings.retry key e
      return { requeueAfter := some settings.errorRequeue }
    else throw e

end PushBuild
