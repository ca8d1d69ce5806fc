import PushBuild.Controller.Execution
import PushBuild.Controller.Status
import PushBuild.Trigger

/-!
Starting a build for the push that waits.

The start is decided on a request as it was read, the execution is created, and then the start is
recorded.  Between these others may do the same: the execution's name, made from the counter, is
where they meet, and the record is made only by whoever is first.
-/

namespace PushBuild

/-- What became of the waiting push. -/
inductive TriggerOutcome where
  | idle
  /-- it has to wait -/
  | deferred (wait : Duration)
  /-- the execution started before is still running -/
  | active (execution : String)
  | fired (execution : String) (requeueAfter : Option Duration)
deriving Repr, DecidableEq

/-- When to look again. -/
def TriggerOutcome.requeueAfter : TriggerOutcome → Option Duration
  | .deferred wait => some wait
  | .fired _ requeueAfter => requeueAfter
  | .idle | .active _ => none

/-- The execution last started by a push, if it is the request's and has not ended. -/
def activeExecution (request : BuildRequest) (state : Option OnCommitStatus) :
    Pass (Option String) := do
  let some last := state.bind (·.lastTriggeredExecution) | return none
  let some execution ← StoreCall.pass (.getExecution ⟨request.namespace, last.name⟩) | return none
  let uid ← request.uid
  if Ownership.of execution.metadata uid = .owned && !execution.outcome.isTerminal then
    return some last.name
  else return none

/-- Records that `execution` was started for `push`, unless that comes too late. -/
def recordFire (push : PushRecord) (execution : String) (counter : Int) (now : Instant) :
    StatusChange := fun _ status =>
  let state := status.onCommit.getD {}
  if state.supersedes counter execution then none
  else some { status with
    onCommit := some (state.applyFire push execution counter now)
    lastBuildRunRef := some execution }

/-- What to report once `execution` was created and `updated` is the request as last seen. -/
def afterFire (policy : TriggerPolicy) (updated : BuildRequest) (execution : String) :
    Pass TriggerOutcome := do
  let state := updated.status.bind (·.onCommit)
  if (state.bind (·.lastTriggeredExecution)).map (·.name) = some execution then
    return .fired execution (evaluate state policy (← Pass.now)).requeueAfter
  else
    match ← activeExecution updated state with
    | some active => return .active active
    | none =>
      match (evaluate state policy (← Pass.now)).requeueAfter with
      | some wait => return .deferred wait
      | none => return .idle

/-- Starts an execution for `push`, waiting on `request` as it was read, and records it. -/
def fire (policy : TriggerPolicy) (retry : RetryPolicy) (key : ObjectKey) (request : BuildRequest)
    (push : PushRecord) : Pass TriggerOutcome := do
  let state := request.statusOrDefault.onCommit
  match ← activeExecution request state with
  | some active => return .active active
  | none =>
    let counter := (state.map (·.triggerCounter)).getD 0 + 1
    let execution := onCommitExecutionName key.name counter
    let _ ← BuildExecution.create request execution BuildTrigger.onCommit.label
    let now ← Pass.now
    match ← (BuildRequest.modifyStatus retry key (recordFire push execution counter now)).pass with
    | none => return .idle
    | some updated => afterFire policy updated execution

/-- Looks at the request under `key` and starts a build if a push is due. -/
def coordinate (policy : TriggerPolicy) (retry : RetryPolicy) (key : ObjectKey) :
    Pass TriggerOutcome := do
  let some request ← StoreCall.pass (.getRequest key) | return .idle
  if request.isOnCommit then
    match evaluate request.statusOrDefault.onCommit policy (← Pass.now) with
    | .idle => return .idle
    | .debouncing wait | .rateLimited wait => return .deferred wait
    | .fire push => fire policy retry key request push
  else return .idle

end PushBuild
