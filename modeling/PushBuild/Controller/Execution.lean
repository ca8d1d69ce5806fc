import PushBuild.Controller.Ownership
import PushBuild.Program

/-!
Starting builds.

Executions have names made from the request's name and a number, so that two attempts to start the
same build meet at one execution: who comes second finds it there and takes it for its own, if it
belongs to the same request.
-/

namespace PushBuild

/-- What starts an execution. -/
inductive BuildTrigger where
  /-- a change of the specification -/
  | initial
  /-- a push -/
  | onCommit
deriving Repr, DecidableEq

/-- The word for a trigger, as labels carry it. -/
def BuildTrigger.label : BuildTrigger → String
  | .initial => "initial"
  | .onCommit => "on-commit"

/-- The name of the execution with number `counter` that a change of the specification starts. -/
def plainExecutionName (request : String) (counter : Int) : String :=
  request ++ "-buildrun-" ++ toString counter

/-- The name of the execution with number `counter` that a push starts. -/
def onCommitExecutionName (request : String) (counter : Int) : String :=
  request ++ "-buildrun-oncommit-" ++ toString counter

/-- The label with what started an execution. -/
def triggerLabel : String := "buildwright.dev/trigger"

/-- The label with the name of the request a resource was made for. -/
def buildRequestLabel : String := "buildwright.dev/build-request"

namespace BuildExecution

/-- An execution of the request's template. -/
def desired (request : BuildRequest) (name trigger : String) :
    Except BuildError BuildExecution := do
  let owner ← request.ownerReference
  return {
    metadata := {
      name := some name
      «namespace» := request.metadata.namespace
      ownerReferences := some [owner]
      labels := some (SortedMap.ofList
        [(buildRequestLabel, request.name), (triggerLabel, trigger)]) }
    spec := { buildRef := request.templateName } }

/-- The execution of that name that is there already, if it is the request's. -/
def adopt (request : BuildRequest) (key : ObjectKey) : Pass BuildExecution := do
  let some existing ← StoreCall.pass (.getExecution key)
    | throw (.store (.conflict .execution key.name))
  let uid ← request.uid
  Ownership.ensure .execution existing.metadata uid
  return existing

/-- Starts an execution of the request, or takes the one of that name that is there. -/
def create (request : BuildRequest) (name trigger : String) : Pass BuildExecution := do
  let execution ← desired request name trigger
  tryCatch (StoreCall.pass (.createExecution execution)) fun
    | .store (.alreadyExists ..) => adopt request ⟨request.namespace, name⟩
    | e => throw e

end BuildExecution

end PushBuild
