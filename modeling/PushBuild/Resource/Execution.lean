import PushBuild.Resource.Condition
import PushBuild.Resource.Metadata

/-!
Build executions: one for each attempt to build.  The build system reports on an execution in its
status; `outcome` reads the report.
-/

namespace PushBuild

/-- What an execution builds: the name of a template. -/
structure BuildExecutionSpec where
  buildRef : String := ""
deriving Repr, DecidableEq, Inhabited

/-- What a build brought forth. -/
structure ExecutionOutput where
  /-- the digest of the image's content -/
  digest : Option String := none
deriving Repr, DecidableEq, Inhabited

/-- Why a build failed. -/
structure FailureDetails where
  reason : Option String := none
  message : Option String := none
deriving Repr, DecidableEq, Inhabited

/-- What the build system reports. -/
structure BuildExecutionStatus where
  conditions : List Condition := []
  output : Option ExecutionOutput := none
  failureDetails : Option FailureDetails := none
deriving Repr, DecidableEq, Inhabited

/-- An attempt to build. -/
structure BuildExecution where
  metadata : Metadata := {}
  spec : BuildExecutionSpec := {}
  status : Option BuildExecutionStatus := none
deriving Repr, DecidableEq, Inhabited

/-- How an attempt stands. -/
inductive ExecutionOutcome where
  | pending
  | running (message : Option String)
  | succeeded
  | failed (message : Option String)
deriving Repr, DecidableEq

/-- Whether nothing more will happen. -/
def ExecutionOutcome.isTerminal : ExecutionOutcome → Bool
  | .succeeded | .failed _ => true
  | .pending | .running _ => false

namespace BuildExecution

def name (e : BuildExecution) : String := e.metadata.anyName

def key (e : BuildExecution) : ObjectKey := e.metadata.key

/-- How the attempt stands.  The message of a failure is that of its details, and without one that
of the condition if it is not empty. -/
def outcome (e : BuildExecution) : ExecutionOutcome :=
  match e.status with
  | none => .pending
  | some status =>
    match Condition.find? status.conditions Condition.succeeded with
    | none => .pending
    | some condition =>
      let message := if condition.message.isEmpty then none else some condition.message
      match condition.status with
      | .true => .succeeded
      | .false => .failed (status.failureDetails.bind (·.message) <|> message)
      | .unknown => .running message

/-- The digest that was reported; an empty one counts as none. -/
def digest? (e : BuildExecution) : Option String := do
  let digest ← (← (← e.status).output).digest
  if digest.isEmpty then none else some digest

end BuildExecution

/-! ## Reading -/

variable {ν : Type} [Document ν]

def BuildExecutionSpec.read? (d : ν) : Option BuildExecutionSpec := do
  let r ← Record.at? ["buildRef"] d
  return { buildRef := ← r.required "buildRef" Document.text? }

def ExecutionOutput.read? (d : ν) : Option ExecutionOutput := do
  let r ← Record.at? ["digest"] d
  return { digest := ← r.optional "digest" Document.text? }

def FailureDetails.read? (d : ν) : Option FailureDetails := do
  let r ← Record.at? ["reason", "message"] d
  return {
    reason := ← r.optional "reason" Document.text?
    message := ← r.optional "message" Document.text? }

def BuildExecutionStatus.read? (d : ν) : Option BuildExecutionStatus := do
  let r ← Record.at? ["conditions", "output", "failureDetails"] d
  return {
    conditions := ← r.withDefault "conditions" [] (Document.list? Condition.read?)
    output := ← r.optional "output" ExecutionOutput.read?
    failureDetails := ← r.optional "failureDetails" FailureDetails.read? }

def BuildExecution.read? (d : ν) : Option BuildExecution := do
  let r ← Record.at? ["metadata", "spec", "status"] d
  return {
    metadata := ← r.required "metadata" Metadata.read?
    spec := ← r.required "spec" BuildExecutionSpec.read?
    status := ← r.optional "status" BuildExecutionStatus.read? }

/-! ## Writing -/

def BuildExecutionSpec.toJson (s : BuildExecutionSpec) : Json :=
  .obj [("buildRef", .str s.buildRef)]

def ExecutionOutput.toJson (o : ExecutionOutput) : Json :=
  .obj (Json.member? "digest" .str o.digest)

def FailureDetails.toJson (f : FailureDetails) : Json :=
  .obj (Json.member? "reason" .str f.reason ++ Json.member? "message" .str f.message)

def BuildExecutionStatus.toJson (s : BuildExecutionStatus) : Json :=
  .obj (("conditions", .ofList Condition.toJson s.conditions) ::
    Json.member? "output" ExecutionOutput.toJson s.output ++
    Json.member? "failureDetails" FailureDetails.toJson s.failureDetails)

def BuildExecution.toJson (e : BuildExecution) : Json :=
  .obj ([("apiVersion", .str apiVersion), ("kind", .str "BuildExecution"),
      ("metadata", e.metadata.toJson), ("spec", e.spec.toJson)] ++
    Json.member? "status" BuildExecutionStatus.toJson e.status)

end PushBuild
