import PushBuild.Controller.Execution
import PushBuild.Program
import PushBuild.Retry

/-!
The template of a request: created if it is missing, adopted if nobody controls it, corrected if it
says something else, and left alone if it belongs to someone else.
-/

namespace PushBuild

namespace BuildTemplate

/-- What the template of a request with this strategy says. -/
def specFor (spec : BuildRequestSpec) (strategy : String) : BuildTemplateSpec where
  strategy := { name := strategy, kind := ResourceKind.strategy.name }
  source := {
    url := spec.source.git.url
    revision := spec.source.git.revision
    contextDir := spec.source.contextDir
    cloneSecret := spec.source.git.cloneSecret }
  output := { image := spec.output.image, pushSecret := spec.output.pushSecret }

/-- The template that a request with this strategy should have. -/
def desired (request : BuildRequest) (strategy : String) : Except BuildError BuildTemplate := do
  let owner ← request.ownerReference
  return {
    metadata := {
      name := some request.templateName
      «namespace» := request.metadata.namespace
      ownerReferences := some [owner]
      labels := some (SortedMap.ofList [(buildRequestLabel, request.name)]) }
    spec := specFor request.spec strategy }

/-- The labels `labels` with those of `desired` set. -/
def withLabels (labels desired : Option Labels) : Option Labels :=
  match desired with
  | none => labels
  | some desired =>
    desired.entries.foldl (fun labels (label, value) =>
      if labels.bind (·.get? label) = some value then labels
      else some ((labels.getD SortedMap.empty).insert label value)) labels

/-- The template that `existing` becomes so as to be as `desired` by the request with this uid:
controlled by it, with its labels and its specification, and otherwise as it is. -/
def converged (existing desired : BuildTemplate) (uid : String) :
    Except BuildError BuildTemplate :=
  match Ownership.of existing.metadata uid with
  | .foreign owner => .error (.ownedByOther .template desired.name owner)
  | ownership =>
    let owners :=
      if ownership = .owned then existing.metadata.ownerReferences
      else some (existing.metadata.owners ++ desired.metadata.owners)
    .ok {
      metadata := { existing.metadata with
        ownerReferences := owners
        labels := withLabels existing.metadata.labels desired.metadata.labels }
      spec := desired.spec }

/-- One attempt to make the stored template as desired.  A template that someone else creates
meanwhile counts as a lost race. -/
def apply (desired : BuildTemplate) (uid : String) : Pass BuildTemplate := do
  match ← StoreCall.pass (.getTemplate desired.key) with
  | none =>
    tryCatch (StoreCall.pass (.createTemplate desired)) fun
      | .store (.alreadyExists kind name) => throw (.store (.conflict kind name))
      | e => throw e
  | some existing =>
    let updated ← existing.converged desired uid
    if updated = existing then return existing
    else StoreCall.pass (.replaceTemplate updated)

/-- Makes the stored template of a request what it should be, and returns it. -/
def reconcile (request : BuildRequest) (strategy : String) (retry : RetryPolicy) :
    Pass BuildTemplate := do
  let desired ← desired request strategy
  let uid ← request.uid
  ExceptT.mk (retryOnConflict retry Program.sleep BuildError.isConflict (apply desired uid).run)

end BuildTemplate

end PushBuild
