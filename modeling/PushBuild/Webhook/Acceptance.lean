import PushBuild.Controller.Reconcile
import PushBuild.Webhook.Provider

/-!
Taking in a delivery.

A push is matched with the requests that wait for it and authenticated with the secret of each.
Only when this is known of all of them is it recorded as waiting on those it was authenticated for.
-/

namespace PushBuild

/-- A delivery. -/
structure Delivery where
  headers : Headers
  body : Bytes

/-- What became of a delivery. -/
inductive Acceptance where
  /-- no request waits for it -/
  | noMatch
  /-- it waits on these requests, by namespace and name -/
  | recorded (requests : List String)
deriving Repr, DecidableEq

/-- Why a delivery is refused. -/
inductive WebhookError where
  | provider (error : ProviderError)
  /-- the method is not that of a delivery -/
  | method
  /-- no request's secret authenticates it -/
  | unauthorized
  | store (error : StoreError)
deriving Repr, DecidableEq

/-- The words for the cause. -/
def WebhookError.message : WebhookError → String
  | provider error => error.message
  | method => "method not allowed on the webhook route"
  | unauthorized => "no matching build request authenticated the payload"
  | store error => error.message

/-- A program that takes in a delivery. -/
abbrev WebhookProgram := ExceptT WebhookError Program

/-- A store program as part of taking in a delivery. -/
def StoreProgram.webhook {α : Type} (p : StoreProgram α) : WebhookProgram α :=
  ExceptT.adapt WebhookError.store p

/-- What a provider says, as part of taking in a delivery. -/
def ofProvider {α : Type} (result : Except ProviderError α) : Except WebhookError α :=
  result.mapError WebhookError.provider

namespace Delivery

/-- The selector of the requests that pushes build. -/
def selector : String := onCommitLabel ++ "=true"

/-- Whether a request waits for a push. -/
def concerns (event : PushEvent) (request : BuildRequest) : Bool :=
  request.isOnCommit && event.concerns request.spec.source.git.url request.spec.watchedRef

/-- Whether a request's secret authenticates the delivery.  A request without a secret, or with one
that is not there, is not authenticated. -/
def authenticatedFor (d : Delivery) (provider : Provider) (request : BuildRequest) :
    WebhookProgram Bool := do
  let some secret := request.spec.onCommit | return false
  let data ← (StoreCall.program (.getSecret ⟨request.namespace, secret.name⟩)).webhook
  match data.bind (·.get? secret.key) with
  | none => return false
  | some value => return provider.authenticates d.headers d.body value

/-- Those of some requests whose secrets authenticate the delivery. -/
def authenticated (d : Delivery) (provider : Provider) :
    List BuildRequest → WebhookProgram (List BuildRequest)
  | [] => return []
  | request :: rest => do
    let accepted ← d.authenticatedFor provider request
    let others ← d.authenticated provider rest
    return if accepted then request :: others else others

/-- Records a push on a request. -/
def record (retry : RetryPolicy) (event : PushEvent) (request : BuildRequest) :
    WebhookProgram Unit := do
  let now ← ExceptT.lift (Program.ask .now)
  let _ ← (BuildRequest.modifyStatus retry request.key (event.changeOnCommit now)).webhook

/-- Takes in a delivery. -/
def accept (d : Delivery) (retry : RetryPolicy) (providers : List Provider) :
    WebhookProgram Acceptance := do
  let provider ← ofProvider (Provider.detect providers d.headers)
  let event ← ofProvider (provider.parse d.headers d.body)
  let candidates ← (StoreCall.program (.listRequests selector)).webhook
  match candidates.filter (concerns event) with
  | [] => return .noMatch
  | matched =>
    let accepted ← d.authenticated provider matched
    accepted.forM (record retry event)
    if accepted.isEmpty then throw .unauthorized
    else return .recorded (accepted.map fun request => request.key.text)

end Delivery

end PushBuild
