import PushBuild.Cluster.Request
import PushBuild.Digest.Base64
import PushBuild.Resource.Policy
import PushBuild.Text.Blank
import PushBuild.Text.Bytes
import PushBuild.Yaml.Schema

/-!
What an API server answers to store calls.

An answer without error is the resource as it now is.  An error may say why in a body of its own
form; what is not found is no error for a call that reads one resource.  The cluster's policy is one
entry of a config map, which is YAML.
-/

namespace PushBuild

/-- An answer of the API server. -/
structure ApiResponse where
  status : Nat
  body : Bytes
deriving Repr, DecidableEq

/-- Why a request has no result. -/
inductive ApiFailure where
  /-- the server refused it, with a code and a word for the reason -/
  | refused (code : Nat) (reason : String)
  /-- there was no answer, or none that can be read -/
  | unanswered
deriving Repr, DecidableEq

namespace ApiFailure

/-- What stands for the words of a failed request. -/
def detail : String := "<kube>"

/-- The failure as an error of the store. -/
def storeError (kind : ResourceKind) (name : String) : ApiFailure → StoreError
  | refused 409 "AlreadyExists" => .alreadyExists kind name
  | refused 409 _ => .conflict kind name
  | _ => .backend (kind.name ++ " " ++ name ++ ": " ++ detail)

/-- Whether the resource is not there. -/
def isNotFound : ApiFailure → Bool
  | refused _ reason => reason == "NotFound"
  | unanswered => false

end ApiFailure

/-- Data that the server holds as base64. -/
def base64Text? (d : Json) : Option Bytes := do
  Base64.bytes? (← Document.text? d).toList

namespace ApiResponse

variable {α : Type}

/-- The code and the reason in the body of a refusal. -/
def readRefusal? (d : Json) : Option ApiFailure := do
  let r ← Record.at? ["status", "message", "reason", "code"] d
  let _ ← r.required "status" Document.text?
  let _ ← r.withDefault "message" "" Document.text?
  let reason ← r.withDefault "reason" "" Document.text?
  let code ← r.required "code" Document.natural?
  if code < 65536 then return .refused code reason else none

/-- The body as JSON. -/
def json? (r : ApiResponse) : Option Json := do
  Json.ofChars? Json.maxDepth (← Text.ofUtf8? r.body).toList

/-- The failure that an answer is, if it is one.  A refusal whose body does not tell is known by its
status alone. -/
def failure? (r : ApiResponse) : Option ApiFailure :=
  if 400 ≤ r.status && r.status < 600 then
    match Text.ofUtf8? r.body with
    | none => some .unanswered
    | some _ => (r.json?.bind readRefusal?) <|> some (.refused r.status "")
  else none

/-- The result in an answer. -/
def result (read : Json → Option α) (r : ApiResponse) : Except ApiFailure α :=
  match r.failure? with
  | some failure => .error failure
  | none =>
    match r.json?.bind read with
    | some a => .ok a
    | none => .error .unanswered

/-- The result in an answer to a call that reads one resource. -/
def found (read : Json → Option α) (r : ApiResponse) : Except ApiFailure (Option α) :=
  match r.result read with
  | .ok a => .ok (some a)
  | .error failure => if failure.isNotFound then .ok none else .error failure

/-! ## Resources of the server itself -/

/-- The members of a resource that the server itself defines; a version or kind in it has to be
right. -/
def readCore? (kind : String) (d : Json) : Option (Record Json) := do
  let members ← Document.members? d
  let isRight (member : String × Json) : Bool :=
    match member.1 with
    | "apiVersion" => member.2.text? == some "v1"
    | "kind" => member.2.text? == some kind
    | _ => true
  if members.all isRight then Record.lastOf? d else none

/-- Metadata that may be missing. -/
def readMetadata? (r : Record Json) : Option Metadata := do
  return (← r.optional "metadata" Metadata.read?).getD {}

/-- The entries of a config map. -/
def readConfigMap? (d : Json) : Option (SortedMap String String) := do
  let r ← readCore? "ConfigMap" d
  let _ ← readMetadata? r
  let _ ← r.optional "immutable" Document.truth?
  let _ ← r.optional "binaryData" (Document.map? base64Text?)
  return (← r.optional "data" (Document.map? Document.text?)).getD SortedMap.empty

/-- The data of a secret; what is given as text counts only where there is nothing else. -/
def readSecret? (d : Json) : Option SecretData := do
  let r ← readCore? "Secret" d
  let _ ← readMetadata? r
  let _ ← r.optional "immutable" Document.truth?
  let _ ← r.optional "type" Document.text?
  let data ← r.optional "data" (Document.map? base64Text?)
  let texts ← r.optional "stringData" (Document.map? Document.text?)
  let data := data.getD SortedMap.empty
  return (texts.getD SortedMap.empty).entries.foldl
    (fun m (name, text) => if m.contains name then m else m.insert name (Text.utf8 text)) data

/-- What a list says about itself; only its form counts. -/
def readListMetadata? (d : Json) : Option Unit := do
  let r ← Record.lastOf? d
  let _ ← r.optional "continue" Document.text?
  let _ ← r.optional "remainingItemCount" Document.int64?
  let _ ← r.optional "resourceVersion" Document.text?
  let _ ← r.optional "selfLink" Document.text?

/-- The items of a list. -/
def readItems? (read : Json → Option α) (d : Json) : Option (List α) := do
  let r : Record Json := ⟨← Document.members? d⟩
  r.withDefault "metadata" () readListMetadata?
  r.required "items" (Document.list? read)

end ApiResponse

/-- The policy among the entries of a config map: absent if the entry for it is missing or blank,
and none at all if it is no policy. -/
def ClusterPolicy.ofData? (data : SortedMap String String) : Option (Option ClusterPolicy) :=
  match (data.get? policyKey).filter (!Text.isAllBlank ·) with
  | none => some none
  | some text => do return some (← ClusterPolicy.read? (← Yaml.ofText? text))

namespace StoreCall

/-- The result of a call, given what was answered to its request. -/
def answered {α : Type} : StoreCall α → ApiResponse → Except ApiFailure α
  | getRequest _, r => r.found BuildRequest.read?
  | listRequests _, r => r.result (ApiResponse.readItems? BuildRequest.read?)
  | updateRequestStatus _, r => r.result BuildRequest.read?
  | setRequestLabel .., r => (r.result BuildRequest.read?).map fun _ => ()
  | getTemplate _, r => r.found BuildTemplate.read?
  | createTemplate _, r => r.result BuildTemplate.read?
  | replaceTemplate _, r => r.result BuildTemplate.read?
  | getExecution _, r => r.found BuildExecution.read?
  | createExecution _, r => r.result BuildExecution.read?
  | getStrategy _, r => r.found BuildStrategy.read?
  | getPolicy, r => do
    -- an entry that is no policy counts as none
    let data ← r.found ApiResponse.readConfigMap?
    return data.bind fun data => (ClusterPolicy.ofData? data).join
  | getSecret _, r => r.found ApiResponse.readSecret?

end StoreCall

/-- Makes a call of the store through `send`, which gives the answer to a request if there is one.
-/
def Cluster.call {m : Type → Type} [Monad m] (c : Cluster)
    (send : ApiRequest → m (Option ApiResponse)) {α : Type} (call : StoreCall α) :
    m (Except StoreError α) := do
  let (kind, name) := call.subject c
  let failed (failure : ApiFailure) := failure.storeError kind name
  if call.written?.any (·.namespace.isNone) then
    return .error (.backend (name ++ " has no namespace"))
  else if call.isSendable c then
    match ← send (call.request c) with
    | some response => return (call.answered response).mapError failed
    | none => return .error (failed .unanswered)
  else return .error (failed .unanswered)

end PushBuild
