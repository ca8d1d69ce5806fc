import PushBuild.Program

/-!
Store calls as requests to an API server.

Each call is one request.  Its path tells the kind, the namespace and the name of the resource; a
write of the status has a path of its own and carries the version that was read, so that the server
refuses it when the resource was written since.
-/

namespace PushBuild

/-- The methods of requests. -/
inductive ApiMethod where
  | get
  | post
  | put
  /-- merges the body into the resource -/
  | patch
deriving Repr, DecidableEq

/-- A request to the API server. -/
structure ApiRequest where
  method : ApiMethod
  path : String
  query : List (String × String) := []
  body : Option Json := none
deriving Repr

namespace ApiMethod

def name : ApiMethod → String
  | get => "GET"
  | post => "POST"
  | put => "PUT"
  | patch => "PATCH"

/-- The type of the body that requests of a method carry. -/
def contentType? : ApiMethod → Option String
  | get => none
  | post | put => some "application/json"
  | patch => some "application/merge-patch+json"

end ApiMethod

/-- What a store on an API server has to know: the namespace to list requests in, all of them if
there is none, and the config map with the policy. -/
structure Cluster where
  watched : Option String := none
  policy : ObjectKey := ⟨"buildwright-system", "buildwright-policy"⟩
deriving Repr, DecidableEq

namespace Cluster

/-! ## Paths -/

/-- Where the resources of this controller are. -/
def groupPath : String := "/apis/" ++ apiVersion

/-- Where the resources of the server itself are. -/
def corePath : String := "/api/v1"

/-- The resources of a kind in a namespace. -/
def collectionPath (base «namespace» kind : String) : String :=
  base ++ "/namespaces/" ++ «namespace» ++ "/" ++ kind

/-- One resource. -/
def resourcePath (base kind : String) (key : ObjectKey) : String :=
  collectionPath base key.namespace kind ++ "/" ++ key.name

def requestsName : String := "buildrequests"
def templatesName : String := "buildtemplates"
def executionsName : String := "buildexecutions"

/-- The characters a path may be made of. -/
def isPathChar (c : Char) : Bool :=
  let n := c.toNat
  n == 0x21 || n == 0x22 || (0x24 ≤ n && n ≤ 0x3B) || n == 0x3D || (0x40 ≤ n && n ≤ 0x5F) ||
    (0x61 ≤ n && n ≤ 0x7E) || 0x7F ≤ n

/-! ## Bodies -/

/-- The change that replaces the status of the version that was read. -/
def statusPatch (r : BuildRequest) : Json :=
  .obj [("metadata", .obj [("resourceVersion", .ofOption .str r.metadata.resourceVersion)]),
    ("status", .ofOption BuildRequestStatus.toJson r.status)]

/-- The change that sets a label, or takes it away. -/
def labelPatch (label : String) (value : Option String) : Json :=
  .obj [("metadata", .obj [("labels", .obj [(label, .ofOption .str value)])])]

end Cluster

namespace StoreCall

open Cluster

/-- What a call is about, as errors name it. -/
def subject (c : Cluster) {α : Type} : StoreCall α → ResourceKind × String
  | getRequest key => (.request, key.name)
  | listRequests selector => (.request, selector)
  | updateRequestStatus request => (.request, request.metadata.anyName)
  | setRequestLabel key _ _ => (.request, key.name)
  | getTemplate key => (.template, key.name)
  | createTemplate template => (.template, template.metadata.anyName)
  | replaceTemplate template => (.template, template.metadata.anyName)
  | getExecution key => (.execution, key.name)
  | createExecution execution => (.execution, execution.metadata.anyName)
  | getStrategy name => (.strategy, name)
  | getPolicy => (.configMap, c.policy.name)
  | getSecret key => (.secret, key.name)

/-- The metadata of the resource that a call writes as a whole; it has to have a namespace. -/
def written? {α : Type} : StoreCall α → Option Metadata
  | updateRequestStatus request => some request.metadata
  | createTemplate template => some template.metadata
  | replaceTemplate template => some template.metadata
  | createExecution execution => some execution.metadata
  | _ => none

/-- The request for a call. -/
def request (c : Cluster) {α : Type} : StoreCall α → ApiRequest
  | getRequest key => { method := .get, path := resourcePath groupPath requestsName key }
  | listRequests selector =>
    { method := .get
      path := match c.watched with
        | some name => collectionPath groupPath name requestsName
        | none => groupPath ++ "/" ++ requestsName
      query := [("labelSelector", selector)] }
  | updateRequestStatus request =>
    { method := .patch
      path := resourcePath groupPath requestsName request.key ++ "/status"
      body := some (statusPatch request) }
  | setRequestLabel key label value =>
    { method := .patch
      path := resourcePath groupPath requestsName key
      body := some (labelPatch label value) }
  | getTemplate key => { method := .get, path := resourcePath groupPath templatesName key }
  | createTemplate template =>
    { method := .post
      path := collectionPath groupPath template.metadata.namespaceOrEmpty templatesName
      body := some template.toJson }
  | replaceTemplate template =>
    { method := .put
      path := resourcePath groupPath templatesName template.key
      body := some template.toJson }
  | getExecution key => { method := .get, path := resourcePath groupPath executionsName key }
  | createExecution execution =>
    { method := .post
      path := collectionPath groupPath execution.metadata.namespaceOrEmpty executionsName
      body := some execution.toJson }
  | getStrategy name => { method := .get, path := groupPath ++ "/clusterbuildstrategies/" ++ name }
  | getPolicy => { method := .get, path := resourcePath corePath "configmaps" c.policy }
  | getSecret key => { method := .get, path := resourcePath corePath "secrets" key }

/-- The name of the one resource that a call reads. -/
def readName? (c : Cluster) {α : Type} : StoreCall α → Option String
  | getRequest key | getTemplate key | getExecution key | getSecret key => some key.name
  | getStrategy name => some name
  | getPolicy => some c.policy.name
  | _ => none

/-- Whether a call makes a request: its path is one, and what it reads has a name. -/
def isSendable (c : Cluster) {α : Type} (call : StoreCall α) : Bool :=
  (call.request c).path.toList.all isPathChar && call.readName? c != some ""

end StoreCall

end PushBuild
