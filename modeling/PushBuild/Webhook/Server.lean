import PushBuild.Webhook.Acceptance
import PushBuild.Webhook.Route

/-!
The endpoint for deliveries: a route for pushes, and one to ask whether the server is alive.

A delivery that was recorded, or that no request waits for, is accepted; one that is no push, or
does not come with the right method, is a bad request; one that nothing authenticates is
unauthorized; and when the store fails, that is an error of the server.  A body may have two
mebibytes.
-/

namespace PushBuild

/-- A request to the server. -/
structure HttpRequest where
  method : String
  /-- the target, with a query perhaps -/
  target : String
  headers : Headers
  body : Bytes

/-- An answer of the server. -/
structure HttpResponse where
  status : Nat
  body : String := ""
deriving Repr, DecidableEq

namespace Webhook

/-- The most bytes a body may have. -/
def maxBodyLength : Nat := 2097152

/-- The route that tells whether the server is alive. -/
def livenessPath : String := "/healthz"

/-- The answer to a delivery that was refused. -/
def refusal (e : WebhookError) : HttpResponse where
  status := match e with
    | .provider _ | .method => 400
    | .unauthorized => 401
    | .store _ => 500
  body := e.message

/-- Answers a delivery. -/
def receive (retry : RetryPolicy) (d : Delivery) : Program HttpResponse := do
  if maxBodyLength < d.body.length then
    return { status := 413, body := "Failed to buffer the request body: length limit exceeded" }
  else
    match ← (d.accept retry Provider.all).run with
    | .ok _ => return { status := 202 }
    | .error e => return refusal e

/-- The path of a target, without query and fragment. -/
def pathOf (target : String) : String :=
  String.ofList (target.toList.takeWhile fun c => c != '?' && c != '#')

/-- Answers a request, body and all. -/
def respond (route : Route) (retry : RetryPolicy) (r : HttpRequest) : Program HttpResponse :=
  let path := pathOf r.target
  let isPush := route.isMatch path
  let receive := receive retry ⟨r.headers, r.body⟩
  let isGet := r.method == "GET" || r.method == "HEAD"
  if path == livenessPath then
    let isShared := route == ⟨livenessPath.toList.map .char⟩
    if isGet then return { status := 200, body := "ok" }
    else if isShared then
      if r.method == "POST" then receive else return refusal .method
    else return { status := 405 }
  else if isPush then
    if r.method == "POST" then receive else return refusal .method
  else return { status := 404 }

/-- Answers a request; to one that asks for the head alone, without the body. -/
def answer (route : Route) (retry : RetryPolicy) (r : HttpRequest) : Program HttpResponse := do
  let response ← respond route retry r
  return if r.method == "HEAD" then { response with body := "" } else response

end Webhook

end PushBuild
