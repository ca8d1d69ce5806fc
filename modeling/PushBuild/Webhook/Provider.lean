import PushBuild.Digest.Hmac
import PushBuild.Json.Reader
import PushBuild.Push.Event
import PushBuild.Text.Quoted
import PushBuild.Webhook.Headers

/-!
The source-control providers that report pushes.

A provider is recognised by a header that names the event.  Its payload is a JSON document; the
parts of a push are looked for along a list of paths, and the first text that is not blank is taken.
What authenticates a delivery is different for each: a signature of the body, or the secret itself.
-/

namespace PushBuild

open PushBuild.Text

/-- A provider. -/
inductive Provider where
  | github
  | gitlab
deriving Repr, DecidableEq

/-- Why a payload is not that of a push. -/
inductive PayloadFault where
  /-- it is no JSON document; the words stand for those of whoever reads JSON -/
  | notJson
  | missingUrl
  | missingRef
deriving Repr, DecidableEq

/-- The words for the cause. -/
def PayloadFault.message : PayloadFault → String
  | notJson => "<json>"
  | missingUrl => "missing repository URL"
  | missingRef => "missing ref"

/-- Why a delivery is no push. -/
inductive ProviderError where
  | unknownProvider
  | unsupportedEvent (provider : Provider) (event : String)
  | invalidPayload (provider : Provider) (fault : PayloadFault)
deriving Repr, DecidableEq

namespace Provider

def name : Provider → String
  | github => "github"
  | gitlab => "gitlab"

/-- The header with the name of the event. -/
def eventHeader : Provider → String
  | github => "x-github-event"
  | gitlab => "x-gitlab-event"

/-- The header that authenticates a delivery. -/
def credentialHeader : Provider → String
  | github => "x-hub-signature-256"
  | gitlab => "x-gitlab-token"

/-- The event that is a push. -/
def pushEvent : Provider → String
  | github => "push"
  | gitlab => "Push Hook"

/-- Where the address of the repository is looked for. -/
def urlPaths : Provider → List (List String)
  | github => [["repository", "clone_url"], ["repository", "html_url"]]
  | gitlab => [["project", "git_http_url"], ["repository", "git_http_url"], ["project", "web_url"]]

/-- Where the ref is looked for. -/
def refPaths : List (List String) := [["ref"]]

/-- Where the commit is looked for. -/
def commitPaths : Provider → List (List String)
  | github => [["after"], ["head_commit", "id"]]
  | gitlab => [["checkout_sha"], ["after"]]

/-- All providers, in the order in which they are tried. -/
def all : List Provider := [github, gitlab]

/-- Whether the headers are of this provider. -/
def detects (p : Provider) (headers : Headers) : Bool :=
  headers.contains p.eventHeader

/-- The first of some providers that the headers are of. -/
def detect (providers : List Provider) (headers : Headers) : Except ProviderError Provider :=
  match providers.find? (·.detects headers) with
  | some p => .ok p
  | none => .error .unknownProvider

end Provider

/-- The words for the cause. -/
def ProviderError.message : ProviderError → String
  | unknownProvider => "no provider recognizes this request"
  | unsupportedEvent provider event =>
    provider.name ++ " event " ++ quoted event ++ " is not a push"
  | invalidPayload provider fault => "invalid " ++ provider.name ++ " payload: " ++ fault.message

/-- The value that a path of members leads to. -/
def Json.at? (v : Json) : List String → Option Json
  | [] => some v
  | name :: path => (v.field? name).bind (·.at? path)

/-- The first text along some paths that is not blank. -/
def Json.firstText? (v : Json) (paths : List (List String)) : Option String :=
  paths.findSome? fun path =>
    (((v.at? path).bind Json.text?).filter fun s => !isAllBlank s)

namespace Provider

/-- The push that a document reports. -/
def pushOf (p : Provider) (payload : Json) : Except PayloadFault PushEvent :=
  match payload.firstText? p.urlPaths with
  | none => .error .missingUrl
  | some url =>
    match payload.firstText? refPaths with
    | none => .error .missingRef
    | some ref => .ok { url, ref, commit := (payload.firstText? p.commitPaths).getD "" }

/-- The push that a body reports. -/
def payloadOf (p : Provider) (body : Bytes) : Except PayloadFault PushEvent :=
  match (ofUtf8? body).bind fun s => Json.document? s.toList with
  | none => .error .notJson
  | some payload => p.pushOf payload

/-- The push that a delivery reports. -/
def parse (p : Provider) (headers : Headers) (body : Bytes) : Except ProviderError PushEvent :=
  let event := String.ofList ((headers.text? p.eventHeader).getD [])
  if event = p.pushEvent then (p.payloadOf body).mapError (.invalidPayload p)
  else .error (.unsupportedEvent p event)

/-- The start of a signature. -/
def signatureStart : List Char := ['s', 'h', 'a', '2', '5', '6', '=']

/-- The bytes of a signature, without regard to whether they are the right ones. -/
def signatureBytes? (signature : List Char) : Option Bytes :=
  (signatureStart.isPrefixOf? signature).bind bytesOfHex?

/-- The signature of a body under a secret. -/
def sign (secret body : Bytes) : String :=
  String.ofList (signatureStart ++ hexOfBytes (Hmac.code secret body))

/-- Whether a delivery comes from someone who knows the secret.  A token is compared through codes
under the secret, which have one length; without a secret no token is right. -/
def authenticates (p : Provider) (headers : Headers) (body secret : Bytes) : Bool :=
  match headers.text? p.credentialHeader with
  | none => false
  | some credential =>
    match p with
    | github => signatureBytes? credential == some (Hmac.code secret body)
    | gitlab =>
      !secret.isEmpty &&
        Hmac.code secret (credential.map fun c => c.toNat.toUInt8) == Hmac.code secret secret

end Provider

end PushBuild
