import PushBuild.Error
import PushBuild.Resource.Request

/-!
Who controls a resource.

A resource belongs to the request that its first controller reference names by uid.  The references
a request makes need its name and its uid; a request without them cannot own anything.
-/

namespace PushBuild

/-- Who controls a resource, as seen from a request. -/
inductive Ownership where
  | owned
  | unowned
  /-- someone else, by kind and name -/
  | foreign (owner : String)
deriving Repr, DecidableEq

namespace Ownership

/-- The words for the owner. -/
def owner : Ownership → String
  | owned => "this request"
  | unowned => "nobody"
  | foreign owner => owner

/-- Who controls the resource, as seen from the request with this uid. -/
def of (resource : Metadata) (uid : String) : Ownership :=
  match resource.controller? with
  | some r => if r.uid = uid then owned else foreign (r.kind ++ "/" ++ r.name)
  | none => unowned

/-- Fails unless the request with this uid controls the resource. -/
def ensure (kind : ResourceKind) (resource : Metadata) (uid : String) : Except BuildError Unit :=
  match of resource uid with
  | owned => .ok ()
  | other => .error (.ownedByOther kind resource.anyName other.owner)

end Ownership

namespace BuildRequest

/-- The failure of a request that lacks a uid, or a name to be referred to by. -/
def noUid (r : BuildRequest) : BuildError :=
  .store (.backend ("BuildRequest " ++ r.name ++ " has no uid"))

/-- The uid that the store gave to the request. -/
def uid (r : BuildRequest) : Except BuildError String :=
  match r.metadata.uid with
  | some uid => .ok uid
  | none => .error r.noUid

/-- The reference by which the request controls a resource. -/
def ownerReference (r : BuildRequest) : Except BuildError OwnerReference :=
  match r.metadata.name, r.metadata.uid with
  | some name, some uid =>
    .ok { apiVersion := apiVersion, controller := some true, kind := ResourceKind.request.name,
          name, uid }
  | _, _ => .error r.noUid

end BuildRequest

end PushBuild
