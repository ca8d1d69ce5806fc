/-!
What can go wrong in a store and in a pass of the controller, and the words for it.

How a build ended is never an error: that is reported as status.
-/

namespace PushBuild

/-- The kinds of resources that a store holds. -/
inductive ResourceKind where
  | request
  | template
  | execution
  | strategy
  | configMap
  | secret
deriving Repr, DecidableEq

/-- The name of a kind. -/
def ResourceKind.name : ResourceKind → String
  | .request => "BuildRequest"
  | .template => "BuildTemplate"
  | .execution => "BuildExecution"
  | .strategy => "ClusterBuildStrategy"
  | .configMap => "ConfigMap"
  | .secret => "Secret"

/-- Why a store refuses a call. -/
inductive StoreError where
  /-- the resource was written since the caller read it -/
  | conflict (kind : ResourceKind) (name : String)
  | alreadyExists (kind : ResourceKind) (name : String)
  /-- the store itself failed -/
  | backend (message : String)
deriving Repr, DecidableEq

namespace StoreError

/-- The words for a refusal. -/
def message : StoreError → String
  | conflict kind name => kind.name ++ " " ++ name ++ " was modified concurrently"
  | alreadyExists kind name => kind.name ++ " " ++ name ++ " already exists"
  | backend text => "store error: " ++ text

/-- Whether another writer was faster, so that trying again from a fresh read may help. -/
def isConflict : StoreError → Bool
  | conflict .. => true
  | _ => false

end StoreError

/-- Why a pass stops. -/
inductive BuildError where
  | missingPolicy
  | strategyNotFound (what : String)
  /-- the resource is controlled by someone else -/
  | ownedByOther (kind : ResourceKind) (name owner : String)
  | sourceAccessFailed (what : String)
  | store (error : StoreError)
deriving Repr, DecidableEq

namespace BuildError

/-- The words for the cause. -/
def message : BuildError → String
  | missingPolicy => "cluster build policy is not configured"
  | strategyNotFound what => "build strategy not found: " ++ what
  | ownedByOther kind name owner => kind.name ++ " " ++ name ++ " is owned by " ++ owner
  | sourceAccessFailed what => "source not reachable: " ++ what
  | store error => "reconcile failed: " ++ error.message

/-- The word for the cause, as conditions carry it. -/
def reason : BuildError → String
  | missingPolicy => "MissingPolicy"
  | strategyNotFound _ => "BuildStrategyNotFound"
  | ownedByOther .. => "BuildConflict"
  | sourceAccessFailed _ => "SourceAccessFailed"
  | store _ => "BuildReconcileFailed"

/-- Whether the cause is a state of affairs to be recorded on the request, to be ended by someone
else; a failing store is not. -/
def isRecordable : BuildError → Bool
  | store _ => false
  | _ => true

/-- Whether another writer was faster. -/
def isConflict : BuildError → Bool
  | store error => error.isConflict
  | _ => false

end BuildError

end PushBuild
