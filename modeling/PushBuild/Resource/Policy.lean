import PushBuild.Resource.Request

/-!
The cluster's build policy: which strategy builds a repository with a build file, and which one
without.
-/

namespace PushBuild

/-- Names of strategies by build file mode. -/
structure ClusterPolicy where
  /-- for repositories that carry a build file -/
  buildfile : Option String := none
  /-- for those that do not -/
  noBuildfile : Option String := none
deriving Repr, DecidableEq, Inhabited

namespace ClusterPolicy

/-- The entry of a config map that holds the policy. -/
def policyKey : String := "policy.yaml"

/-- The strategy for a mode; an empty name counts as none. -/
def strategyFor? (p : ClusterPolicy) (mode : BuildFileMode) : Option String := do
  let name ← match mode with
    | .present => p.buildfile
    | .absent => p.noBuildfile
  if name.isEmpty then none else some name

variable {ν : Type} [Document ν]

/-- Reads the section with the strategies. -/
def readStrategies? (d : ν) : Option ClusterPolicy := do
  let r ← Record.at? ["buildfile", "noBuildfile"] d
  return {
    buildfile := ← r.optional "buildfile" Document.text?
    noBuildfile := ← r.optional "noBuildfile" Document.text? }

def read? (d : ν) : Option ClusterPolicy := do
  let r ← Record.at? ["buildStrategies"] d
  r.withDefault "buildStrategies" {} readStrategies?

def toJson (p : ClusterPolicy) : Json :=
  .obj [("buildStrategies", .obj (Json.member? "buildfile" .str p.buildfile ++
    Json.member? "noBuildfile" .str p.noBuildfile))]

end ClusterPolicy

end PushBuild
