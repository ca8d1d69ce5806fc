import PushBuild.Resource.Metadata

/-!
Cluster build strategies.  The controller only asks whether one is there; what a strategy says is
for the build system and kept as it came.
-/

namespace PushBuild

/-- A strategy: its specification is a map of data of no particular type. -/
structure BuildStrategy where
  metadata : Metadata := {}
  spec : SortedMap String Json := SortedMap.empty
deriving Repr, DecidableEq, Inhabited

namespace BuildStrategy

variable {ν : Type} [Document ν]

/-- Reads the specification of a strategy. -/
def readSpec? (d : ν) : Option (SortedMap String Json) :=
  Document.map? Document.opaque? d

def read? (d : ν) : Option BuildStrategy := do
  let r ← Record.at? ["metadata", "spec"] d
  return {
    metadata := ← r.required "metadata" Metadata.read?
    spec := ← r.required "spec" readSpec? }

/-- The specification as JSON. -/
def specToJson (spec : SortedMap String Json) : Json := .ofMap id spec

def toJson (s : BuildStrategy) : Json :=
  .obj [("apiVersion", .str apiVersion), ("kind", .str "ClusterBuildStrategy"),
    ("metadata", s.metadata.toJson), ("spec", specToJson s.spec)]

end BuildStrategy

end PushBuild
